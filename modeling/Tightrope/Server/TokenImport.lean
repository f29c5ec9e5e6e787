import Tightrope.Auth.Crypto.StoredTokens
import Tightrope.Auth.Oauth.AccountLogins
import Tightrope.Proxy.Session.LockPool
import Tightrope.Server.RefreshTarget

namespace Tightrope.Server

open Auth.Crypto Bytes Db Proxy.Session RowTable

def importedTokens (email provider accessToken refreshToken : Bytes) : OauthAccountUpsert where
  email := email
  provider := provider
  chatgptAccountId := none
  planType := none
  accessToken := accessToken
  refreshToken := refreshToken
  idToken := []

def importAccountWithTokens (cipher : TokenCipher) (key : SessionKey) (nonces : ℕ → Bytes) (stamp : Bytes)
    (table : AccountTable) (email provider accessToken refreshToken : Bytes) : AccountTable × AccountMutationResponse :=
  let upsert := importedTokens email provider accessToken refreshToken
  match table.upsertOauthAccount cipher key nonces stamp upsert with
  | (written, false) => (written,
    ⟨400, ofString "invalid_account_import", ofString "Failed to import account with tokens", none⟩)
  | (written, true) =>
    let accountId := ((table.findLogin upsert).map Account.id).getD written.sequence
    (written, ⟨201, [], [], rowOf Account.id accountId written.rows⟩)

def idTokenUnder (cipher : TokenCipher) (key : SessionKey) (row : Account) : Option Bytes :=
  tokenUnder cipher key (row.idTokenEncrypted.getD [])

structure OnlyTokensWritten (cipher : TokenCipher) (key : SessionKey) (row row' : Account) : Prop where
  chatgptAccountId : row'.chatgptAccountId = row.chatgptAccountId
  planType : row'.planType = row.planType
  idToken : idTokenUnder cipher key row' = idTokenUnder cipher key row
  rest : { row' with
    chatgptAccountId := row.chatgptAccountId
    planType := row.planType
    idTokenEncrypted := row.idTokenEncrypted
    accessTokenEncrypted := row.accessTokenEncrypted
    refreshTokenEncrypted := row.refreshTokenEncrypted
    lastRefresh := row.lastRefresh
    status := row.status
    updatedAt := row.updatedAt } = row

def Routed (cipher : TokenCipher) (call : ResolveCall) (accounts : Accounts) (accountId : ℤ) : Prop :=
  ∃ candidate ∈ (queryRoutedAccountCandidates cipher call accounts).2,
    candidate.credentials.internalAccountId = accountId

section Import

variable {cipher : TokenCipher} {key : SessionKey} {nonces : ℕ → Bytes} {stamp : Bytes} {table : AccountTable}
  {email provider accessToken refreshToken : Bytes} {existing row : Account} {accounts : Accounts} {call : ResolveCall}

theorem routed_iff {accountId : ℤ} :
    Routed cipher call accounts accountId ↔ ∃ row ∈ accounts, Offered cipher call row ∧ row.id = accountId := by
  constructor
  · rintro ⟨candidate, hcandidate, rfl⟩
    obtain ⟨row, hrow, credentials, hread, rfl⟩ := mem_readCandidates.mp hcandidate
    obtain ⟨hmem, hroutable⟩ := List.mem_filter.mp hrow
    exact ⟨row, List.mem_mergeSort.mp hmem, ⟨hroutable, Option.isSome_iff_exists.mpr ⟨credentials, hread⟩⟩,
      (internalAccountId_of_read cipher call hread).symm⟩
  · rintro ⟨row, hrow, ⟨hroutable, hread⟩, rfl⟩
    obtain ⟨credentials, hcredentials⟩ := Option.isSome_iff_exists.mp hread
    have hmem : row ∈ (accounts.mergeSort laterFirst).filter isRoutable :=
      List.mem_filter.mpr ⟨List.mem_mergeSort.mpr hrow, hroutable⟩
    exact ⟨candidateOf credentials row, mem_readCandidates.mpr ⟨row, hmem, credentials, hcredentials, rfl⟩,
      internalAccountId_of_read cipher call hcredentials⟩

theorem importAccountWithTokens_cases
    (hexisting : table.findLogin (importedTokens email provider accessToken refreshToken) = some existing) :
    ((email = [] ∨ (importedTokens email provider accessToken refreshToken).sealTokens cipher key nonces = none) ∧
      (importAccountWithTokens cipher key nonces stamp table email provider accessToken refreshToken).1 = table) ∨
    ∃ tokens, email ≠ [] ∧
      (importedTokens email provider accessToken refreshToken).sealTokens cipher key nonces = some tokens ∧
      (importAccountWithTokens cipher key nonces stamp table email provider accessToken refreshToken).1 =
        table.updateRow existing.id ((importedTokens email provider accessToken refreshToken).setRow tokens stamp)
          (OauthAccountUpsert.setRow_id _ tokens stamp) := by
  unfold importAccountWithTokens AccountTable.upsertOauthAccount
  by_cases hemail : email = []
  · left
    dsimp only
    rw [if_pos (show (importedTokens email provider accessToken refreshToken).email = [] from hemail)]
    exact ⟨.inl hemail, rfl⟩
  · dsimp only
    rw [if_neg (show (importedTokens email provider accessToken refreshToken).email ≠ [] from hemail)]
    cases htokens : (importedTokens email provider accessToken refreshToken).sealTokens cipher key nonces with
    | none => exact .inl ⟨.inr rfl, rfl⟩
    | some tokens =>
      right
      dsimp only
      rw [hexisting]
      exact ⟨tokens, hemail, rfl, rfl⟩

theorem hasLogin_iff : (importedTokens email provider accessToken refreshToken).hasLogin row = true ↔
    row.email = some email ∧ row.provider = some provider := by
  rw [OauthAccountUpsert.hasLogin, Bool.and_eq_true, decide_eq_true_iff, decide_eq_true_iff]
  rfl

theorem idTokenUnder_sealed (hcipher : cipher.RoundTrips) {tokens : SealedTokens}
    (h : (importedTokens email provider accessToken refreshToken).sealTokens cipher key nonces = some tokens) :
    tokenUnder cipher key tokens.idToken = some [] := by
  have hid : encryptTokenForStorage cipher key (nonces 2) [] = some tokens.idToken := by
    simp only [OauthAccountUpsert.sealTokens, importedTokens, Option.bind_eq_bind, Option.bind_eq_some_iff] at h
    obtain ⟨access, -, refresh, -, idToken, hid, htokens⟩ := h
    rwa [← Option.some.inj htokens]
  cases key with
  | none =>
    rw [← Option.some.inj hid]
    rfl
  | some key =>
    rw [tokenUnder, if_pos (decryptUnder_encryptUnder hcipher hid).1]
    exact decryptTokenFromStorage_encrypt hcipher hid

theorem onlyTokensWritten_setRow_iff {tokens : SealedTokens} (htoken : tokenUnder cipher key tokens.idToken = some []) :
    OnlyTokensWritten cipher key row
      ((importedTokens email provider accessToken refreshToken).setRow tokens stamp row) ↔
      row.chatgptAccountId = none ∧ row.planType = none ∧ idTokenUnder cipher key row = some [] := by
  constructor
  · rintro ⟨hid, hplan, hidToken, -⟩
    exact ⟨hid.symm, hplan.symm, hidToken.symm.trans htoken⟩
  · rintro ⟨hid, hplan, hidToken⟩
    exact ⟨hid.symm, hplan.symm, htoken.trans hidToken.symm, rfl⟩

/-- One import leaves the account usable: the row it finds keeps all but tokens, status and times, every account that
was offered to requests still is, and the rows of other logins are as they were. -/
def ImportKeepsUsable (cipher : TokenCipher) (key : SessionKey) (table imported : AccountTable) (email provider : Bytes)
    (existing : Account) : Prop :=
  (∃ row, rowOf Account.id existing.id imported.rows = some row ∧ OnlyTokensWritten cipher key existing row) ∧
    (∀ call accountId, call.key = key → Routed cipher call table.rows accountId →
      Routed cipher call imported.rows accountId) ∧
    ∀ row ∈ table.rows, ¬ (row.email = some email ∧ row.provider = some provider) →
      rowOf Account.id row.id imported.rows = some row

theorem importKeepsUsable_refl (hexisting : existing ∈ table.rows) :
    ImportKeepsUsable cipher key table table email provider existing :=
  ⟨⟨existing, rowOf_of_mem Account.id table.nodup hexisting, rfl, rfl, rfl, rfl⟩, fun _ _ _ h => h,
    fun _ hrow _ => rowOf_of_mem Account.id table.nodup hrow⟩

/-- An import keeps an account usable exactly where it is refused or the row has nothing to lose. -/
theorem import_keeps_usable_iff (hcipher : cipher.RoundTrips)
    (hexisting : table.findLogin (importedTokens email provider accessToken refreshToken) = some existing) :
    ImportKeepsUsable cipher key table
        (importAccountWithTokens cipher key nonces stamp table email provider accessToken refreshToken).1
        email provider existing ↔
      email = [] ∨ (importedTokens email provider accessToken refreshToken).sealTokens cipher key nonces = none ∨
        (existing.chatgptAccountId = none ∧ existing.planType = none ∧ idTokenUnder cipher key existing = some []) := by
  have hmem : existing ∈ table.rows := List.mem_of_find?_eq_some hexisting
  have hcases := @importAccountWithTokens_cases cipher key nonces stamp table email provider accessToken refreshToken
    existing hexisting
  obtain ⟨hrefused, heq⟩ | ⟨tokens, hemail, htokens, heq⟩ := hcases
  · rw [heq]
    exact ⟨fun _ => hrefused.imp_right .inl, fun _ => importKeepsUsable_refl hmem⟩
  · rw [heq, htokens]
    have hlogin := hasLogin_iff.mp (List.find?_some hexisting)
    have hrow : rowOf Account.id existing.id (table.updateRow existing.id
        ((importedTokens email provider accessToken refreshToken).setRow tokens stamp)
        (OauthAccountUpsert.setRow_id _ tokens stamp)).rows =
          some ((importedTokens email provider accessToken refreshToken).setRow tokens stamp existing) := by
      rw [AccountTable.updateRow, rowOf_updateWhere_self Account.id (OauthAccountUpsert.setRow_id _ tokens stamp),
        rowOf_of_mem Account.id table.nodup hmem]
      rfl
    have hkept : OnlyTokensWritten cipher key existing
        ((importedTokens email provider accessToken refreshToken).setRow tokens stamp existing) ↔
          existing.chatgptAccountId = none ∧ existing.planType = none ∧ idTokenUnder cipher key existing = some [] :=
      onlyTokensWritten_setRow_iff (idTokenUnder_sealed hcipher htokens)
    have hothers : ∀ row ∈ table.rows, row.id ≠ existing.id → rowOf Account.id row.id (table.updateRow existing.id
        ((importedTokens email provider accessToken refreshToken).setRow tokens stamp)
        (OauthAccountUpsert.setRow_id _ tokens stamp)).rows = some row := by
      intro row hin hne
      rw [AccountTable.updateRow, rowOf_updateWhere_ne Account.id (OauthAccountUpsert.setRow_id _ tokens stamp) hne,
        rowOf_of_mem Account.id table.nodup hin]
    constructor
    · rintro ⟨⟨row, hfound, hwritten⟩, -, -⟩
      rw [hrow] at hfound
      obtain rfl := Option.some.inj hfound
      exact .inr (.inr (hkept.mp hwritten))
    · rintro (hnil | hfailed | hempty)
      · exact absurd hnil hemail
      · cases hfailed
      · refine ⟨⟨_, hrow, hkept.mpr hempty⟩, fun call accountId _ hrouted => ?_, fun row hin hother => ?_⟩
        · obtain ⟨row, hin, hoffered, rfl⟩ := routed_iff.mp hrouted
          -- A row without an account id is offered to nobody, before and after.
          have hne : row.id ≠ existing.id := by
            intro hsame
            obtain rfl := Auth.Oauth.eq_of_id hin hmem hsame
            have hroutable := hoffered.1
            rw [isRoutable, hempty.1] at hroutable
            simp at hroutable
          exact routed_iff.mpr ⟨row, mem_of_rowOf Account.id (hothers row hin hne), hoffered, rfl⟩
        · refine hothers row hin fun hsame => hother ?_
          obtain rfl := Auth.Oauth.eq_of_id hin hmem hsame
          exact hlogin

end Import

def importedEmail : Bytes := ofString "a@example.com"

def importedProvider : Bytes := ofString "openai"

def tokensOnly : Account where
  id := 1
  email := some importedEmail
  provider := some importedProvider
  accessTokenEncrypted := some (ofString "old")
  status := active

def loggedIn : Account :=
    { tokensOnly with chatgptAccountId := some (ofString "acc"), planType := some (ofString "plus") }

def oneAccount (row : Account) : AccountTable where
  rows := [row]
  sequence := row.id
  nodup := List.nodup_singleton _
  below _ hrow := (List.mem_singleton.mp hrow) ▸ le_rfl

theorem import_keeps_tokens_only : ImportKeepsUsable Auth.Crypto.markingCipher none (oneAccount tokensOnly)
    (importAccountWithTokens Auth.Crypto.markingCipher none (fun _ => []) [] (oneAccount tokensOnly) importedEmail
      importedProvider (ofString "new") (ofString "refresh")).1 importedEmail importedProvider tokensOnly :=
  (import_keeps_usable_iff Auth.Crypto.roundTrips_markingCipher (by decide)).mpr (.inr (.inr (by decide)))

theorem import_forgets_login :
    let imported := (importAccountWithTokens Auth.Crypto.markingCipher none (fun _ => []) [] (oneAccount loggedIn)
      importedEmail importedProvider (ofString "new") (ofString "refresh")).1
    (oneAccount loggedIn).findLogin
      (importedTokens importedEmail importedProvider (ofString "new") (ofString "refresh")) =
        some loggedIn ∧
      Routed Auth.Crypto.markingCipher { now := 0 } (oneAccount loggedIn).rows 1 ∧
      ¬ Routed Auth.Crypto.markingCipher { now := 0 } imported.rows 1 ∧
      imported.rows.map Account.planType = [none] ∧
      ¬ ImportKeepsUsable Auth.Crypto.markingCipher none (oneAccount loggedIn) imported importedEmail importedProvider
        loggedIn := by
  intro imported
  have hbefore : Routed Auth.Crypto.markingCipher { now := 0 } (oneAccount loggedIn).rows 1 :=
    routed_iff.mpr ⟨loggedIn, List.mem_singleton.mpr rfl, ⟨by decide, by decide⟩, rfl⟩
  have hafter : ¬ Routed Auth.Crypto.markingCipher { now := 0 } imported.rows 1 := by
    intro hrouted
    obtain ⟨row, hrow, hoffered, -⟩ := routed_iff.mp hrouted
    have hnone : ∀ row ∈ imported.rows, isRoutable row = false := by decide
    exact absurd hoffered.1 (by rw [hnone row hrow]; exact Bool.false_ne_true)
  exact ⟨by decide, hbefore, hafter, by decide, fun hkept => hafter (hkept.2.1 _ 1 rfl hbefore)⟩

end Tightrope.Server
