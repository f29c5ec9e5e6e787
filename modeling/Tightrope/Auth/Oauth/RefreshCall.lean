import Tightrope.Auth.Oauth.TokenRefresh

namespace Tightrope.Auth.Oauth

open Bytes Tightrope.Core Crypto Db RowTable

structure RefreshCall where
  accounts : Accounts
  phase : RefreshPhase := .selecting
  read : List ℤ := []
  exchanged : List (ℤ × Bytes) := []
  stored : List ℤ := []

namespace RefreshCall

def rowsRead : RefreshPhase → List ℤ
  | .migrating record => [record.id]
  | _ => []

def tokensSent : RefreshPhase → List (ℤ × Bytes)
  | .exchanging record => [(record.id, record.refreshToken)]
  | _ => []

def rowsStored : RefreshPhase → RefreshPhase → List ℤ
  | .storing accountId _, .finished result => if result.refreshed then [accountId] else []
  | _, _ => []

def refreshed (call : RefreshCall) : Bool :=
  match call.phase with
  | .finished result => result.refreshed
  | _ => false

end RefreshCall

section Call

variable (cipher : TokenCipher) (chatgptAccountId : Bytes) (key : SessionKey) (input : RefreshInput)

def nextCall (call : RefreshCall) : RefreshCall :=
  let (accounts, phase) := advance cipher chatgptAccountId key call.accounts input call.phase
  { accounts := accounts
    phase := phase
    read := call.read ++ RefreshCall.rowsRead call.phase
    exchanged := call.exchanged ++ RefreshCall.tokensSent call.phase
    stored := call.stored ++ RefreshCall.rowsStored call.phase phase }

def refreshAccessTokenForAccount (accounts : Accounts) : RefreshCall :=
  (nextCall cipher chatgptAccountId key input)^[7] { accounts := accounts }

end Call

def ownRefreshToken (cipher : TokenCipher) (key : SessionKey) (row : Account) : Option Bytes :=
  tokenUnder cipher key (textOrEmpty row.refreshTokenEncrypted)

def tokensReadable (cipher : TokenCipher) (key : SessionKey) (nonces : ℕ → Bytes) (row : Account) : Bool :=
  ((migrateRecord cipher key nonces (recordOf row)).bind fun stored => decryptRecord cipher key stored.1).isSome

structure KeepsLookup (f : Account → Account) : Prop where
  id : ∀ row, (f row).id = row.id
  chatgptAccountId : ∀ row, (f row).chatgptAccountId = row.chatgptAccountId
  status : ∀ row, row.status = active → (f row).status = active

theorem keepsLookup_id : KeepsLookup fun row => row := ⟨fun _ => rfl, fun _ => rfl, fun _ h => h⟩

theorem keepsLookup_migratedTokensRow (record : StoredTokenRecord) (stamp : Bytes) :
    KeepsLookup (migratedTokensRow record stamp) := ⟨fun _ => rfl, fun _ => rfl, fun _ h => h⟩

theorem KeepsLookup.comp_refreshedRow {f : Account → Account} (hf : KeepsLookup f) (encrypted : OAuthTokens)
    (now : SqlNow) : KeepsLookup fun row => refreshedRow encrypted now (f row) :=
  ⟨hf.id, hf.chatgptAccountId, fun _ _ => rfl⟩

section Calls

variable {cipher : TokenCipher} {chatgptAccountId : Bytes} {key : SessionKey} {input : RefreshInput}

section Serves

variable (cipher key input) (base : Accounts) (row : Account)

inductive Serves : RefreshCall → Prop
  | migrating : Serves ⟨base, .migrating (recordOf row), [], [], []⟩
  | persisting {refresh idToken : Bytes} {migrated : Bool}
      (hmigrate : migrateRecord cipher key input.nonces (recordOf row) = some (⟨row.id, refresh, idToken⟩, migrated)) :
      Serves ⟨base, .persisting ⟨row.id, refresh, idToken⟩, [row.id], [], []⟩
  | decrypting {f : Account → Account} {refresh idToken : Bytes} {migrated : Bool} (hf : KeepsLookup f)
      (hmigrate : migrateRecord cipher key input.nonces (recordOf row) = some (⟨row.id, refresh, idToken⟩, migrated)) :
      Serves ⟨updateWhere (·.id = row.id) f base, .decrypting ⟨row.id, refresh, idToken⟩, [row.id], [], []⟩
  | exchanging {f : Account → Account} {token idToken : Bytes} (hf : KeepsLookup f)
      (hown : ownRefreshToken cipher key row = some token) :
      Serves ⟨updateWhere (·.id = row.id) f base, .exchanging ⟨row.id, token, idToken⟩, [row.id], [], []⟩
  | encrypting {f : Account → Account} {token idToken : Bytes} {tokens : OAuthTokens} (hf : KeepsLookup f)
      (hown : ownRefreshToken cipher key row = some token) (hanswer : input.provider token = .ok tokens) :
      Serves ⟨updateWhere (·.id = row.id) f base, .encrypting ⟨row.id, token, idToken⟩ tokens, [row.id],
        [(row.id, token)], []⟩
  | storing {f : Account → Account} {token idToken : Bytes} {tokens encrypted : OAuthTokens} (hf : KeepsLookup f)
      (hown : ownRefreshToken cipher key row = some token) (hanswer : input.provider token = .ok tokens)
      (hencrypted : encryptTokens cipher key input.nonces tokens idToken = some encrypted) :
      Serves ⟨updateWhere (·.id = row.id) f base, .storing row.id encrypted, [row.id], [(row.id, token)], []⟩
  | stored {f : Account → Account} {token idToken : Bytes} {tokens encrypted : OAuthTokens} (hf : KeepsLookup f)
      (hown : ownRefreshToken cipher key row = some token) (hanswer : input.provider token = .ok tokens)
      (hencrypted : encryptTokens cipher key input.nonces tokens idToken = some encrypted) :
      Serves ⟨updateWhere (·.id = row.id) (fun r => refreshedRow encrypted input.now (f r)) base,
        .finished { refreshed := true }, [row.id], [(row.id, token)], [row.id]⟩
  | failed {f : Account → Account} {exchanged : List (ℤ × Bytes)} {result : RefreshAccessTokenResult}
      (hf : KeepsLookup f) (hresult : result.refreshed = false)
      (hsent : exchanged = [] ∧ tokensReadable cipher key input.nonces row = false ∨
        ∃ token, ownRefreshToken cipher key row = some token ∧ exchanged = [(row.id, token)]) :
      Serves ⟨updateWhere (·.id = row.id) f base, .finished result, [row.id], exchanged, []⟩

end Serves

theorem migrateRecord_read (hcipher : cipher.RoundTrips) {nonces : ℕ → Bytes} {row : Account} {token : Bytes}
    {stored : StoredTokenRecord} {migrated : Bool}
    (h : migrateRecord cipher key nonces (recordOf row) = some (stored, migrated))
    (htoken : decryptTokenFromStorage cipher key stored.refreshToken = some token) :
    ownRefreshToken cipher key row = some token := by
  obtain ⟨refresh, hrefresh, h⟩ := Option.bind_eq_some_iff.mp h
  split_ifs at h with hempty
  obtain ⟨idToken', _, h⟩ := Option.bind_eq_some_iff.mp h
  cases h
  exact tokenUnder_of_migrated hcipher hrefresh htoken

theorem decryptRecord_read {record plain : StoredTokenRecord} (h : decryptRecord cipher key record = some plain) :
    decryptTokenFromStorage cipher key record.refreshToken = some plain.refreshToken := by
  obtain ⟨refresh, hrefresh, h⟩ := Option.bind_eq_some_iff.mp h
  split_ifs at h
  · cases h
    exact hrefresh
  · obtain ⟨idToken, _, h⟩ := Option.bind_eq_some_iff.mp h
    cases h
    exact hrefresh

theorem Serves.next (hcipher : cipher.RoundTrips) {base : Accounts} {row : Account} {call : RefreshCall}
    (h : Serves cipher key input base row call) :
    Serves cipher key input base row (nextCall cipher chatgptAccountId key input call) := by
  cases h with
  | migrating =>
    have hbase : updateWhere (·.id = row.id) (fun r : Account => r) base = base := updateWhere_id _ base
    cases hmigrate : migrateRecord cipher key input.nonces (recordOf row) with
    | none =>
      have hnext : Serves cipher key input base row
          ⟨updateWhere (·.id = row.id) (fun r => r) base, .finished accountNotFound, [row.id], [], []⟩ :=
        .failed keepsLookup_id rfl (.inl ⟨rfl, by simp [tokensReadable, hmigrate]⟩)
      rw [hbase] at hnext
      simp only [nextCall, advance, hmigrate]
      exact hnext
    | some result =>
      obtain ⟨⟨accountId, refresh, idToken⟩, migrated⟩ := result
      obtain rfl : accountId = row.id := migrateRecord_id hmigrate
      cases migrated with
      | true =>
        simp only [nextCall, advance, hmigrate]
        exact .persisting hmigrate
      | false =>
        have hnext : Serves cipher key input base row
            ⟨updateWhere (·.id = row.id) (fun r => r) base, .decrypting ⟨row.id, refresh, idToken⟩, [row.id], [], []⟩ :=
          .decrypting keepsLookup_id hmigrate
        rw [hbase] at hnext
        simp only [nextCall, advance, hmigrate]
        exact hnext
  | persisting hmigrate => exact .decrypting (keepsLookup_migratedTokensRow _ _) hmigrate
  | @decrypting f refresh idToken migrated hf hmigrate =>
    cases hdecrypt : decryptRecord cipher key ⟨row.id, refresh, idToken⟩ with
    | none =>
      simp only [nextCall, advance, hdecrypt]
      exact .failed hf rfl (.inl ⟨rfl, by simp [tokensReadable, hmigrate, hdecrypt]⟩)
    | some plain =>
      obtain ⟨accountId, token, idToken'⟩ := plain
      obtain rfl : accountId = row.id := decryptRecord_id hdecrypt
      simp only [nextCall, advance, hdecrypt]
      exact .exchanging hf (migrateRecord_read hcipher hmigrate (decryptRecord_read hdecrypt))
  | @exchanging f token idToken hf hown =>
    cases hanswer : input.provider token with
    | error error =>
      simp only [nextCall, advance, hanswer]
      exact .failed hf rfl (.inr ⟨token, hown, rfl⟩)
    | ok tokens =>
      simp only [nextCall, advance, hanswer]
      exact .encrypting hf hown hanswer
  | @encrypting f token idToken tokens hf hown hanswer =>
    cases hencrypted : encryptTokens cipher key input.nonces tokens idToken with
    | none =>
      simp only [nextCall, advance, hencrypted]
      exact .failed hf rfl (.inr ⟨token, hown, rfl⟩)
    | some encrypted =>
      simp only [nextCall, advance, hencrypted]
      exact .storing hf hown hanswer hencrypted
  | @storing f token idToken tokens encrypted hf hown hanswer hencrypted =>
    have hcompose := updateWhere_updateWhere Account.id (f := refreshedRow encrypted input.now) hf.id row.id base
    cases hfound : (rowOf Account.id row.id (updateWhere (·.id = row.id) f base)).isSome with
    | true =>
      simp only [nextCall, advance, updateAccountTokens, hfound]
      exact hcompose ▸ .stored hf hown hanswer hencrypted
    | false =>
      simp only [nextCall, advance, updateAccountTokens, hfound]
      exact hcompose ▸ .failed (hf.comp_refreshedRow encrypted input.now) rfl (.inr ⟨token, hown, rfl⟩)
  | stored hf hown hanswer hencrypted => exact .stored hf hown hanswer hencrypted
  | @failed f exchanged result hf hresult hsent =>
    simp only [nextCall, advance, RefreshCall.rowsRead, RefreshCall.tokensSent, RefreshCall.rowsStored, List.append_nil]
    exact .failed hf hresult hsent

def RefreshPhase.stepsLeft : RefreshPhase → ℕ
  | .selecting => 7
  | .migrating _ => 6
  | .persisting _ => 5
  | .decrypting _ => 4
  | .exchanging _ => 3
  | .encrypting _ _ => 2
  | .storing _ _ => 1
  | .finished _ => 0

theorem stepsLeft_advance (accounts : Accounts) (phase : RefreshPhase) :
    (advance cipher chatgptAccountId key accounts input phase).2.stepsLeft ≤ phase.stepsLeft - 1 := by
  cases phase with
  | selecting =>
    simp only [advance]
    split_ifs
    · exact Nat.zero_le _
    · split
      · exact Nat.zero_le _
      · exact le_rfl
  | persisting record => exact le_rfl
  | finished result => exact le_rfl
  | storing accountId encrypted =>
    obtain ⟨result, hresult⟩ := advance_storing accountId encrypted
    rw [hresult]
    exact le_rfl
  | _ =>
    simp only [advance]
    split <;> simp [RefreshPhase.stepsLeft]

theorem stepsLeft_nextCall (n : ℕ) (call : RefreshCall) :
    ((nextCall cipher chatgptAccountId key input)^[n] call).phase.stepsLeft ≤ call.phase.stepsLeft - n := by
  induction n generalizing call with
  | zero => exact le_rfl
  | succ n ih =>
    rw [Function.iterate_succ_apply]
    have hstep : (nextCall cipher chatgptAccountId key input call).phase.stepsLeft ≤ call.phase.stepsLeft - 1 :=
      stepsLeft_advance call.accounts call.phase
    have hrest := ih (nextCall cipher chatgptAccountId key input call)
    omega

theorem refresh_finished (accounts : Accounts) :
    ∃ result, (refreshAccessTokenForAccount cipher chatgptAccountId key input accounts).phase = .finished result := by
  have hleft := @stepsLeft_nextCall cipher chatgptAccountId key input 7 { accounts := accounts }
  change (refreshAccessTokenForAccount cipher chatgptAccountId key input accounts).phase.stepsLeft ≤ 0 at hleft
  cases hphase : (refreshAccessTokenForAccount cipher chatgptAccountId key input accounts).phase with
  | finished result => exact ⟨result, rfl⟩
  | _ =>
    rw [hphase] at hleft
    simp [RefreshPhase.stepsLeft] at hleft

theorem Serves.iterate (hcipher : cipher.RoundTrips) {base : Accounts} {row : Account} (n : ℕ) {call : RefreshCall}
    (h : Serves cipher key input base row call) :
    Serves cipher key input base row ((nextCall cipher chatgptAccountId key input)^[n] call) := by
  induction n generalizing call with
  | zero => exact h
  | succ n ih =>
    rw [Function.iterate_succ_apply]
    exact ih (h.next hcipher)

theorem iterate_finished (n : ℕ) (accounts : Accounts) (result : RefreshAccessTokenResult) :
    (nextCall cipher chatgptAccountId key input)^[n] { accounts := accounts, phase := .finished result } =
      { accounts := accounts, phase := .finished result } := Function.iterate_fixed rfl n

theorem refresh_cases (hcipher : cipher.RoundTrips) (accounts : Accounts) :
    (∃ row, accounts.find? (hasActiveChatgptId (cstr chatgptAccountId)) = some row ∧
      Serves cipher key input accounts row (refreshAccessTokenForAccount cipher chatgptAccountId key input accounts)) ∨
    (chatgptAccountId = [] ∨ selectActiveAccount accounts chatgptAccountId = none) ∧
      ∃ result : RefreshAccessTokenResult, result.refreshed = false ∧
        refreshAccessTokenForAccount cipher chatgptAccountId key input accounts =
          { accounts := accounts, phase := .finished result } := by
  rw [refreshAccessTokenForAccount, Function.iterate_succ_apply]
  by_cases hempty : chatgptAccountId = []
  · right
    refine ⟨.inl hempty, refreshFailure "invalid_account" "chatgpt-account-id is required", rfl, ?_⟩
    simp only [nextCall, advance, hempty, if_true]
    exact iterate_finished 6 accounts _
  · cases hselect : selectActiveAccount accounts chatgptAccountId with
    | none =>
      right
      refine ⟨.inr rfl, accountNotFound, rfl, ?_⟩
      simp only [nextCall, advance, hempty, hselect, if_false]
      exact iterate_finished 6 accounts _
    | some record =>
      left
      obtain ⟨row, hfind, _, rfl⟩ := selectActiveAccount_some hselect
      refine ⟨row, hfind, ?_⟩
      apply Serves.iterate hcipher 6
      simp only [nextCall, advance, hempty, hselect, if_false]
      exact .migrating

structure Served (cipher : TokenCipher) (key : SessionKey) (input : RefreshInput) (base : Accounts) (row : Account)
    (call : RefreshCall) : Prop where
  read : call.read = [row.id]
  accounts : ∃ f, KeepsLookup f ∧ call.accounts = updateWhere (·.id = row.id) f base
  sent : call.exchanged = [] ∧ tokensReadable cipher key input.nonces row = false ∨
    ∃ token, ownRefreshToken cipher key row = some token ∧ call.exchanged = [(row.id, token)]
  refreshed : call.refreshed = true → call.stored = [row.id] ∧
    ∃ f token idToken tokens encrypted, KeepsLookup f ∧ ownRefreshToken cipher key row = some token ∧
      call.exchanged = [(row.id, token)] ∧ input.provider token = .ok tokens ∧
      encryptTokens cipher key input.nonces tokens idToken = some encrypted ∧
      call.accounts = updateWhere (·.id = row.id) (fun r => refreshedRow encrypted input.now (f r)) base

theorem Serves.outcome {base : Accounts} {row : Account} {call : RefreshCall}
    (h : Serves cipher key input base row call) {result : RefreshAccessTokenResult}
    (hphase : call.phase = .finished result) :
    Served cipher key input base row call := by
  cases h with
  | @stored f token idToken tokens encrypted hf hown hanswer hencrypted =>
    exact ⟨rfl, ⟨_, hf.comp_refreshedRow encrypted input.now, rfl⟩, .inr ⟨token, hown, rfl⟩,
      fun _ => ⟨rfl, f, token, idToken, tokens, encrypted, hf, hown, rfl, hanswer, hencrypted, rfl⟩⟩
  | @failed f exchanged result hf hresult hsent =>
    refine ⟨rfl, ⟨f, hf, rfl⟩, hsent, ?_⟩
    intro hrefreshed
    exact absurd hrefreshed (by simp [RefreshCall.refreshed, hresult])
  | _ => cases hphase

end Calls

end Tightrope.Auth.Oauth
