import Mathlib.Data.List.Nodup
import Tightrope.Proxy.Session.AccountRouting

namespace Tightrope.Proxy.Session

open Auth.Crypto Bytes Tightrope.Core Db RowTable

def accountIsInActiveLockPool (settings : RoutingSettings) (accountId : Bytes) : Bool :=
  let normalizedId := trimAscii accountId
  let lockedAccountIds := parseLockedRoutingAccountIds settings.lockedRoutingAccountIds
  if normalizedId = [] then false
  else if lockedAccountIds.length < 2 then false
  else normalizedId ∈ lockedAccountIds

section Reads

variable (cipher : TokenCipher) (call : ResolveCall)

theorem normalizeStoredAccessToken_snd (accounts accounts' : Accounts) (internalAccountId : ℤ) (stored : Bytes) :
    (normalizeStoredAccessToken cipher call accounts internalAccountId stored).2 =
      (normalizeStoredAccessToken cipher call accounts' internalAccountId stored).2 := by
  unfold normalizeStoredAccessToken
  split
  · rfl
  · rfl
  · split_ifs
    · rfl
    · rfl

theorem readCredentialsRow_snd (accounts accounts' : Accounts) (row : Account) :
    (readCredentialsRow cipher call accounts row).2 = (readCredentialsRow cipher call accounts' row).2 := by
  unfold readCredentialsRow
  split_ifs with hnull
  · rfl
  · have hstored := normalizeStoredAccessToken_snd cipher call accounts accounts' row.id
      (trimAscii (textOrEmpty row.accessTokenEncrypted))
    cases hfirst : normalizeStoredAccessToken cipher call accounts row.id
        (trimAscii (textOrEmpty row.accessTokenEncrypted)) with
    | mk rest stored =>
      cases hsecond : normalizeStoredAccessToken cipher call accounts' row.id
          (trimAscii (textOrEmpty row.accessTokenEncrypted)) with
      | mk rest' stored' =>
        rw [hfirst, hsecond] at hstored
        obtain rfl : stored = stored' := hstored
        cases stored with
        | none => rfl
        | some stored =>
          dsimp only
          split
          · rfl
          · split_ifs
            · rfl
            · rfl

def Offered (row : Account) : Prop := isRoutable row = true ∧ (readCredentialsRow cipher call [] row).2.isSome = true

theorem trimmedId_of_offered {row : Account} (h : Offered cipher call row) : trimmedId row ≠ [] := by
  obtain ⟨credentials, hread⟩ := Option.isSome_iff_exists.mp h.2
  obtain ⟨hid, hne⟩ := (readCredentialsRow_spec cipher call [] row).2 credentials hread
  rwa [← hid]

theorem internalAccountId_of_read {accounts : Accounts} {row : Account} {credentials : UpstreamAccountCredentials}
    (h : (readCredentialsRow cipher call accounts row).2 = some credentials) :
    credentials.internalAccountId = row.id := by
  unfold readCredentialsRow at h
  split_ifs at h
  dsimp only at h
  split at h
  · cases h
  · split at h
    · cases h
    · split_ifs at h
      cases h
      rfl

theorem migrated_decrypts (hcipher : cipher.RoundTrips) {nonce stored value : Bytes}
    (h : migratePlaintextTokenForStorage cipher call.key nonce stored = some (value, true)) :
    stored ≠ [] ∧ decryptTokenFromStorage cipher call.key value = some stored := by
  unfold migratePlaintextTokenForStorage at h
  split_ifs at h with hkept
  · cases h
  obtain ⟨hne, hplain⟩ := not_or.mp hkept
  obtain ⟨encrypted, hencrypted, heq⟩ := Option.map_eq_some_iff.mp h
  obtain ⟨rfl, hnew⟩ := Prod.mk.inj heq
  rw [Bool.and_eq_true, decide_eq_true_eq] at hnew
  cases hkey : call.key with
  | none =>
    rw [hkey] at hencrypted
    cases hencrypted
    exact absurd rfl hnew.2
  | some key =>
    rw [hkey] at hencrypted
    exact ⟨hne, decryptTokenFromStorage_encrypt hcipher hencrypted⟩

theorem normalizeStoredAccessToken_cases (hcipher : cipher.RoundTrips) (accounts : Accounts) (internalAccountId : ℤ)
    (stored : Bytes) :
    (normalizeStoredAccessToken cipher call accounts internalAccountId stored).1 = accounts ∨
      ∃ value, normalizeStoredAccessToken cipher call accounts internalAccountId stored =
          (updateWhere (·.id = internalAccountId) (persistedTokenRow value call.stamp) accounts, some value) ∧
        stored ≠ [] ∧ decryptTokenFromStorage cipher call.key value = some stored := by
  unfold normalizeStoredAccessToken
  split
  · exact .inl rfl
  · exact .inl rfl
  · rename_i value hmigrated
    split_ifs
    · exact .inl rfl
    · exact .inr ⟨value, rfl, migrated_decrypts cipher call hcipher hmigrated⟩

theorem readCredentialsRow_fst (hcipher : cipher.RoundTrips) (accounts : Accounts) (row : Account) :
    (readCredentialsRow cipher call accounts row).1 = accounts ∨
      ∃ value, (readCredentialsRow cipher call accounts row).1 =
          updateWhere (·.id = row.id) (persistedTokenRow value call.stamp) accounts ∧
        (trimmedId row ≠ [] → (readCredentialsRow cipher call accounts row).2.isSome = true) := by
  unfold readCredentialsRow
  split_ifs with hnull
  · exact .inl rfl
  obtain hkept | ⟨value, hstored, hne, hdecrypts⟩ :=
    normalizeStoredAccessToken_cases cipher call hcipher accounts row.id
    (trimAscii (textOrEmpty row.accessTokenEncrypted))
  · left
    cases hstored : normalizeStoredAccessToken cipher call accounts row.id
        (trimAscii (textOrEmpty row.accessTokenEncrypted)) with
    | mk rest stored =>
      rw [hstored] at hkept
      cases stored with
      | none => exact hkept
      | some stored =>
        dsimp only
        split
        · exact hkept
        · split_ifs
          · exact hkept
          · exact hkept
  · right
    rw [hstored]
    simp only [hdecrypts, Option.map_some, trimAscii_trimAscii]
    by_cases hid : trimAscii (textOrEmpty row.chatgptAccountId) = []
    · rw [if_pos (.inl hid)]
      exact ⟨value, rfl, fun h => absurd hid h⟩
    · rw [if_neg (not_or.mpr ⟨hid, hne⟩)]
      exact ⟨value, rfl, fun _ => rfl⟩

end Reads

section Sourced

variable {cipher : TokenCipher} {call : ResolveCall} {base accounts : Accounts} {row : Account}
  {credentials : UpstreamAccountCredentials}

def KnownRow (cipher : TokenCipher) (call : ResolveCall) (base : Accounts) (row : Account) : Prop :=
  ∃ origin ∈ base, origin.id = row.id ∧ trimmedId origin = trimmedId row ∧
    (Offered cipher call row → Offered cipher call origin)

def Known (cipher : TokenCipher) (call : ResolveCall) (base accounts : Accounts) : Prop :=
  ∀ row ∈ accounts, KnownRow cipher call base row

def From (cipher : TokenCipher) (call : ResolveCall) (base : Accounts) (credentials : UpstreamAccountCredentials) :
    Prop :=
  ∃ origin ∈ base, Offered cipher call origin ∧ trimmedId origin = credentials.accountId ∧
    origin.id = credentials.internalAccountId

theorem known_self (base : Accounts) : Known cipher call base base :=
  fun row hrow => ⟨row, hrow, rfl, rfl, id⟩

theorem known_read (hcipher : cipher.RoundTrips) (hids : (base.map Account.id).Nodup)
    (hrow : KnownRow cipher call base row) (hroutable : isRoutable row = true) (h : Known cipher call base accounts) :
    Known cipher call base (readCredentialsRow cipher call accounts row).1 := by
  obtain hsame | ⟨value, hwritten, hread⟩ := readCredentialsRow_fst cipher call hcipher accounts row
  · rwa [hsame]
  rw [hwritten]
  intro written hmem
  obtain ⟨old, hold, rfl⟩ := mem_updateWhere.mp hmem
  by_cases hid : old.id = row.id
  · rw [setWhere_of_pos (by simpa using hid)]
    obtain ⟨origin, horigin, hsameId, htrimmed, -⟩ := h old hold
    obtain ⟨source, hsource, hsourceId, hsourceTrimmed, hoffered⟩ := hrow
    obtain rfl : origin = source :=
      List.inj_on_of_nodup_map hids horigin hsource (hsameId.trans (hid.trans hsourceId.symm))
    refine ⟨origin, horigin, hsameId, htrimmed, fun hwrittenOffered => hoffered ⟨hroutable, ?_⟩⟩
    have hne : trimmedId (persistedTokenRow value call.stamp old) ≠ [] :=
        trimmedId_of_offered cipher call hwrittenOffered
    change trimmedId old ≠ [] at hne
    rw [readCredentialsRow_snd cipher call [] accounts]
    exact hread (by rwa [← hsourceTrimmed, htrimmed])
  · rw [setWhere_of_neg (by simpa using hid)]
    exact h old hold

theorem from_read (hrow : KnownRow cipher call base row) (hroutable : isRoutable row = true)
    (h : (readCredentialsRow cipher call accounts row).2 = some credentials) : From cipher call base credentials := by
  obtain ⟨origin, horigin, hid, htrimmed, hoffered⟩ := hrow
  obtain ⟨haccount, -⟩ := (readCredentialsRow_spec cipher call accounts row).2 credentials h
  refine ⟨origin, horigin, hoffered ⟨hroutable, ?_⟩, ?_, ?_⟩
  · rw [readCredentialsRow_snd cipher call [] accounts, h]
    rfl
  · rw [htrimmed, haccount]
  · rw [hid, internalAccountId_of_read cipher call h]

def Sourced (cipher : TokenCipher) (call : ResolveCall) (base : Accounts)
    (route : Accounts → Accounts × Option UpstreamAccountCredentials) : Prop :=
  ∀ accounts, Known cipher call base accounts → Known cipher call base (route accounts).1 ∧
    ∀ credentials, (route accounts).2 = some credentials → From cipher call base credentials

theorem readFirst_sourced (hcipher : cipher.RoundTrips) (hids : (base.map Account.id).Nodup)
    {find : Accounts → Option Account}
    (hfind : ∀ accounts row, find accounts = some row → row ∈ accounts ∧ isRoutable row = true) :
    Sourced cipher call base fun accounts => readFirst cipher call accounts (find accounts) := by
  intro accounts h
  cases hrow : find accounts with
  | none =>
    simp only [readFirst, hrow]
    exact ⟨h, fun _ hnone => by cases hnone⟩
  | some row =>
    obtain ⟨hmem, hroutable⟩ := hfind accounts row hrow
    simp only [readFirst, hrow]
    exact ⟨known_read hcipher hids (h row hmem) hroutable h, fun credentials => from_read (h row hmem) hroutable⟩

theorem queryPreferred_sourced (hcipher : cipher.RoundTrips) (hids : (base.map Account.id).Nodup) :
    Sourced cipher call base (queryPreferredCredentials cipher call) := by
  apply yields_queryPreferred
  · exact readFirst_sourced hcipher hids fun accounts row hrow => routable_of_find? hrow
  · intro accountId
    exact readFirst_sourced hcipher hids fun accounts row hrow => routable_of_find? hrow

theorem known_readCandidates (hcipher : cipher.RoundTrips) (hids : (base.map Account.id).Nodup) {rows : List Account}
    (hrows : ∀ row ∈ rows, KnownRow cipher call base row ∧ isRoutable row = true)
    (h : Known cipher call base accounts) :
    Known cipher call base (readCandidates cipher call rows accounts).1 := by
  induction rows generalizing accounts with
  | nil => exact h
  | cons row rows ih =>
    obtain ⟨⟨hrow, hroutable⟩, hrest⟩ := List.forall_mem_cons.mp hrows
    have hread := known_read hcipher hids hrow hroutable h
    cases hcredentials : readCredentialsRow cipher call accounts row with
    | mk accounts' credentials =>
      rw [hcredentials] at hread
      cases credentials with
      | none =>
        simp only [readCandidates, hcredentials]
        exact ih hrest hread
      | some credentials =>
        simp only [readCandidates, hcredentials]
        exact ih hrest hread

theorem mem_readCandidates {rows : List Account} {candidate : RoutedCredentialCandidate} :
    candidate ∈ (readCandidates cipher call rows accounts).2 ↔
      ∃ row ∈ rows, ∃ credentials, (readCredentialsRow cipher call [] row).2 = some credentials ∧
        candidate = candidateOf credentials row := by
  induction rows generalizing accounts with
  | nil => simp [readCandidates]
  | cons row rows ih =>
    have hsame := readCredentialsRow_snd cipher call [] accounts row
    have hcons : (∃ other ∈ row :: rows, ∃ credentials, (readCredentialsRow cipher call [] other).2 = some credentials ∧
        candidate = candidateOf credentials other) ↔
        (∃ credentials, (readCredentialsRow cipher call [] row).2 = some credentials ∧
          candidate = candidateOf credentials row) ∨ candidate ∈ (readCandidates cipher call rows
            (readCredentialsRow cipher call accounts row).1).2 := by
      rw [ih]
      simp only [List.mem_cons, or_and_right, exists_or, exists_eq_left]
    rw [hcons, hsame]
    cases hcredentials : readCredentialsRow cipher call accounts row with
    | mk accounts' credentials =>
      cases credentials with
      | none => simp [readCandidates, hcredentials]
      | some credentials => simp [readCandidates, hcredentials]

theorem mem_rankedCandidates (hactive : lockPoolActive call = true) {candidates : List RoutedCredentialCandidate}
    {candidate : RoutedCredentialCandidate} :
    candidate ∈ rankedCandidates call candidates ↔
      candidate ∈ candidates ∧ lockPoolContains (lockedAccountIds call) candidate.credentials = true := by
  rw [rankedCandidates, if_pos hactive, maybePreferEarlierResetAccounts]
  split_ifs
  · rw [List.mem_mergeSort, List.mem_filter]
  · rw [List.mem_filter]

theorem selectStrategy_sourced (hactive : lockPoolActive call = true) (hcipher : cipher.RoundTrips)
    (hids : (base.map Account.id).Nodup) : Sourced cipher call base (selectStrategyCredentials cipher call) := by
  intro accounts h
  have hrows : ∀ row ∈ (accounts.mergeSort laterFirst).filter isRoutable,
      KnownRow cipher call base row ∧ isRoutable row = true := by
    intro row hrow
    obtain ⟨hmem, hroutable⟩ := List.mem_filter.mp hrow
    exact ⟨h row (List.mem_mergeSort.mp hmem), hroutable⟩
  have hknown := known_readCandidates hcipher hids hrows h
  rw [selectStrategyCredentials]
  split_ifs
  · exact ⟨hknown, fun _ hnone => by cases hnone⟩
  · refine ⟨hknown, ?_⟩
    intro credentials hcredentials
    obtain ⟨candidate, hpicked, rfl⟩ := Option.map_eq_some_iff.mp hcredentials
    obtain ⟨index, _, hindex⟩ := Option.bind_eq_some_iff.mp hpicked
    obtain ⟨hmem, -⟩ := (mem_rankedCandidates hactive).mp (List.mem_of_getElem? hindex)
    obtain ⟨row, hrow, credentials, hread, rfl⟩ := mem_readCandidates.mp hmem
    exact from_read (hrows row hrow).1 (hrows row hrow).2 hread

end Sourced

section Guarded

variable {cipher : TokenCipher} {call : ResolveCall}

def Guarded (call : ResolveCall) (route : Accounts → Accounts × Option UpstreamAccountCredentials) : Prop :=
  ∀ accounts credentials, (route accounts).2 = some credentials →
    lockPoolContains (lockedAccountIds call) credentials = true

theorem guard_guarded (hactive : lockPoolActive call = true)
    (route : Accounts → Accounts × Option UpstreamAccountCredentials) :
    Guarded call fun accounts => guardLockPoolSelection call (route accounts) := by
  intro accounts credentials hcredentials
  have hguard := (Option.filter_eq_some_iff.mp hcredentials).2
  simpa [hactive] using hguard

theorem selectPreferred_guarded (hactive : lockPoolActive call = true) :
    Guarded call (selectPreferredCredentials cipher call) := by
  intro accounts credentials hcredentials
  rw [selectPreferredCredentials] at hcredentials
  split_ifs at hcredentials
  dsimp only at hcredentials
  split_ifs at hcredentials
  exact guard_guarded hactive (queryPreferredCredentials cipher call) accounts credentials hcredentials

theorem firstOf_guarded {routes : List (Accounts → Accounts × Option UpstreamAccountCredentials)}
    (h : ∀ route ∈ routes, Guarded call route) : Guarded call (firstOf routes) := by
  have hyields : ∀ route ∈ routes, Yields (fun _ => True)
      (fun credentials => lockPoolContains (lockedAccountIds call) credentials = true) route :=
    fun route hroute accounts _ => ⟨trivial, h route hroute accounts⟩
  intro accounts
  exact (yields_firstOf hyields accounts trivial).2

theorem routes_locked (hactive : lockPoolActive call = true) :
    routes cipher call =
      if call.strictPreferredOnly then [selectPreferredCredentials cipher call]
      else [selectPreferredCredentials cipher call, fun accounts =>
        guardLockPoolSelection call (selectStrategyCredentials cipher call accounts)] := by
  rw [routes, if_pos hactive]

theorem routes_guarded (hactive : lockPoolActive call = true) : ∀ route ∈ routes cipher call, Guarded call route := by
  rw [routes_locked hactive]
  split_ifs
  · simpa using selectPreferred_guarded hactive
  · simpa using ⟨selectPreferred_guarded hactive, guard_guarded hactive (selectStrategyCredentials cipher call)⟩

theorem routes_sourced {base : Accounts} (hactive : lockPoolActive call = true) (hcipher : cipher.RoundTrips)
    (hids : (base.map Account.id).Nodup) : ∀ route ∈ routes cipher call, Sourced cipher call base route := by
  rw [routes_locked hactive]
  have hpreferred : Sourced cipher call base (selectPreferredCredentials cipher call) :=
    yields_selectPreferred (queryPreferred_sourced hcipher hids)
  have hstrategy : Sourced cipher call base fun accounts =>
      guardLockPoolSelection call (selectStrategyCredentials cipher call accounts) :=
    yields_guard (selectStrategy_sourced hactive hcipher hids)
  split_ifs
  · simpa using hpreferred
  · simpa using ⟨hpreferred, hstrategy⟩

end Guarded

section Result

variable {cipher : TokenCipher} {call : ResolveCall} {accounts : Accounts} {credentials : UpstreamAccountCredentials}

/-- An active account below its quotas that the lock names, and that is recognised by the id it is given out under. -/
structure LockedAccount (settings : RoutingSettings) (accounts : Accounts) (credentials : UpstreamAccountCredentials) :
    Prop where
  active : ∃ row ∈ accounts, row.status = Db.active ∧ withinQuota row = true ∧ trimmedId row = credentials.accountId ∧
    row.id = credentials.internalAccountId
  named : lockPoolContains (parseLockedRoutingAccountIds settings.lockedRoutingAccountIds) credentials = true
  recognised : accountIsInActiveLockPool settings credentials.accountId = true

/-- The accounts that can be given out are locked by their own ids wherever they are locked by number. -/
def OwnIdsLocked (cipher : TokenCipher) (call : ResolveCall) (accounts : Accounts) : Prop :=
  ∀ row ∈ accounts, Offered cipher call row → 0 < row.id → decimal row.id.toNat ∈ lockedAccountIds call →
    trimmedId row ∈ lockedAccountIds call

theorem accountIsInActiveLockPool_iff (hactive : lockPoolActive call = true) {accountId : Bytes}
    (hne : accountId ≠ []) (htrim : trimAscii accountId = accountId) :
    accountIsInActiveLockPool call.settings accountId = true ↔ accountId ∈ lockedAccountIds call := by
  have hlength : ¬ (parseLockedRoutingAccountIds call.settings.lockedRoutingAccountIds).length < 2 :=
    Nat.not_lt.mpr (of_decide_eq_true hactive)
  rw [accountIsInActiveLockPool, htrim, if_neg hne, if_neg hlength, decide_eq_true_eq]
  rfl

theorem lockedAccount_of_resolve (hcipher : cipher.RoundTrips) (hids : (accounts.map Account.id).Nodup)
    (hactive : lockPoolActive call = true)
    (hlocked : OwnIdsLocked cipher call (recoverExpiredAccountLimitBlocks accounts call.now call.stamp))
    (h : (resolveUpstreamAccountCredentials cipher call accounts).2 = some credentials) :
    LockedAccount call.settings (recoverExpiredAccountLimitBlocks accounts call.now call.stamp) credentials := by
  have hrecovered : ((recoverExpiredAccountLimitBlocks accounts call.now call.stamp).map Account.id).Nodup := by
    unfold recoverExpiredAccountLimitBlocks
    split_ifs
    · exact hids
    · rwa [map_field_updateWhere (f := recoveredRow call.now call.stamp) fun _ => rfl]
  have hnamed := firstOf_guarded (@routes_guarded cipher call hactive) _ credentials h
  obtain ⟨row, hrow, hoffered, hid, hinternal⟩ :=
    (yields_firstOf (routes_sourced hactive hcipher hrecovered) _ (known_self _)).2 credentials h
  obtain ⟨hstatus, hquota⟩ := isRoutable_selectable hoffered.1
  have hne : credentials.accountId ≠ [] := hid ▸ trimmedId_of_offered cipher call hoffered
  have htrim : trimAscii credentials.accountId = credentials.accountId := by rw [← hid, trimmedId, trimAscii_trimAscii]
  refine ⟨⟨row, hrow, hstatus, hquota, hid, hinternal⟩, hnamed, ?_⟩
  rw [accountIsInActiveLockPool_iff hactive hne htrim, ← hid]
  rw [lockPoolContains, Bool.or_eq_true, Bool.and_eq_true, decide_eq_true_eq, decide_eq_true_eq, decide_eq_true_eq,
    ← hid, ← hinternal] at hnamed
  obtain hown | ⟨hpositive, hnumber⟩ := hnamed
  · exact hown
  · exact hlocked row hrow hoffered hpositive hnumber

theorem firstOf_cons_of_none {route : Accounts → Accounts × Option UpstreamAccountCredentials}
    {routes : List (Accounts → Accounts × Option UpstreamAccountCredentials)} {after : Accounts}
    (h : route accounts = (after, none)) : firstOf (route :: routes) accounts = firstOf routes after := by
  rw [firstOf, h]

theorem firstOf_singleton (route : Accounts → Accounts × Option UpstreamAccountCredentials) :
    (firstOf [route] accounts).2 = (route accounts).2 := by
  rw [firstOf]
  cases hroute : route accounts with
  | mk after found =>
    cases found with
    | none => rfl
    | some found => rfl

def drawing (call : ResolveCall) (candidate : RoutedCredentialCandidate) : ResolveCall :=
  { call with
    preferredAccountId := []
    strictPreferredOnly := false
    pick := fun candidates => some (candidates.idxOf candidate) }

theorem resolve_drawing (hactive : lockPoolActive call = true) {row : Account}
    (hrow : row ∈ recoverExpiredAccountLimitBlocks accounts call.now call.stamp) (hroutable : isRoutable row = true)
    (hread : (readCredentialsRow cipher call [] row).2 = some credentials)
    (hnamed : lockPoolContains (lockedAccountIds call) credentials = true) :
    (resolveUpstreamAccountCredentials cipher (drawing call (candidateOf credentials row)) accounts).2 =
      some credentials := by
  let recovered := recoverExpiredAccountLimitBlocks accounts call.now call.stamp
  let drawn := drawing call (candidateOf credentials row)
  have hdrawn : lockPoolActive drawn = true := hactive
  have hmem : candidateOf credentials row ∈
      rankedCandidates drawn (queryRoutedAccountCandidates cipher drawn recovered).2 := by
    rw [mem_rankedCandidates hdrawn]
    refine ⟨mem_readCandidates.mpr ⟨row, ?_, credentials, hread, rfl⟩, hnamed⟩
    exact List.mem_filter.mpr ⟨List.mem_mergeSort.mpr hrow, hroutable⟩
  have hstrategy : (selectStrategyCredentials cipher drawn recovered).2 = some credentials := by
    have hpick : drawn.pick (rankedCandidates drawn (queryRoutedAccountCandidates cipher drawn recovered).2) =
        some (List.idxOf (candidateOf credentials row)
          (rankedCandidates drawn (queryRoutedAccountCandidates cipher drawn recovered).2)) := rfl
    rw [selectStrategyCredentials, if_neg (List.ne_nil_of_mem hmem)]
    dsimp only
    rw [hpick, Option.bind_some, List.getElem?_idxOf hmem, Option.map_some]
    rfl
  have hpreferred : selectPreferredCredentials cipher drawn recovered = (recovered, none) := by
    rw [selectPreferredCredentials, if_pos]
    rfl
  have hguarded : (guardLockPoolSelection drawn (selectStrategyCredentials cipher drawn recovered)).2 =
      some credentials := by
    rw [guardLockPoolSelection, hstrategy, Option.filter_some, if_pos]
    rw [Bool.or_eq_true]
    exact .inr hnamed
  have hstrict : ¬ drawn.strictPreferredOnly = true := Bool.false_ne_true
  rw [resolveUpstreamAccountCredentials, routes_locked hdrawn, if_neg hstrict]
  change (firstOf [selectPreferredCredentials cipher drawn, fun accounts =>
    guardLockPoolSelection drawn (selectStrategyCredentials cipher drawn accounts)] recovered).2 = some credentials
  rw [firstOf_cons_of_none hpreferred, firstOf_singleton]
  exact hguarded

/-- Routing stays in the locked pool and is recognised there by every call, exactly when no account that can be given
out is locked by its number alone. -/
theorem lock_pool_closed_iff (hcipher : cipher.RoundTrips) (hids : (accounts.map Account.id).Nodup)
    (hactive : lockPoolActive call = true) :
    (∀ preferredAccountId strictPreferredOnly pick credentials,
      (resolveUpstreamAccountCredentials cipher
        { call with preferredAccountId, strictPreferredOnly, pick } accounts).2 = some credentials →
      LockedAccount call.settings (recoverExpiredAccountLimitBlocks accounts call.now call.stamp) credentials) ↔
      OwnIdsLocked cipher call (recoverExpiredAccountLimitBlocks accounts call.now call.stamp) := by
  constructor
  · intro h row hrow hoffered hpositive hnumber
    obtain ⟨credentials, hread⟩ := Option.isSome_iff_exists.mp hoffered.2
    obtain ⟨hid, hne⟩ := (readCredentialsRow_spec cipher call [] row).2 credentials hread
    have hinternal := internalAccountId_of_read cipher call hread
    have hnamed : lockPoolContains (lockedAccountIds call) credentials = true := by
      rw [lockPoolContains, hinternal, decide_eq_true hpositive, decide_eq_true hnumber, Bool.and_true, Bool.or_true]
    have hlocked := h _ _ _ credentials (resolve_drawing hactive hrow hoffered.1 hread hnamed)
    have htrim : trimAscii credentials.accountId = credentials.accountId := by rw [hid, trimmedId, trimAscii_trimAscii]
    rw [← hid]
    exact (accountIsInActiveLockPool_iff hactive hne htrim).mp hlocked.recognised
  · intro h preferredAccountId strictPreferredOnly pick credentials hresolved
    exact @lockedAccount_of_resolve cipher { call with preferredAccountId, strictPreferredOnly, pick } accounts
      credentials hcipher hids hactive h hresolved

end Result

section Sample

def markingCipher : TokenCipher := ⟨id, fun plaintext _ _ => some (0 :: plaintext), fun stored _ => some stored.tail⟩

theorem markingCipher_roundTrips : markingCipher.RoundTrips := by
  constructor
  intro plaintext key nonce encrypted h
  cases h
  exact ⟨List.cons_ne_nil _ _, rfl⟩

def lockedRow : Account :=
  { id := 1
    chatgptAccountId := some (ofString "acc")
    accessTokenEncrypted := some (ofString "token")
    status := active }

def askLocked (locked : String) : ResolveCall :=
  { preferredAccountId := ofString "1"
    strictPreferredOnly := true
    settings := { lockedRoutingAccountIds := ofString locked }
    now := 0 }

theorem account_locked_by_both_ids :
    LockedAccount (askLocked "acc,1").settings [lockedRow] ⟨ofString "acc", ofString "token", 1⟩ := by
  have hown : OwnIdsLocked markingCipher (askLocked "acc,1") [lockedRow] := by
    intro row hrow _ _ _
    obtain rfl := List.mem_singleton.mp hrow
    decide +kernel
  exact (lock_pool_closed_iff markingCipher_roundTrips (by decide) (by decide +kernel)).mpr hown (ofString "1") true
    (fun _ => none) ⟨ofString "acc", ofString "token", 1⟩ (by decide +kernel)

theorem account_locked_by_number_is_not_recognised :
    lockPoolActive (askLocked "1,2") = true ∧
      (resolveUpstreamAccountCredentials markingCipher (askLocked "1,2") [lockedRow]).2 =
        some ⟨ofString "acc", ofString "token", 1⟩ ∧
      accountIsInActiveLockPool (askLocked "1,2").settings (ofString "acc") = false := by
  decide +kernel

end Sample

end Tightrope.Proxy.Session
