import Tightrope.Auth.Crypto.TokenStore
import Tightrope.Proxy.Session.AccountMarks

namespace Tightrope.Proxy.Session

open Auth.Crypto Bytes Tightrope.Core Db RowTable

structure UpstreamAccountCredentials where
  accountId : Bytes
  accessToken : Bytes
  internalAccountId : ℤ
  deriving DecidableEq, Repr

structure RoutedCredentialCandidate where
  credentials : UpstreamAccountCredentials
  quotaPrimaryPercent : Option ℤ
  quotaSecondaryPercent : Option ℤ
  planType : Option Bytes
  quotaPrimaryResetAtMs : Option ℤ
  quotaSecondaryResetAtMs : Option ℤ
  deriving DecidableEq, Repr

structure RoutingSettings where
  lockedRoutingAccountIds : Bytes := []
  preferEarlierResetAccounts : Bool := false
  deriving DecidableEq, Repr

structure ResolveCall where
  preferredAccountId : Bytes := []
  strictPreferredOnly : Bool := false
  settings : RoutingSettings := {}
  pick : List RoutedCredentialCandidate → Option ℕ := fun _ => none
  key : SessionKey := none
  nonce : ℤ → Bytes := fun _ => []
  now : ℤ
  stamp : Bytes := []

def isRoutable (row : Account) : Bool :=
  row.status = active && withinQuota row && (row.chatgptAccountId.any fun raw => sqlTrim raw ≠ []) &&
    (row.accessTokenEncrypted.any fun token => cstr token ≠ [])

-- `ORDER BY updated_at DESC, id DESC`
def laterFirst (a b : Account) : Bool := b.updatedAt < a.updatedAt || (a.updatedAt = b.updatedAt && b.id ≤ a.id)

section Queries

variable (cipher : TokenCipher) (call : ResolveCall)

def persistedTokenRow (stored stamp : Bytes) (row : Account) : Account :=
  { row with accessTokenEncrypted := some (cstr stored), updatedAt := stamp }

def normalizeStoredAccessToken (accounts : Accounts) (internalAccountId : ℤ) (stored : Bytes) :
    Accounts × Option Bytes :=
  match migratePlaintextTokenForStorage cipher call.key (call.nonce internalAccountId) stored with
  | none => (accounts, none)
  | some (value, false) => (accounts, some value)
  | some (value, true) =>
    if internalAccountId ≤ 0 ∨ value = [] then (accounts, none)
    else (updateWhere (·.id = internalAccountId) (persistedTokenRow value call.stamp) accounts, some value)

def readCredentialsRow (accounts : Accounts) (row : Account) : Accounts × Option UpstreamAccountCredentials :=
  if row.chatgptAccountId.isNone ∨ row.accessTokenEncrypted.isNone then (accounts, none)
  else
    let accountId := trimAscii (textOrEmpty row.chatgptAccountId)
    match normalizeStoredAccessToken cipher call accounts row.id (trimAscii (textOrEmpty row.accessTokenEncrypted)) with
    | (accounts, none) => (accounts, none)
    | (accounts, some stored) =>
      match (decryptTokenFromStorage cipher call.key stored).map trimAscii with
      | none => (accounts, none)
      | some accessToken =>
        if accountId = [] ∨ accessToken = [] then (accounts, none)
          else (accounts, some ⟨accountId, accessToken, row.id⟩)

def readFirst (accounts : Accounts) (row : Option Account) : Accounts × Option UpstreamAccountCredentials :=
  match row with
  | none => (accounts, none)
  | some row => readCredentialsRow cipher call accounts row

def queryExactAccountCredentials (accountId : Bytes) (accounts : Accounts) :
    Accounts × Option UpstreamAccountCredentials :=
  readFirst cipher call accounts (accounts.find? fun row => isRoutable row && hasChatgptId (cstr accountId) row)

def queryInternalAccountCredentials (accountId : ℤ) (accounts : Accounts) :
    Accounts × Option UpstreamAccountCredentials :=
  readFirst cipher call accounts (accounts.find? fun row => isRoutable row && row.id = accountId)

def queryLatestActiveAccountCredentials (accounts : Accounts) : Accounts × Option UpstreamAccountCredentials :=
  readFirst cipher call accounts ((accounts.mergeSort laterFirst).find? isRoutable)

def queryPinnedAccountCredentials (accounts : Accounts) : Accounts × Option UpstreamAccountCredentials :=
  readFirst cipher call accounts ((accounts.mergeSort laterFirst).find? fun row => row.routingPinned && isRoutable row)

def optionalText (text : Option Bytes) : Option Bytes := (text.map fun raw => trimAscii (cstr raw)).filter (· ≠ [])

def candidateOf (credentials : UpstreamAccountCredentials) (row : Account) : RoutedCredentialCandidate :=
  { credentials := credentials
    quotaPrimaryPercent := row.quotaPrimaryPercent
    quotaSecondaryPercent := row.quotaSecondaryPercent
    planType := optionalText row.planType
    quotaPrimaryResetAtMs := row.quotaPrimaryResetAtMs
    quotaSecondaryResetAtMs := row.quotaSecondaryResetAtMs }

def readCandidates : List Account → Accounts → Accounts × List RoutedCredentialCandidate
  | [], accounts => (accounts, [])
  | row :: rows, accounts =>
    match readCredentialsRow cipher call accounts row with
    | (accounts, none) => readCandidates rows accounts
    | (accounts, some credentials) =>
      let (accounts, candidates) := readCandidates rows accounts
      (accounts, candidateOf credentials row :: candidates)

def queryRoutedAccountCandidates (accounts : Accounts) : Accounts × List RoutedCredentialCandidate :=
  readCandidates cipher call ((accounts.mergeSort laterFirst).filter isRoutable) accounts

end Queries

section Resolve

def parseLockedRoutingAccountIds (raw : Bytes) : List Bytes :=
  ((((trimAscii raw).splitOn 44).map trimAscii).filter (· ≠ [])).eraseDups

def lockPoolContains (locked : List Bytes) (credentials : UpstreamAccountCredentials) : Bool :=
  credentials.accountId ∈ locked ||
    (0 < credentials.internalAccountId && decimal credentials.internalAccountId.toNat ∈ locked)

def nextResetAtMs (candidate : RoutedCredentialCandidate) : Option ℤ :=
  let positive := fun reset : Option ℤ => reset.filter fun at_ => 0 < at_
  match positive candidate.quotaPrimaryResetAtMs, positive candidate.quotaSecondaryResetAtMs with
  | some primary, some secondary => some (min primary secondary)
  | primary, secondary => primary.or secondary

def earlierReset (lhs rhs : RoutedCredentialCandidate) : Bool :=
  match nextResetAtMs lhs, nextResetAtMs rhs with
  | some l, some r =>
    if l = r then lhs.credentials.internalAccountId < rhs.credentials.internalAccountId else l < r
  | some _, none => true
  | none, some _ => false
  | none, none => lhs.credentials.internalAccountId < rhs.credentials.internalAccountId

def maybePreferEarlierResetAccounts (settings : RoutingSettings) (candidates : List RoutedCredentialCandidate) :
    List RoutedCredentialCandidate :=
  if settings.preferEarlierResetAccounts then candidates.mergeSort fun lhs rhs => !earlierReset rhs lhs else candidates

variable (cipher : TokenCipher) (call : ResolveCall)

def lockedAccountIds : List Bytes := parseLockedRoutingAccountIds call.settings.lockedRoutingAccountIds

def lockPoolActive : Bool := 2 ≤ (lockedAccountIds call).length

def guardLockPoolSelection (result : Accounts × Option UpstreamAccountCredentials) :
    Accounts × Option UpstreamAccountCredentials :=
  (result.1, result.2.filter fun credentials => !lockPoolActive call ||
    lockPoolContains (lockedAccountIds call) credentials)

def preferred : Bytes := trimAscii call.preferredAccountId

def queryPreferredCredentials (accounts : Accounts) : Accounts × Option UpstreamAccountCredentials :=
  match queryExactAccountCredentials cipher call (preferred call) accounts, parsePositiveInt64 (preferred call) with
  | (accounts, none), some internalId => queryInternalAccountCredentials cipher call internalId accounts
  | result, _ => result

def preferredIsAllowed (credentials : Option UpstreamAccountCredentials) : Bool :=
  !lockPoolActive call || preferred call ∈ lockedAccountIds call ||
    credentials.any (lockPoolContains (lockedAccountIds call))

def selectPreferredCredentials (accounts : Accounts) : Accounts × Option UpstreamAccountCredentials :=
  if preferred call = [] then (accounts, none)
  else
    let (accounts, credentials) := queryPreferredCredentials cipher call accounts
    if !preferredIsAllowed call credentials then (accounts, none)
    else guardLockPoolSelection call (accounts, credentials)

def rankedCandidates (candidates : List RoutedCredentialCandidate) : List RoutedCredentialCandidate :=
  maybePreferEarlierResetAccounts call.settings <|
    if lockPoolActive call then
      candidates.filter fun candidate => lockPoolContains (lockedAccountIds call) candidate.credentials
    else candidates

def selectStrategyCredentials (accounts : Accounts) : Accounts × Option UpstreamAccountCredentials :=
  let routed := queryRoutedAccountCandidates cipher call accounts
  let candidates := rankedCandidates call routed.2
  if candidates = [] then (routed.1, none)
  else (routed.1, ((call.pick candidates).bind fun index => candidates[index]?).map
    RoutedCredentialCandidate.credentials)

def firstOf : List (Accounts → Accounts × Option UpstreamAccountCredentials) → Accounts →
    Accounts × Option UpstreamAccountCredentials
  | [], accounts => (accounts, none)
  | route :: routes, accounts =>
    match route accounts with
    | (accounts, none) => firstOf routes accounts
    | (accounts, some credentials) => (accounts, some credentials)

def routes : List (Accounts → Accounts × Option UpstreamAccountCredentials) :=
  if call.strictPreferredOnly then [selectPreferredCredentials cipher call]
  else if lockPoolActive call then
    [selectPreferredCredentials cipher call, fun accounts =>
      guardLockPoolSelection call (selectStrategyCredentials cipher call accounts)]
  else
    [queryPinnedAccountCredentials cipher call, selectPreferredCredentials cipher call, fun accounts =>
      guardLockPoolSelection call (selectStrategyCredentials cipher call accounts), fun accounts =>
      guardLockPoolSelection call (queryLatestActiveAccountCredentials cipher call accounts)]

def resolveUpstreamAccountCredentials (accounts : Accounts) : Accounts × Option UpstreamAccountCredentials :=
  firstOf (routes cipher call) (recoverExpiredAccountLimitBlocks accounts call.now call.stamp)

end Resolve

structure KeepsRouting (f : Account → Account) : Prop where
  status : ∀ row, (f row).status = row.status
  chatgptAccountId : ∀ row, (f row).chatgptAccountId = row.chatgptAccountId
  primary : ∀ row, (f row).quotaPrimaryPercent = row.quotaPrimaryPercent
  secondary : ∀ row, (f row).quotaSecondaryPercent = row.quotaSecondaryPercent
  primaryReset : ∀ row, (f row).quotaPrimaryResetAtMs = row.quotaPrimaryResetAtMs
  secondaryReset : ∀ row, (f row).quotaSecondaryResetAtMs = row.quotaSecondaryResetAtMs

def Migrates (accounts accounts' : Accounts) : Prop := ∃ f, KeepsRouting f ∧ accounts' = accounts.map f

theorem Migrates.refl (accounts : Accounts) : Migrates accounts accounts :=
  ⟨fun row => row, ⟨fun _ => rfl, fun _ => rfl, fun _ => rfl, fun _ => rfl, fun _ => rfl, fun _ => rfl⟩,
    (List.map_id' accounts).symm⟩

theorem Migrates.trans {accounts accounts' accounts'' : Accounts} (h : Migrates accounts accounts')
    (h' : Migrates accounts' accounts'') : Migrates accounts accounts'' := by
  obtain ⟨f, hf, rfl⟩ := h
  obtain ⟨g, hg, rfl⟩ := h'
  refine ⟨fun row => g (f row), ⟨?_, ?_, ?_, ?_, ?_, ?_⟩, List.map_map⟩
  · exact fun row => (hg.status _).trans (hf.status row)
  · exact fun row => (hg.chatgptAccountId _).trans (hf.chatgptAccountId row)
  · exact fun row => (hg.primary _).trans (hf.primary row)
  · exact fun row => (hg.secondary _).trans (hf.secondary row)
  · exact fun row => (hg.primaryReset _).trans (hf.primaryReset row)
  · exact fun row => (hg.secondaryReset _).trans (hf.secondaryReset row)

def trimmedId (row : Account) : Bytes := trimAscii (textOrEmpty row.chatgptAccountId)

def Selectable (accounts : Accounts) (accountId : Bytes) : Prop :=
  accountId ≠ [] ∧ ∃ row ∈ accounts, row.status = active ∧ withinQuota row = true ∧ trimmedId row = accountId

def Sound (route : Accounts → Accounts × Option UpstreamAccountCredentials) : Prop :=
  ∀ accounts, Migrates accounts (route accounts).1 ∧
    ∀ credentials, (route accounts).2 = some credentials → Selectable accounts credentials.accountId

theorem Selectable.of_migrates {accounts accounts' : Accounts} {accountId : Bytes} (h : Migrates accounts accounts')
    (hsel : Selectable accounts' accountId) : Selectable accounts accountId := by
  obtain ⟨f, hf, rfl⟩ := h
  obtain ⟨hne, row', hrow', hactive, hquota, hid⟩ := hsel
  obtain ⟨row, hrow, rfl⟩ := List.mem_map.mp hrow'
  refine ⟨hne, row, hrow, (hf.status row).symm.trans hactive, ?_, ?_⟩
  · rwa [withinQuota, hf.primary, hf.secondary] at hquota
  · rwa [trimmedId, hf.chatgptAccountId] at hid

theorem isRoutable_selectable {row : Account} (h : isRoutable row = true) :
    row.status = active ∧ withinQuota row = true := by
  simp only [isRoutable, Bool.and_eq_true, decide_eq_true_eq] at h
  exact ⟨h.1.1.1, h.1.1.2⟩

section Yields

variable {cipher : TokenCipher} {call : ResolveCall} {I : Accounts → Prop} {P : UpstreamAccountCredentials → Prop}
  {route : Accounts → Accounts × Option UpstreamAccountCredentials}

def Yields (I : Accounts → Prop) (P : UpstreamAccountCredentials → Prop)
    (route : Accounts → Accounts × Option UpstreamAccountCredentials) : Prop :=
  ∀ accounts, I accounts → I (route accounts).1 ∧ ∀ credentials, (route accounts).2 = some credentials → P credentials

theorem yields_guard (h : Yields I P route) : Yields I P fun accounts =>
    guardLockPoolSelection call (route accounts) := by
  intro accounts hkept
  obtain ⟨hafter, hgives⟩ := h accounts hkept
  exact ⟨hafter, fun credentials hcredentials => hgives credentials (Option.filter_eq_some_iff.mp hcredentials).1⟩

theorem yields_firstOf {routes : List (Accounts → Accounts × Option UpstreamAccountCredentials)}
    (h : ∀ route ∈ routes, Yields I P route) : Yields I P (firstOf routes) := by
  induction routes with
  | nil => exact fun accounts hkept => ⟨hkept, nofun⟩
  | cons route routes ih =>
    intro accounts hkept
    obtain ⟨hafter, hgives⟩ := h route List.mem_cons_self accounts hkept
    cases hroute : route accounts with
    | mk accounts' credentials =>
      rw [hroute] at hafter hgives
      cases credentials with
      | some credentials =>
        simp only [firstOf, hroute]
        exact ⟨hafter, hgives⟩
      | none =>
        simp only [firstOf, hroute]
        exact ih (fun other hother => h other (List.mem_cons_of_mem _ hother)) accounts' hafter

theorem yields_queryPreferred (hexact : Yields I P (queryExactAccountCredentials cipher call (preferred call)))
    (hinternal : ∀ accountId, Yields I P (queryInternalAccountCredentials cipher call accountId)) :
    Yields I P (queryPreferredCredentials cipher call) := by
  intro accounts hkept
  obtain ⟨hafter, hgives⟩ := hexact accounts hkept
  cases hread : queryExactAccountCredentials cipher call (preferred call) accounts with
  | mk accounts' credentials =>
    rw [hread] at hafter hgives
    cases credentials with
    | some credentials =>
      simp only [queryPreferredCredentials, hread]
      exact ⟨hafter, hgives⟩
    | none =>
      cases hparsed : parsePositiveInt64 (preferred call) with
      | none =>
        simp only [queryPreferredCredentials, hread, hparsed]
        exact ⟨hafter, hgives⟩
      | some internalId =>
        simp only [queryPreferredCredentials, hread, hparsed]
        exact hinternal internalId accounts' hafter

theorem yields_selectPreferred (h : Yields I P (queryPreferredCredentials cipher call)) :
    Yields I P (selectPreferredCredentials cipher call) := by
  intro accounts hkept
  by_cases hempty : preferred call = []
  · rw [selectPreferredCredentials, if_pos hempty]
    exact ⟨hkept, nofun⟩
  · obtain ⟨hafter, hgives⟩ := yields_guard h accounts hkept
    rw [selectPreferredCredentials, if_neg hempty]
    dsimp only
    split_ifs
    · exact ⟨hafter, nofun⟩
    · exact ⟨hafter, hgives⟩

theorem sound_iff_yields : Sound route ↔
    ∀ base, Yields (Migrates base) (fun credentials => Selectable base credentials.accountId) route := by
  constructor
  · intro h base accounts hmigrates
    obtain ⟨hafter, hsel⟩ := h accounts
    exact ⟨hmigrates.trans hafter, fun credentials hcredentials =>
      (hsel credentials hcredentials).of_migrates hmigrates⟩
  · intro h accounts
    exact h accounts accounts (.refl accounts)

theorem routable_of_find? {p : Account → Bool} {accounts : Accounts} {row : Account}
    (h : (accounts.find? fun row => isRoutable row && p row) = some row) : row ∈ accounts ∧ isRoutable row = true := by
  have hp := List.find?_some h
  rw [Bool.and_eq_true] at hp
  exact ⟨List.mem_of_find?_eq_some h, hp.1⟩

end Yields

section Soundness

variable (cipher : TokenCipher) (call : ResolveCall)

theorem normalizeStoredAccessToken_migrates (accounts : Accounts) (internalAccountId : ℤ) (stored : Bytes) :
    Migrates accounts (normalizeStoredAccessToken cipher call accounts internalAccountId stored).1 := by
  unfold normalizeStoredAccessToken
  split
  · exact .refl accounts
  · exact .refl accounts
  · rename_i value _
    split_ifs
    · exact .refl accounts
    · have hwritten : ∀ {α : Type} {field : Account → α},
          (∀ row, field (persistedTokenRow value call.stamp row) = field row) →
          ∀ row, field (setWhere (·.id = internalAccountId) (persistedTokenRow value call.stamp) row) = field row :=
        fun h row => setWhere_field h _ row
      exact ⟨_, ⟨hwritten fun _ => rfl, hwritten fun _ => rfl, hwritten fun _ => rfl, hwritten fun _ => rfl,
        hwritten fun _ => rfl, hwritten fun _ => rfl⟩, rfl⟩

theorem readCredentialsRow_spec (accounts : Accounts) (row : Account) :
    Migrates accounts (readCredentialsRow cipher call accounts row).1 ∧
      ∀ credentials, (readCredentialsRow cipher call accounts row).2 = some credentials →
        credentials.accountId = trimmedId row ∧ credentials.accountId ≠ [] := by
  by_cases hnull : row.chatgptAccountId.isNone ∨ row.accessTokenEncrypted.isNone
  · rw [readCredentialsRow, if_pos hnull]
    exact ⟨.refl accounts, nofun⟩
  have hmigrates := normalizeStoredAccessToken_migrates cipher call accounts row.id
    (trimAscii (textOrEmpty row.accessTokenEncrypted))
  rw [readCredentialsRow, if_neg hnull]
  cases hstored : normalizeStoredAccessToken cipher call accounts row.id
      (trimAscii (textOrEmpty row.accessTokenEncrypted)) with
  | mk accounts' stored =>
    rw [hstored] at hmigrates
    cases stored with
    | none => exact ⟨hmigrates, nofun⟩
    | some stored =>
      cases htoken : (decryptTokenFromStorage cipher call.key stored).map trimAscii with
      | none =>
        simp only [htoken]
        exact ⟨hmigrates, nofun⟩
      | some accessToken =>
        simp only [htoken]
        split_ifs with hempty
        · exact ⟨hmigrates, nofun⟩
        · refine ⟨hmigrates, ?_⟩
          intro credentials hcredentials
          cases hcredentials
          exact ⟨rfl, (not_or.mp hempty).1⟩

theorem readFirst_sound {find : Accounts → Option Account}
    (hfind : ∀ accounts row, find accounts = some row → row ∈ accounts ∧ isRoutable row = true) :
    Sound fun accounts => readFirst cipher call accounts (find accounts) := by
  intro accounts
  cases hrow : find accounts with
  | none =>
    simp only [hrow, readFirst]
    exact ⟨.refl accounts, nofun⟩
  | some row =>
    obtain ⟨hmigrates, hread⟩ := readCredentialsRow_spec cipher call accounts row
    obtain ⟨hmem, hroutable⟩ := hfind accounts row hrow
    obtain ⟨hactive, hquota⟩ := isRoutable_selectable hroutable
    simp only [hrow, readFirst]
    refine ⟨hmigrates, ?_⟩
    intro credentials hcredentials
    obtain ⟨hid, hne⟩ := hread credentials hcredentials
    exact ⟨hne, row, hmem, hactive, hquota, hid.symm⟩

theorem queryExact_sound (accountId : Bytes) : Sound (queryExactAccountCredentials cipher call accountId) := by
  apply readFirst_sound
  intro accounts row hrow
  exact routable_of_find? hrow

theorem queryInternal_sound (accountId : ℤ) : Sound (queryInternalAccountCredentials cipher call accountId) := by
  apply readFirst_sound
  intro accounts row hrow
  exact routable_of_find? hrow

theorem queryLatest_sound : Sound (queryLatestActiveAccountCredentials cipher call) := by
  apply readFirst_sound
  intro accounts row hrow
  exact ⟨List.mem_mergeSort.mp (List.mem_of_find?_eq_some hrow), List.find?_some hrow⟩

theorem queryPinned_sound : Sound (queryPinnedAccountCredentials cipher call) := by
  apply readFirst_sound
  intro accounts row hrow
  have hp := List.find?_some hrow
  rw [Bool.and_eq_true] at hp
  exact ⟨List.mem_mergeSort.mp (List.mem_of_find?_eq_some hrow), hp.2⟩

theorem readCandidates_spec (rows : List Account) (accounts : Accounts) :
    Migrates accounts (readCandidates cipher call rows accounts).1 ∧
      ∀ candidate ∈ (readCandidates cipher call rows accounts).2, ∃ row ∈ rows,
        candidate.credentials.accountId = trimmedId row ∧ candidate.credentials.accountId ≠ [] := by
  induction rows generalizing accounts with
  | nil => exact ⟨.refl accounts, by simp [readCandidates]⟩
  | cons row rows ih =>
    obtain ⟨hmigrates, hread⟩ := readCredentialsRow_spec cipher call accounts row
    cases hrow : readCredentialsRow cipher call accounts row with
    | mk accounts' credentials =>
      rw [hrow] at hmigrates hread
      obtain ⟨hrest, hcandidates⟩ := ih accounts'
      cases credentials with
      | none =>
        simp only [readCandidates, hrow]
        refine ⟨hmigrates.trans hrest, ?_⟩
        intro candidate hmem
        obtain ⟨row', hrow', hid⟩ := hcandidates candidate hmem
        exact ⟨row', List.mem_cons_of_mem _ hrow', hid⟩
      | some credentials =>
        simp only [readCandidates, hrow]
        refine ⟨hmigrates.trans hrest, ?_⟩
        intro candidate hmem
        obtain rfl | hmem := List.mem_cons.mp hmem
        · exact ⟨row, List.mem_cons_self, hread credentials rfl⟩
        · obtain ⟨row', hrow', hid⟩ := hcandidates candidate hmem
          exact ⟨row', List.mem_cons_of_mem _ hrow', hid⟩

theorem guard_sound {route : Accounts → Accounts × Option UpstreamAccountCredentials} (h : Sound route) :
    Sound fun accounts => guardLockPoolSelection call (route accounts) :=
  sound_iff_yields.mpr fun base => yields_guard (sound_iff_yields.mp h base)

theorem queryPreferred_sound : Sound (queryPreferredCredentials cipher call) := by
  rw [sound_iff_yields]
  intro base
  apply yields_queryPreferred
  · exact sound_iff_yields.mp (queryExact_sound cipher call (preferred call)) base
  · intro accountId
    exact sound_iff_yields.mp (queryInternal_sound cipher call accountId) base

theorem selectPreferred_sound : Sound (selectPreferredCredentials cipher call) :=
  sound_iff_yields.mpr fun base => yields_selectPreferred (sound_iff_yields.mp (queryPreferred_sound cipher call) base)

theorem selectStrategy_sound : Sound (selectStrategyCredentials cipher call) := by
  intro accounts
  obtain ⟨hmigrates, hcandidates⟩ :=
    readCandidates_spec cipher call ((accounts.mergeSort laterFirst).filter isRoutable) accounts
  have hranked : ∀ candidate ∈ rankedCandidates call (queryRoutedAccountCandidates cipher call accounts).2,
      candidate ∈ (queryRoutedAccountCandidates cipher call accounts).2 := by
    intro candidate hmem
    unfold rankedCandidates maybePreferEarlierResetAccounts at hmem
    split_ifs at hmem
    · exact (List.mem_filter.mp (List.mem_mergeSort.mp hmem)).1
    · exact List.mem_mergeSort.mp hmem
    · exact (List.mem_filter.mp hmem).1
    · exact hmem
  rw [selectStrategyCredentials]
  split_ifs
  · exact ⟨hmigrates, nofun⟩
  · refine ⟨hmigrates, ?_⟩
    intro credentials hcredentials
    obtain ⟨candidate, hpicked, rfl⟩ := Option.map_eq_some_iff.mp hcredentials
    obtain ⟨index, _, hindex⟩ := Option.bind_eq_some_iff.mp hpicked
    obtain ⟨row, hrow, hid, hne⟩ := hcandidates candidate (hranked candidate (List.mem_of_getElem? hindex))
    obtain ⟨hmem, hroutable⟩ := List.mem_filter.mp hrow
    obtain ⟨hactive, hquota⟩ := isRoutable_selectable hroutable
    exact ⟨hne, row, List.mem_mergeSort.mp hmem, hactive, hquota, hid.symm⟩

theorem firstOf_sound {routes : List (Accounts → Accounts × Option UpstreamAccountCredentials)}
    (h : ∀ route ∈ routes, Sound route) : Sound (firstOf routes) :=
  sound_iff_yields.mpr fun base => yields_firstOf fun route hroute => sound_iff_yields.mp (h route hroute) base

theorem routes_sound : ∀ route ∈ routes cipher call, Sound route := by
  have hpreferred := selectPreferred_sound cipher call
  have hstrategy := guard_sound call (selectStrategy_sound cipher call)
  unfold routes
  split_ifs
  · simpa using hpreferred
  · simpa using ⟨hpreferred, hstrategy⟩
  · simpa using ⟨queryPinned_sound cipher call, hpreferred, hstrategy, guard_sound call (queryLatest_sound cipher call)⟩

theorem resolve_sound (accounts : Accounts) :
    Migrates (recoverExpiredAccountLimitBlocks accounts call.now call.stamp)
        (resolveUpstreamAccountCredentials cipher call accounts).1 ∧
      ∀ credentials, (resolveUpstreamAccountCredentials cipher call accounts).2 = some credentials →
        Selectable (recoverExpiredAccountLimitBlocks accounts call.now call.stamp) credentials.accountId :=
  firstOf_sound (routes_sound cipher call) _

end Soundness

end Tightrope.Proxy.Session
