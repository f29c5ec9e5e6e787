import Mathlib.Data.List.Find
import Tightrope.Server.TokenRefreshScheduler

namespace Tightrope.Server

open Auth.Crypto Auth.Oauth Bytes Tightrope.Core Db RowTable TokenRefresh

section Controller

variable (cipher : TokenCipher) (key : SessionKey)

def parseAccountId (value : Bytes) : Option ℤ := parsePositiveInt64 value

def accessTokenRow (stored stamp : Bytes) (row : Account) : Account :=
  { row with accessTokenEncrypted := some stored, updatedAt := stamp }

def normalizeAccessTokenStorage (accounts : Accounts) (accountId : ℤ) (storedToken nonce stamp : Bytes) :
    Option (Accounts × Bytes) :=
  (migratePlaintextTokenForStorage cipher key nonce storedToken).map fun normalized =>
    (if normalized.2 then updateWhere (·.id = accountId) (accessTokenRow normalized.1 stamp) accounts else accounts,
      normalized.1)

structure AccountUsageCredentials where
  chatgptAccountId : Bytes
  accessToken : Bytes
  deriving DecidableEq, Repr

def accountUsageCredentials (accounts : Accounts) (accountId : ℤ) (nonce stamp : Bytes) :
    Accounts × Option AccountUsageCredentials :=
  if accountId ≤ 0 then (accounts, none)
  else match rowOf Account.id accountId accounts with
    | none => (accounts, none)
    | some row =>
      match row.chatgptAccountId, row.accessTokenEncrypted with
      | some rawAccount, some storedToken =>
        let account := trimAscii rawAccount
        let token := trimAscii storedToken
        if account = [] ∨ token = [] then (accounts, none)
        else match normalizeAccessTokenStorage cipher key accounts accountId token nonce stamp with
          | none => (accounts, none)
          | some (accounts, normalized) =>
            let token := (decryptTokenFromStorage cipher key normalized).map trimAscii
            (accounts, (token.filter (· ≠ [])).map fun token => ⟨account, token⟩)
      | _, _ => (accounts, none)

structure AccountMutationResponse where
  status : ℕ
  code : Bytes := []
  message : Bytes := []
  account : Option Account := none
  deriving DecidableEq, Repr

def notFound : AccountMutationResponse :=
  { status := 404, code := ofString "account_not_found", message := ofString "Account not found" }

def credentialsUnavailable : AccountMutationResponse :=
  { status := 400
    code := ofString "account_token_refresh_unavailable"
    message := ofString "Account token refresh credentials are unavailable" }

def tokenRefreshFailureMessage (refresh : RefreshAccessTokenResult) (accountLabel : Bytes) : Bytes :=
  let label := trimAscii accountLabel
  let message := ofString "Failed to refresh account token" ++ if label = [] then [] else ofString " for " ++ label
  let errorCode := trimAscii refresh.errorCode
  let detail := trimAscii refresh.errorMessage
  if errorCode = [] ∧ detail = [] then message
  else
    message ++ ofString ": " ++ (if errorCode = [] then [] else ofString "code=" ++ errorCode) ++
      if detail = [] then [] else (if errorCode = [] then [] else ofString ", ") ++ detail

structure TokenRefreshRequest where
  response : AccountMutationResponse
  accounts : Accounts
  call : Option RefreshCall := none

def refreshAccountToken (accounts : Accounts) (accountId nonce stamp : Bytes) (input : RefreshInput) :
    TokenRefreshRequest :=
  match parseAccountId accountId with
  | none => { response := notFound, accounts := accounts }
  | some id =>
    match rowOf Account.id id accounts with
    | none => { response := notFound, accounts := accounts }
    | some existing =>
      match accountUsageCredentials cipher key accounts id nonce stamp with
      | (accounts, none) => { response := credentialsUnavailable, accounts := accounts }
      | (accounts, some credentials) =>
        let call := refreshAccessTokenForAccount cipher credentials.chatgptAccountId key input accounts
        let response :=
          if !call.refreshed then
            { status := 502
              code := ofString "token_refresh_failed"
              message := tokenRefreshFailureMessage (resultOf call)
                (if (existing.email.getD []) = [] then decimal id.toNat else existing.email.getD []) }
          else match rowOf Account.id id call.accounts with
            | none => notFound
            | some updated => { status := 200, account := some updated }
        { response := response, accounts := call.accounts, call := some call }

end Controller

def FirstActive (accounts : Accounts) (chatgptAccountId : Bytes) (row : Account) : Prop :=
  hasActiveChatgptId chatgptAccountId row = true ∧
    ∃ before after, accounts = before ++ row :: after ∧ ∀ other ∈ before,
      hasActiveChatgptId chatgptAccountId other = false

/-- The row got the tokens that its own refresh token was exchanged for, and no other row changed. -/
structure RefreshedOwnRow (cipher : TokenCipher) (key : SessionKey) (input : RefreshInput) (before : Accounts)
    (call : RefreshCall) (row : Account) : Prop where
  received : ∃ token tokens idToken encrypted updated, ownRefreshToken cipher key row = some token ∧
    call.exchanged = [(row.id, token)] ∧ input.provider token = .ok tokens ∧
    encryptTokens cipher key input.nonces tokens idToken = some encrypted ∧
    rowOf Account.id row.id call.accounts = some (refreshedRow encrypted input.now updated)
  stored : call.stored = [row.id]
  others : ∀ other, other ≠ row.id → rowOf Account.id other call.accounts = rowOf Account.id other before

/-- Every due row was read once and its own refresh token sent once, no other token was sent, and the marked rows are
rows whose own refresh failed. -/
structure SweptOwnRows (cipher : TokenCipher) (key : SessionKey) (inputs : ℤ → RefreshInput) (before : Accounts)
    (due : List RefreshCandidate) (sweep : Sweep) : Prop where
  attempted : ∀ candidate ∈ due, (sweep.calls.flatMap RefreshCall.read).count candidate.accountId = 1
  exchanged : ∀ candidate ∈ due, ∀ row, rowOf Account.id candidate.accountId before = some row →
    tokensReadable cipher key (inputs row.id).nonces row = true → ∃ token, ownRefreshToken cipher key row = some token ∧
      (sweep.calls.flatMap RefreshCall.exchanged).count (row.id, token) = 1
  own : ∀ sent ∈ sweep.calls.flatMap RefreshCall.exchanged, ∃ row, rowOf Account.id sent.1 before = some row ∧
    ownRefreshToken cipher key row = some sent.2
  marked : ∀ accountId ∈ sweep.marked, ∃ call ∈ sweep.calls, call.read = [accountId] ∧ call.refreshed = false

section LookUp

variable {accounts : Accounts} {chatgptAccountId : Bytes} {row : Account}

def lookUp (chatgptAccountId : Bytes) (accounts : Accounts) : Option ℤ :=
  (accounts.find? (hasActiveChatgptId chatgptAccountId)).map Account.id

theorem lookUp_updateWhere {f : Account → Account} (hf : KeepsLookup f) {accountId : ℤ}
    (hstatus : ∀ r ∈ accounts, r.id = accountId → (f r).status = r.status) :
    lookUp chatgptAccountId (updateWhere (·.id = accountId) f accounts) = lookUp chatgptAccountId accounts := by
  have hsame : ∀ r ∈ accounts, hasActiveChatgptId chatgptAccountId (setWhere (·.id = accountId) f r) =
      hasActiveChatgptId chatgptAccountId r := by
    intro r hr
    unfold setWhere
    split_ifs with hid
    · simp only [hasActiveChatgptId, hf.chatgptAccountId, hstatus r hr (of_decide_eq_true hid)]
    · rfl
  rw [lookUp, updateWhere, List.find?_map, Option.map_map, lookUp]
  simp only [Function.comp_def]
  rw [List.find?_congr hsame]
  congr 1
  funext r
  exact setWhere_field hf.id _ r

theorem mem_unique (hnodup : (accounts.map Account.id).Nodup) {other : Account} (hrow : row ∈ accounts)
    (hother : other ∈ accounts) (hid : other.id = row.id) : other = row := by
  have hfound := rowOf_of_mem Account.id hnodup hother
  rw [hid, rowOf_of_mem Account.id hnodup hrow] at hfound
  exact (Option.some.inj hfound).symm

theorem lookUp_eq_some_iff (hnodup : (accounts.map Account.id).Nodup) (hrow : row ∈ accounts) :
    lookUp chatgptAccountId accounts = some row.id ↔ FirstActive accounts chatgptAccountId row := by
  rw [lookUp, Option.map_eq_some_iff]
  constructor
  · rintro ⟨found, hfind, hid⟩
    obtain rfl := mem_unique hnodup hrow (List.mem_of_find?_eq_some hfind) hid
    obtain ⟨hactive, before, after, hsplit, hnone⟩ := List.find?_eq_some_iff_append.mp hfind
    exact ⟨hactive, before, after, hsplit, by simpa using hnone⟩
  · rintro ⟨hactive, before, after, hsplit, hnone⟩
    exact ⟨row, List.find?_eq_some_iff_append.mpr ⟨hactive, before, after, hsplit, by simpa using hnone⟩, rfl⟩

end LookUp

section Request

variable {cipher : TokenCipher} {key : SessionKey} {accounts : Accounts} {row : Account}

theorem accountUsageCredentials_some {id : ℤ} {nonce stamp : Bytes} {accounts' : Accounts}
    {credentials : AccountUsageCredentials} (hrow : rowOf Account.id id accounts = some row)
    (h : accountUsageCredentials cipher key accounts id nonce stamp = (accounts', some credentials)) :
    credentials.chatgptAccountId = trimAscii (row.chatgptAccountId.getD []) ∧
      ∃ g, KeepsLookup g ∧ (∀ r, (g r).status = r.status) ∧
        (∀ r, (g r).refreshTokenEncrypted = r.refreshTokenEncrypted) ∧
        accounts' = updateWhere (·.id = id) g accounts := by
  unfold accountUsageCredentials at h
  by_cases hid : id ≤ 0
  · simp [hid] at h
  rw [if_neg hid, hrow] at h
  cases hraw : row.chatgptAccountId with
  | none => simp [hraw] at h
  | some raw =>
    cases hstored : row.accessTokenEncrypted with
    | none => simp [hraw, hstored] at h
    | some stored =>
      simp only [hraw, hstored] at h
      by_cases hempty : trimAscii raw = [] ∨ trimAscii stored = []
      · simp [hempty] at h
      rw [if_neg hempty] at h
      split at h
      · cases h
      · rename_i table normalized hnormal
        obtain ⟨htable, htoken⟩ := Prod.mk.inj h
        obtain ⟨token, _, rfl⟩ := Option.map_eq_some_iff.mp htoken
        obtain ⟨migrated, _, hpair⟩ := Option.map_eq_some_iff.mp hnormal
        obtain ⟨hupdate, _⟩ := Prod.mk.inj hpair
        refine ⟨rfl, ?_⟩
        rw [← htable, ← hupdate]
        split_ifs
        · exact ⟨accessTokenRow migrated.1 stamp, ⟨fun _ => rfl, fun _ => rfl, fun _ h => h⟩, fun _ => rfl,
            fun _ => rfl,
            rfl⟩
        · exact ⟨fun r => r, keepsLookup_id, fun _ => rfl, fun _ => rfl, (updateWhere_id _ accounts).symm⟩

theorem refreshedOwnRow_call_iff (hcipher : cipher.RoundTrips) (hnodup : (accounts.map Account.id).Nodup)
    (hrow : row ∈ accounts) {chatgptAccountId : Bytes} {input : RefreshInput}
    (hrefreshed : (refreshAccessTokenForAccount cipher chatgptAccountId key input accounts).refreshed = true) :
    RefreshedOwnRow cipher key input accounts (refreshAccessTokenForAccount cipher chatgptAccountId key input accounts)
      row ↔
      lookUp (cstr chatgptAccountId) accounts = some row.id := by
  obtain ⟨result, hphase⟩ := @refresh_finished cipher chatgptAccountId key input accounts
  obtain ⟨served, hfind, hserves⟩ | ⟨_, result, hresult, heq⟩ :=
    @refresh_cases cipher chatgptAccountId key input hcipher accounts
  · obtain ⟨hstored, f, token, idToken, tokens, encrypted, hf, hown, hsent, hanswer, hencrypted, haccounts⟩ :=
      (hserves.outcome hphase).refreshed hrefreshed
    have hserved : lookUp (cstr chatgptAccountId) accounts = some served.id := by rw [lookUp, hfind, Option.map_some]
    rw [hserved]
    constructor
    · intro h
      have hids := h.stored
      rw [hstored] at hids
      exact congrArg some (List.singleton_inj.mp hids)
    · intro hid
      obtain rfl := mem_unique hnodup hrow (List.mem_of_find?_eq_some hfind) (Option.some.inj hid)
      refine ⟨⟨token, tokens, idToken, encrypted, f served, hown, hsent, hanswer, hencrypted, ?_⟩, hstored, ?_⟩
      · rw [haccounts, rowOf_updateWhere_self Account.id (hf.comp_refreshedRow encrypted input.now).id,
          rowOf_of_mem Account.id hnodup hrow, Option.map_some]
      · intro other hne
        rw [haccounts, rowOf_updateWhere_ne Account.id (hf.comp_refreshedRow encrypted input.now).id hne]
  · rw [heq] at hrefreshed
    exact absurd hrefreshed (by simp [RefreshCall.refreshed, hresult])

theorem refreshedOwnRow_updateWhere {g : Account → Account} (hg : KeepsLookup g)
    (htoken : ∀ r, (g r).refreshTokenEncrypted = r.refreshTokenEncrypted) {input : RefreshInput} {call : RefreshCall} :
    RefreshedOwnRow cipher key input (updateWhere (·.id = row.id) g accounts) call (g row) ↔
      RefreshedOwnRow cipher key input accounts call row := by
  have hown : ownRefreshToken cipher key (g row) = ownRefreshToken cipher key row := by
    rw [ownRefreshToken, htoken, ownRefreshToken]
  have hid := hg.id row
  constructor
  · rintro ⟨hreceived, hstored, hothers⟩
    rw [hown, hid] at hreceived
    rw [hid] at hstored
    refine ⟨hreceived, hstored, ?_⟩
    intro other hne
    rw [hothers other (hid ▸ hne), rowOf_updateWhere_ne Account.id hg.id hne]
  · rintro ⟨hreceived, hstored, hothers⟩
    refine ⟨by rwa [hown, hid], by rwa [hid], ?_⟩
    intro other hne
    rw [hid] at hne
    rw [hothers other hne, rowOf_updateWhere_ne Account.id hg.id hne]

theorem refreshedOwnRow_iff (hcipher : cipher.RoundTrips) (hnodup : (accounts.map Account.id).Nodup)
    {accountId nonce stamp : Bytes} {input : RefreshInput} {id : ℤ} (hid : parseAccountId accountId = some id)
    (hrow : rowOf Account.id id accounts = some row)
    (hsuccess : (refreshAccountToken cipher key accounts accountId nonce stamp input).response.status = 200) :
    (∃ call, (refreshAccountToken cipher key accounts accountId nonce stamp input).call = some call ∧
      RefreshedOwnRow cipher key input accounts call row) ↔
      FirstActive accounts (cstr (trimAscii (row.chatgptAccountId.getD []))) row := by
  obtain rfl := key_of_rowOf Account.id hrow
  have hmem := mem_of_rowOf Account.id hrow
  cases hcredentials : accountUsageCredentials cipher key accounts row.id nonce stamp with
  | mk table credentials =>
    cases credentials with
    | none => simp [refreshAccountToken, hid, hrow, hcredentials, credentialsUnavailable] at hsuccess
    | some credentials =>
      obtain ⟨hworkspace, g, hg, hgstatus, hgtoken, rfl⟩ := accountUsageCredentials_some hrow hcredentials
      simp only [refreshAccountToken, hid, hrow, hcredentials, Option.some.injEq, exists_eq_left'] at hsuccess ⊢
      have hrefreshed : (refreshAccessTokenForAccount cipher credentials.chatgptAccountId key input
          (updateWhere (·.id = row.id) g accounts)).refreshed = true := by
        by_contra hfailed
        rw [Bool.not_eq_true] at hfailed
        rw [hfailed] at hsuccess
        exact absurd hsuccess (by simp)
      have hnodup' : ((updateWhere (·.id = row.id) g accounts).map Account.id).Nodup := by
        rwa [map_field_updateWhere hg.id]
      have hmem' : g row ∈ updateWhere (·.id = row.id) g accounts :=
        mem_updateWhere.mpr ⟨row, hmem, setWhere_of_pos (by simp)⟩
      rw [← refreshedOwnRow_updateWhere hg hgtoken, refreshedOwnRow_call_iff hcipher hnodup' hmem' hrefreshed, hg.id,
        hworkspace, lookUp_updateWhere hg fun r _ _ => hgstatus r, lookUp_eq_some_iff hnodup hmem]

end Request

section Sweep

variable {cipher : TokenCipher} {key : SessionKey} {accounts base : Accounts} {now : ℤ} {config : SchedulerConfig}
  {inputs : ℤ → RefreshInput} {epochSeconds : Bytes → Option ℤ}

theorem mem_loadRefreshCandidates {candidate : RefreshCandidate}
    (h : candidate ∈ loadRefreshCandidates epochSeconds accounts) :
    ∃ row ∈ accounts, isCandidateRow row = true ∧ candidate = candidateOf epochSeconds row ∧ 0 < row.id ∧
      candidate.chatgptAccountId ≠ [] := by
  rw [loadRefreshCandidates, List.mem_filter, List.mem_map] at h
  obtain ⟨⟨row, hrow, rfl⟩, hvalid⟩ := h
  rw [List.mem_filter, List.mem_mergeSort] at hrow
  simp only [Bool.and_eq_true, decide_eq_true_eq] at hvalid
  exact ⟨row, hrow.1, hrow.2, rfl, hvalid.1, by simpa using hvalid.2⟩

theorem loadRefreshCandidates_nodup (hnodup : (accounts.map Account.id).Nodup) :
    ((loadRefreshCandidates epochSeconds accounts).map RefreshCandidate.accountId).Nodup := by
  have hsorted : ((accounts.mergeSort fun a b => a.id ≤ b.id).map Account.id).Nodup :=
    ((List.mergeSort_perm accounts _).map Account.id).nodup_iff.mpr hnodup
  rw [loadRefreshCandidates]
  apply (List.filter_sublist.map _).nodup
  rw [List.map_map]
  exact (List.filter_sublist.map _).nodup hsorted

theorem candidate_id_trimmed (row : Account) :
    trimAscii (candidateOf epochSeconds row).chatgptAccountId = (candidateOf epochSeconds row).chatgptAccountId ∧
      cstr (candidateOf epochSeconds row).chatgptAccountId = (candidateOf epochSeconds row).chatgptAccountId :=
  ⟨trimAscii_trimAscii _, cstr_eq_self.mpr (nulFree_trimAscii (nulFree_cstr _))⟩

theorem lookUp_refresh (hcipher : cipher.RoundTrips) (hnodup : (accounts.map Account.id).Nodup)
    {chatgptAccountId : Bytes} {input : RefreshInput} (workspace : Bytes) :
    lookUp workspace (refreshAccessTokenForAccount cipher chatgptAccountId key input accounts).accounts =
        lookUp workspace accounts ∧
      (refreshAccessTokenForAccount cipher chatgptAccountId key input accounts).accounts.map Account.id =
        accounts.map Account.id := by
  obtain ⟨result, hphase⟩ := @refresh_finished cipher chatgptAccountId key input accounts
  obtain ⟨served, hfind, hserves⟩ | ⟨_, result, hresult, heq⟩ :=
    @refresh_cases cipher chatgptAccountId key input hcipher accounts
  · obtain ⟨f, hf, haccounts⟩ := (hserves.outcome hphase).accounts
    have hactive := List.find?_some hfind
    simp only [hasActiveChatgptId, Bool.and_eq_true, decide_eq_true_eq] at hactive
    rw [haccounts]
    refine ⟨lookUp_updateWhere hf ?_, map_field_updateWhere hf.id _ _⟩
    intro r hr hid
    obtain rfl := mem_unique hnodup (List.mem_of_find?_eq_some hfind) hr hid
    rw [hf.status r hactive.2, hactive.2]
  · rw [heq]
    exact ⟨rfl, rfl⟩

section Candidate

variable (cipher key now config inputs) (sweep : Sweep) (candidate : RefreshCandidate)

def candidateCall : RefreshCall :=
  refreshAccessTokenForAccount cipher candidate.chatgptAccountId key (inputs candidate.accountId) sweep.accounts

theorem sweepCandidate_calls : (sweepCandidate cipher key now config inputs sweep candidate).calls =
    sweep.calls ++ [candidateCall cipher key inputs sweep candidate] := by
  rw [sweepCandidate]
  split_ifs <;> rfl

theorem sweepCandidate_marked {accountId : ℤ}
    (h : accountId ∈ (sweepCandidate cipher key now config inputs sweep candidate).marked) :
    accountId ∈ sweep.marked ∨
      accountId = candidate.accountId ∧ (candidateCall cipher key inputs sweep candidate).refreshed = false := by
  rw [sweepCandidate] at h
  split_ifs at h with hrefreshed
  · exact .inl h
  · rw [Bool.not_eq_true] at hrefreshed
    obtain h | h := List.mem_append.mp h
    · exact .inl h
    · exact .inr ⟨List.mem_singleton.mp h, hrefreshed⟩

theorem sweepCandidate_accounts : ∃ g, KeepsLookup g ∧ (∀ r, (g r).status = r.status) ∧
    (sweepCandidate cipher key now config inputs sweep candidate).accounts =
      updateWhere (·.id = candidate.accountId) g (candidateCall cipher key inputs sweep candidate).accounts := by
  have hsame : ∀ call : RefreshCall, call.accounts =
      updateWhere (·.id = candidate.accountId) (fun r => r) call.accounts :=
    fun call => (updateWhere_id _ call.accounts).symm
  simp only [sweepCandidate, markAttention]
  split_ifs
  · exact ⟨fun r => r, keepsLookup_id, fun _ => rfl, hsame _⟩
  · exact ⟨fun r => r, keepsLookup_id, fun _ => rfl, hsame _⟩
  · exact ⟨_, keepsLookup_attentionRow _ _ _, fun _ => rfl, rfl⟩

theorem lookUp_sweepCandidate (hcipher : cipher.RoundTrips) (hnodup : (sweep.accounts.map Account.id).Nodup)
    (workspace : Bytes) :
    lookUp workspace (sweepCandidate cipher key now config inputs sweep candidate).accounts =
        lookUp workspace sweep.accounts ∧
      (sweepCandidate cipher key now config inputs sweep candidate).accounts.map Account.id =
        sweep.accounts.map Account.id := by
  obtain ⟨g, hg, hstatus, haccounts⟩ := sweepCandidate_accounts cipher key now config inputs sweep candidate
  obtain ⟨hlook, hkeys⟩ := @lookUp_refresh cipher key sweep.accounts hcipher hnodup candidate.chatgptAccountId
    (inputs candidate.accountId) workspace
  rw [haccounts, lookUp_updateWhere hg fun r _ _ => hstatus r, map_field_updateWhere hg.id]
  exact ⟨hlook, hkeys⟩

end Candidate

structure ReadsByLookUp (base : Accounts) (sweep : Sweep) : Prop where
  keys : sweep.accounts.map Account.id = base.map Account.id
  lookUps : ∀ workspace, lookUp workspace sweep.accounts = lookUp workspace base
  reads : ∀ accountId ∈ sweep.calls.flatMap RefreshCall.read,
    ∃ workspace, trimAscii workspace = workspace ∧ cstr workspace = workspace ∧ lookUp workspace base = some accountId

theorem readsByLookUp_step (hcipher : cipher.RoundTrips) (hnodup : (base.map Account.id).Nodup) {sweep : Sweep}
    {row : Account} (h : ReadsByLookUp base sweep) :
    ReadsByLookUp base (sweepCandidate cipher key now config inputs sweep (candidateOf epochSeconds row)) := by
  have hnodup' : (sweep.accounts.map Account.id).Nodup := by rwa [h.keys]
  have hlook := lookUp_sweepCandidate cipher key now config inputs sweep (candidateOf epochSeconds row) hcipher hnodup'
  refine ⟨(hlook []).2.trans h.keys, fun workspace => (hlook workspace).1.trans (h.lookUps workspace), ?_⟩
  intro accountId hread
  rw [sweepCandidate_calls, List.flatMap_append, List.mem_append, List.flatMap_singleton] at hread
  obtain hread | hread := hread
  · exact h.reads accountId hread
  obtain ⟨htrim, hcstr⟩ := @candidate_id_trimmed epochSeconds row
  obtain ⟨result, hphase⟩ := @refresh_finished cipher (candidateOf epochSeconds row).chatgptAccountId key
    (inputs row.id) sweep.accounts
  obtain ⟨served, hfind, hserves⟩ | ⟨_, result, hresult, heq⟩ :=
    @refresh_cases cipher (candidateOf epochSeconds row).chatgptAccountId key (inputs row.id) hcipher sweep.accounts
  · have hserved := (hserves.outcome hphase).read
    change accountId ∈ (refreshAccessTokenForAccount cipher (candidateOf epochSeconds row).chatgptAccountId key
      (inputs row.id) sweep.accounts).read at hread
    rw [hserved, List.mem_singleton] at hread
    refine ⟨_, htrim, hcstr, ?_⟩
    rw [← h.lookUps, lookUp, ← hcstr, hfind, hread]
    rfl
  · change accountId ∈ (refreshAccessTokenForAccount cipher (candidateOf epochSeconds row).chatgptAccountId key
      (inputs row.id) sweep.accounts).read at hread
    rw [heq] at hread
    cases hread

def ServedCandidate (cipher : TokenCipher) (key : SessionKey) (inputs : ℤ → RefreshInput) (base : Accounts)
    (candidate : RefreshCandidate) (call : RefreshCall) : Prop :=
  call.read = [candidate.accountId] ∧ ∃ row, rowOf Account.id candidate.accountId base = some row ∧
    (call.exchanged = [] ∧ tokensReadable cipher key (inputs row.id).nonces row = false ∨
      ∃ token, ownRefreshToken cipher key row = some token ∧ call.exchanged = [(row.id, token)])

structure ServesOwnRows (cipher : TokenCipher) (key : SessionKey) (inputs : ℤ → RefreshInput) (base : Accounts)
    (done : List RefreshCandidate) (sweep : Sweep) : Prop where
  untouched : ∀ accountId, accountId ∉ done.map RefreshCandidate.accountId →
    rowOf Account.id accountId sweep.accounts = rowOf Account.id accountId base
  calls : List.Forall₂ (ServedCandidate cipher key inputs base) done sweep.calls
  marked : ∀ accountId ∈ sweep.marked, ∃ call ∈ sweep.calls, call.read = [accountId] ∧ call.refreshed = false

theorem isCandidateRow_token {row : Account} (h : isCandidateRow row = true) :
    textOrEmpty row.refreshTokenEncrypted ≠ [] := by
  simp only [isCandidateRow, Bool.and_eq_true] at h
  cases htoken : row.refreshTokenEncrypted with
  | none => simp [htoken] at h
  | some token => simpa [htoken, textOrEmpty] using h.2

theorem served_of_lookUp (hcipher : cipher.RoundTrips) (hnodup : (accounts.map Account.id).Nodup) {row : Account}
    {input : RefreshInput} (hrow : rowOf Account.id row.id accounts = some row) (hcandidate : isCandidateRow row = true)
    (hid : 0 < row.id) (hworkspace : (candidateOf epochSeconds row).chatgptAccountId ≠ [])
    (hlook : lookUp (candidateOf epochSeconds row).chatgptAccountId accounts = some row.id) :
    Served cipher key input accounts row
      (refreshAccessTokenForAccount cipher (candidateOf epochSeconds row).chatgptAccountId key input accounts) := by
  have hmem := mem_of_rowOf Account.id hrow
  obtain ⟨found, hfind, hsame⟩ := Option.map_eq_some_iff.mp hlook
  obtain rfl := mem_unique hnodup hmem (List.mem_of_find?_eq_some hfind) hsame
  obtain ⟨_, hcstr⟩ := @candidate_id_trimmed epochSeconds found
  rw [← hcstr] at hfind
  obtain ⟨result, hphase⟩ := @refresh_finished cipher (candidateOf epochSeconds found).chatgptAccountId key
    input accounts
  obtain ⟨served, hserved, hserves⟩ | ⟨hnone, _⟩ :=
    @refresh_cases cipher (candidateOf epochSeconds found).chatgptAccountId key input hcipher accounts
  · cases hfind.symm.trans hserved
    exact hserves.outcome hphase
  · obtain hempty | hnone := hnone
    · exact absurd hempty hworkspace
    · have htoken := isCandidateRow_token hcandidate
      rw [selectActiveAccount, hfind] at hnone
      simp [recordOf, Option.filter, hid, htoken] at hnone

theorem servesOwnRows_step (hcipher : cipher.RoundTrips) (hnodup : (base.map Account.id).Nodup)
    {done : List RefreshCandidate} {sweep : Sweep} {row : Account} (hrow : row ∈ base)
    (hcandidate : isCandidateRow row = true) (hid : 0 < row.id)
    (hworkspace : (candidateOf epochSeconds row).chatgptAccountId ≠ [])
    (hlook : lookUp (candidateOf epochSeconds row).chatgptAccountId base = some row.id)
    (hnew : row.id ∉ done.map RefreshCandidate.accountId) (hreads : ReadsByLookUp base sweep)
    (h : ServesOwnRows cipher key inputs base done sweep) :
    ServesOwnRows cipher key inputs base (done ++ [candidateOf epochSeconds row])
      (sweepCandidate cipher key now config inputs sweep (candidateOf epochSeconds row)) := by
  have hfound := rowOf_of_mem Account.id hnodup hrow
  have hserved : Served cipher key (inputs row.id) sweep.accounts row
      (candidateCall cipher key inputs sweep (candidateOf epochSeconds row)) := by
    apply served_of_lookUp hcipher ?_ ?_ hcandidate hid hworkspace
    · rw [hreads.lookUps, hlook]
    · rwa [hreads.keys]
    · rw [h.untouched row.id hnew, hfound]
  obtain ⟨f, hf, hcall⟩ := hserved.accounts
  obtain ⟨g, hg, _, haccounts⟩ :=
    sweepCandidate_accounts cipher key now config inputs sweep (candidateOf epochSeconds row)
  refine ⟨?_, ?_, ?_⟩
  · intro accountId hnot
    rw [List.map_append, List.mem_append, not_or] at hnot
    have hne : accountId ≠ row.id := by
      rintro rfl
      exact hnot.2 (List.mem_singleton.mpr rfl)
    rw [haccounts, hcall]
    exact (rowOf_updateWhere_ne Account.id hg.id hne _).trans
      ((rowOf_updateWhere_ne Account.id hf.id hne _).trans (h.untouched accountId hnot.1))
  · rw [sweepCandidate_calls]
    apply List.rel_append h.calls
    exact .cons ⟨hserved.read, row, hfound, hserved.sent⟩ .nil
  · intro accountId hmarked
    rw [sweepCandidate_calls]
    obtain hold | ⟨rfl, hfailed⟩ := sweepCandidate_marked cipher key now config inputs sweep _ hmarked
    · obtain ⟨call, hcall, hmarks⟩ := h.marked accountId hold
      exact ⟨call, List.mem_append_left _ hcall, hmarks⟩
    · exact ⟨_, List.mem_append_right _ (List.mem_singleton.mpr rfl), hserved.read, hfailed⟩

theorem sweep_readsByLookUp (hcipher : cipher.RoundTrips) (hnodup : (base.map Account.id).Nodup)
    {rest : List RefreshCandidate} {sweep : Sweep}
    (hrest : ∀ candidate ∈ rest, ∃ row, candidate = candidateOf epochSeconds row)
    (h : ReadsByLookUp base sweep) :
    ReadsByLookUp base (rest.foldl (sweepCandidate cipher key now config inputs) sweep) := by
  induction rest generalizing sweep with
  | nil => exact h
  | cons candidate rest ih =>
    obtain ⟨row, rfl⟩ := hrest candidate List.mem_cons_self
    apply ih
    · intro other hother
      exact hrest other (List.mem_cons_of_mem _ hother)
    · exact readsByLookUp_step hcipher hnodup h

theorem lookUp_of_read (hnodup : (base.map Account.id).Nodup) {sweep : Sweep} {row : Account} (hrow : row ∈ base)
    (h : ReadsByLookUp base sweep) (hread : row.id ∈ sweep.calls.flatMap RefreshCall.read) :
    lookUp (candidateOf epochSeconds row).chatgptAccountId base = some row.id := by
  obtain ⟨workspace, htrim, hcstr, hlook⟩ := h.reads row.id hread
  obtain ⟨hactive, _⟩ := (lookUp_eq_some_iff hnodup hrow).mp hlook
  simp only [hasActiveChatgptId, Bool.and_eq_true, decide_eq_true_eq] at hactive
  have hsame : (candidateOf epochSeconds row).chatgptAccountId = workspace := by
    change trimAscii (cstr (row.chatgptAccountId.getD [])) = workspace
    rw [hactive.1, Option.getD_some, hcstr, htrim]
  rwa [hsame]

theorem sweep_servesOwnRows (hcipher : cipher.RoundTrips) (hnodup : (base.map Account.id).Nodup)
    {done rest : List RefreshCandidate} {sweep : Sweep}
    (hrest : ∀ candidate ∈ rest, ∃ row ∈ base, isCandidateRow row = true ∧ candidate = candidateOf epochSeconds row ∧
      0 < row.id ∧ candidate.chatgptAccountId ≠ [])
    (hlook : ∀ candidate ∈ rest, lookUp candidate.chatgptAccountId base = some candidate.accountId)
    (hids : ((done ++ rest).map RefreshCandidate.accountId).Nodup) (hreads : ReadsByLookUp base sweep)
    (h : ServesOwnRows cipher key inputs base done sweep) :
    ServesOwnRows cipher key inputs base (done ++ rest)
      (rest.foldl (sweepCandidate cipher key now config inputs) sweep) := by
  induction rest generalizing done sweep with
  | nil => simpa using h
  | cons candidate rest ih =>
    obtain ⟨row, hrow, hcandidate, rfl, hid, hworkspace⟩ := hrest candidate List.mem_cons_self
    have hnew : row.id ∉ done.map RefreshCandidate.accountId := by
      rw [List.map_append, List.map_cons] at hids
      intro hmem
      exact (List.nodup_append.mp hids).2.2 _ hmem _ List.mem_cons_self rfl
    rw [List.append_cons] at hids ⊢
    apply ih
    · intro other hother
      exact hrest other (List.mem_cons_of_mem _ hother)
    · intro other hother
      exact hlook other (List.mem_cons_of_mem _ hother)
    · exact hids
    · exact readsByLookUp_step hcipher hnodup hreads
    · exact servesOwnRows_step hcipher hnodup hrow hcandidate hid hworkspace (hlook _ List.mem_cons_self) hnew hreads h

theorem flatMap_read {done : List RefreshCandidate} {calls : List RefreshCall}
    (h : List.Forall₂ (ServedCandidate cipher key inputs base) done calls) :
    calls.flatMap RefreshCall.read = done.map RefreshCandidate.accountId := by
  induction h with
  | nil => rfl
  | cons hserved _ ih => rw [List.flatMap_cons, hserved.1, ih, List.singleton_append, List.map_cons]

theorem exchanged_sublist {done : List RefreshCandidate} {calls : List RefreshCall}
    (h : List.Forall₂ (ServedCandidate cipher key inputs base) done calls) :
    ((calls.flatMap RefreshCall.exchanged).map Prod.fst).Sublist (done.map RefreshCandidate.accountId) := by
  induction h with
  | nil => exact List.Sublist.refl []
  | cons hserved _ ih =>
    obtain ⟨_, row, hrow, ⟨hsilent, _⟩ | ⟨token, _, hsent⟩⟩ := hserved
    · rw [List.flatMap_cons, hsilent, List.nil_append]
      exact ih.cons _
    · rw [List.flatMap_cons, hsent, List.singleton_append, List.map_cons, key_of_rowOf Account.id hrow]
      exact ih.cons_cons _

theorem sent_of_mem {done : List RefreshCandidate} {calls : List RefreshCall}
    (h : List.Forall₂ (ServedCandidate cipher key inputs base) done calls) {candidate : RefreshCandidate}
    (hmem : candidate ∈ done) : ∃ call ∈ calls, ServedCandidate cipher key inputs base candidate call := by
  induction h with
  | nil => cases hmem
  | cons hserved _ ih =>
    obtain rfl | hmem := List.mem_cons.mp hmem
    · exact ⟨_, List.mem_cons_self, hserved⟩
    · obtain ⟨call, hcall, hserved⟩ := ih hmem
      exact ⟨call, List.mem_cons_of_mem _ hcall, hserved⟩

theorem own_of_sent {done : List RefreshCandidate} {calls : List RefreshCall}
    (h : List.Forall₂ (ServedCandidate cipher key inputs base) done calls) :
    ∀ sent ∈ calls.flatMap RefreshCall.exchanged, ∃ row, rowOf Account.id sent.1 base = some row ∧
      ownRefreshToken cipher key row = some sent.2 := by
  induction h with
  | nil => simp
  | cons hserved _ ih =>
    intro sent hsent
    rw [List.flatMap_cons, List.mem_append] at hsent
    obtain hsent | hsent := hsent
    · obtain ⟨_, row, hrow, ⟨hsilent, _⟩ | ⟨token, hown, hexchanged⟩⟩ := hserved
      · rw [hsilent] at hsent
        cases hsent
      · rw [hexchanged, List.mem_singleton] at hsent
        rw [hsent]
        exact ⟨row, by rwa [key_of_rowOf Account.id hrow], hown⟩
    · exact ih sent hsent

theorem sweptOwnRows_of_served {due : List RefreshCandidate} {sweep : Sweep}
    (hids : (due.map RefreshCandidate.accountId).Nodup) (h : ServesOwnRows cipher key inputs base due sweep) :
    SweptOwnRows cipher key inputs base due sweep where
  attempted := by
    intro candidate hmem
    rw [flatMap_read h.calls]
    exact List.count_eq_one_of_mem hids (List.mem_map_of_mem hmem)
  exchanged := by
    intro candidate hmem row hrow hreadable
    obtain ⟨call, hcall, _, row', hrow', hserved⟩ := sent_of_mem h.calls hmem
    cases hrow.symm.trans hrow'
    obtain ⟨_, hunreadable⟩ | ⟨token, hown, hsent⟩ := hserved
    · rw [hreadable] at hunreadable
      cases hunreadable
    · refine ⟨token, hown, List.count_eq_one_of_mem ?_ ?_⟩
      · exact ((exchanged_sublist h.calls).nodup hids).of_map
      · exact List.mem_flatMap.mpr ⟨call, hcall, by rw [hsent]; exact List.mem_singleton.mpr rfl⟩
  own := own_of_sent h.calls
  marked := h.marked

theorem sweptOwnRows_iff (hcipher : cipher.RoundTrips) (hnodup : (accounts.map Account.id).Nodup)
    (rawConfig : SchedulerConfig) (mode : SweepMode) (due : List RefreshCandidate)
    (hdue : due = (loadRefreshCandidates epochSeconds accounts).filter (isDue now (sanitizeConfig rawConfig) mode)) :
    SweptOwnRows cipher key inputs accounts due
      (runSweepOnce cipher key epochSeconds accounts now rawConfig mode inputs) ↔
      ∀ candidate ∈ due, ∀ row, rowOf Account.id candidate.accountId accounts = some row →
        FirstActive accounts candidate.chatgptAccountId row := by
  have hcandidates : ∀ candidate ∈ due, ∃ row ∈ accounts, isCandidateRow row = true ∧
      candidate = candidateOf epochSeconds row ∧ 0 < row.id ∧ candidate.chatgptAccountId ≠ [] := by
    intro candidate hmem
    rw [hdue] at hmem
    exact mem_loadRefreshCandidates (List.mem_filter.mp hmem).1
  have hforms : ∀ candidate ∈ due, ∃ row, candidate = candidateOf epochSeconds row := by
    intro candidate hmem
    obtain ⟨row, _, _, hform, _⟩ := hcandidates candidate hmem
    exact ⟨row, hform⟩
  have hids : (due.map RefreshCandidate.accountId).Nodup := by
    rw [hdue]
    exact (List.filter_sublist.map _).nodup (loadRefreshCandidates_nodup hnodup)
  have hfirst : ∀ candidate ∈ due, lookUp candidate.chatgptAccountId accounts = some candidate.accountId ↔
      ∀ row, rowOf Account.id candidate.accountId accounts = some row →
        FirstActive accounts candidate.chatgptAccountId row := by
    intro candidate hmem
    obtain ⟨row, hrow, _, rfl, _⟩ := hcandidates candidate hmem
    have hfound := rowOf_of_mem Account.id hnodup hrow
    change lookUp _ accounts = some row.id ↔ _
    rw [lookUp_eq_some_iff hnodup hrow]
    constructor
    · intro h row' hrow'
      cases hfound.symm.trans hrow'
      exact h
    · intro h
      exact h row hfound
  have hstart : ReadsByLookUp accounts
      { accounts := accounts, result := { scanned := (loadRefreshCandidates epochSeconds accounts).length } } :=
    ⟨rfl, fun _ => rfl, by simp⟩
  rw [runSweepOnce, ← hdue]
  constructor
  · intro h candidate hmem
    rw [← hfirst candidate hmem]
    have hreads : ReadsByLookUp accounts
        (due.foldl (sweepCandidate cipher key now (sanitizeConfig rawConfig) inputs) _) :=
      sweep_readsByLookUp hcipher hnodup hforms hstart
    obtain ⟨row, hrow, _, rfl, _⟩ := hcandidates candidate hmem
    apply lookUp_of_read hnodup hrow hreads
    rw [← List.count_pos_iff]
    exact (h.attempted _ hmem).symm ▸ Nat.one_pos
  · intro h
    have hlook : ∀ candidate ∈ due, lookUp candidate.chatgptAccountId accounts = some candidate.accountId := by
      intro candidate hmem
      exact (hfirst candidate hmem).mpr (h candidate hmem)
    have hserves : ServesOwnRows cipher key inputs accounts ([] ++ due)
        (due.foldl (sweepCandidate cipher key now (sanitizeConfig rawConfig) inputs) _) :=
      sweep_servesOwnRows hcipher hnodup hcandidates hlook hids hstart ⟨fun _ _ => rfl, .nil, by simp⟩
    exact sweptOwnRows_of_served hids hserves

/-- Token refreshes serve the rows they are asked for exactly where each of these is the first active row under its
trimmed workspace id. -/
theorem token_refresh_targets_iff (hcipher : cipher.RoundTrips) (key : SessionKey)
    (hnodup : (accounts.map Account.id).Nodup) :
    (∀ accountId nonce stamp input id row, parseAccountId accountId = some id →
      rowOf Account.id id accounts = some row →
      (refreshAccountToken cipher key accounts accountId nonce stamp input).response.status = 200 →
      ((∃ call, (refreshAccountToken cipher key accounts accountId nonce stamp input).call = some call ∧
          RefreshedOwnRow cipher key input accounts call row) ↔
        FirstActive accounts (cstr (trimAscii (row.chatgptAccountId.getD []))) row)) ∧
    ∀ epochSeconds now rawConfig mode inputs due,
      due = (loadRefreshCandidates epochSeconds accounts).filter (isDue now (sanitizeConfig rawConfig) mode) →
      (SweptOwnRows cipher key inputs accounts due
          (runSweepOnce cipher key epochSeconds accounts now rawConfig mode inputs) ↔
        ∀ candidate ∈ due, ∀ row, rowOf Account.id candidate.accountId accounts = some row →
          FirstActive accounts candidate.chatgptAccountId row) := by
  constructor
  · intro accountId nonce stamp input id row hid hrow hsuccess
    exact refreshedOwnRow_iff hcipher hnodup hid hrow hsuccess
  · intro epochSeconds now rawConfig mode inputs due hdue
    exact sweptOwnRows_iff hcipher hnodup rawConfig mode due hdue

def taggedCipher : TokenCipher := ⟨id, fun plaintext _ _ => some (1 :: plaintext), fun stored _ => some stored.tail⟩

theorem taggedCipher_roundTrips : taggedCipher.RoundTrips where
  decrypts := by
    intro plaintext key nonce encrypted h
    cases h
    exact ⟨List.cons_ne_nil _ _, rfl⟩

def memberAccount (id : ℤ) (workspace : String) : Account :=
  { id := id
    chatgptAccountId := some (ofString workspace)
    accessTokenEncrypted := some (ofString "a")
    refreshTokenEncrypted := some (ofString "r")
    status := active }

def renewed : RefreshInput := { provider := fun _ => .ok ⟨ofString "a1", ofString "r1", []⟩ }

def twoWorkspaces : Accounts := [memberAccount 1 "one", memberAccount 2 "two"]

def oneWorkspace : Accounts := [memberAccount 1 "one", memberAccount 2 "one"]

theorem each_workspace_is_served :
    (∃ call, (refreshAccountToken taggedCipher none twoWorkspaces (ofString "2") [] [] renewed).call = some call ∧
        RefreshedOwnRow taggedCipher none renewed twoWorkspaces call (memberAccount 2 "two")) ∧
      SweptOwnRows taggedCipher none (fun _ => renewed) twoWorkspaces
        ((loadRefreshCandidates (fun _ => none) twoWorkspaces).filter (isDue 0 (sanitizeConfig {}) .startup))
        (runSweepOnce taggedCipher none (fun _ => none) twoWorkspaces 0 {} .startup fun _ => renewed) := by
  have hkeys : (twoWorkspaces.map Account.id).Nodup := by decide
  obtain ⟨hrequest, hsweep⟩ := token_refresh_targets_iff taggedCipher_roundTrips none hkeys
  constructor
  · refine (hrequest (ofString "2") [] [] renewed 2 (memberAccount 2 "two") (by decide) rfl (by decide)).mpr
      ⟨by decide, ?_⟩
    exact ⟨[memberAccount 1 "one"], [], rfl, by decide⟩
  · refine (hsweep (fun _ => none) 0 {} .startup (fun _ => renewed) _ rfl).mpr ?_
    intro candidate hmem row hrow
    obtain ⟨row', hrow', _, rfl, _⟩ := mem_loadRefreshCandidates (List.mem_filter.mp hmem).1
    cases (rowOf_of_mem Account.id hkeys hrow').symm.trans hrow
    obtain rfl | rfl : row = memberAccount 1 "one" ∨ row = memberAccount 2 "two" := by simpa [twoWorkspaces] using hrow'
    · exact ⟨by decide, [], [memberAccount 2 "two"], rfl, by simp⟩
    · exact ⟨by decide, [memberAccount 1 "one"], [], rfl, by decide⟩

/-- The second member of a workspace is asked for, and the first one is refreshed. -/
theorem first_member_is_served :
    (refreshAccountToken taggedCipher none oneWorkspace (ofString "2") [] [] renewed).response.status = 200 ∧
      ¬ ∃ call, (refreshAccountToken taggedCipher none oneWorkspace (ofString "2") [] [] renewed).call = some call ∧
        RefreshedOwnRow taggedCipher none renewed oneWorkspace call (memberAccount 2 "one") := by
  refine ⟨by decide, ?_⟩
  rintro ⟨call, hcall, h⟩
  have hstored : call.stored = [1] := by
    cases hcall
    decide
  rw [h.stored] at hstored
  exact absurd hstored (by decide)

end Sweep

end Tightrope.Server
