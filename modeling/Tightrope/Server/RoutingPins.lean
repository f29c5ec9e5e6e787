import Tightrope.Db.SettingsRepo
import Tightrope.Library.Threads
import Tightrope.Server.RefreshTarget
import Tightrope.Server.UsageRefresh

namespace Tightrope.Server

open Bytes Tightrope.Core Db Proxy.Session RowTable Runs Threads Auth.Crypto Auth.Oauth

section Validation

structure UsageValidationResult where
  statusCode : ℤ := 0
  errorCode : Bytes := []
  message : Bytes := []
  deriving DecidableEq, Repr

def usageValidationIndicatesDeactivated (validation : UsageValidationResult) : Bool :=
  (validation.statusCode = 401 || validation.statusCode = 403) &&
    (toLowerAscii (trimAscii validation.errorCode) = ofString "account_deactivated" ||
      containsText (toLowerAscii validation.message) (ofString "deactivat"))

def usageValidationRequiresTokenRefresh (validation : UsageValidationResult) : Bool :=
  validation.statusCode = 401 && !usageValidationIndicatesDeactivated validation

def accountNotActive : AccountMutationResponse :=
  { status := 400
    code := ofString "account_not_active"
    message := ofString "Only active accounts can be pinned" }

def accountUsageUnavailable : AccountMutationResponse :=
  { status := 400
    code := ofString "account_usage_unavailable"
    message := ofString "Account usage credentials are unavailable" }

def usageRefreshPersistFailed : AccountMutationResponse :=
  { status := 500
    code := ofString "usage_refresh_persist_failed"
    message := ofString "Failed to persist usage telemetry" }

def accountLabel (account : Account) : Bytes :=
  if account.email.getD [] = [] then decimal account.id.toNat else account.email.getD []

def usageRefreshFailureMessage (validation : UsageValidationResult) (label : Bytes) : Bytes :=
  let normalized := trimAscii label
  let message := ofString "Failed to fetch usage telemetry from provider" ++
    (if normalized = [] then [] else ofString " for " ++ normalized) ++
    if 0 < validation.statusCode then ofString " (HTTP " ++ decimal validation.statusCode.toNat ++ ofString ")" else []
  let errorCode := trimAscii validation.errorCode
  let detail := trimAscii validation.message
  if errorCode = [] ∧ detail = [] then
    message ++ if validation.statusCode ≤ 0 then ofString ": no upstream status returned" else []
  else
    message ++ ofString ": " ++ (if errorCode = [] then [] else ofString "code=" ++ errorCode) ++
      if detail = [] then [] else (if errorCode = [] then [] else ofString ", ") ++ detail

def usageRefreshFailed (validation : UsageValidationResult) (existing : Account) : AccountMutationResponse :=
  { status := 502
    code := ofString "usage_refresh_failed"
    message := usageRefreshFailureMessage validation (accountLabel existing) }

end Validation

inductive PinCall where
  | pinAccount (accountId : Bytes)
  | unpinAccount (accountId : Bytes)
  | pauseAccount (accountId : Bytes)
  | reactivateAccount (accountId : Bytes)
  | deleteAccount (accountId : Bytes)
  | refreshAccountUsage (accountId : Bytes)
  | markUpstreamAccountUnusable (accountId : Bytes)
  | markUpstreamAccountExhausted (accountId status : Bytes)
  | refreshAccessToken (chatgptAccountId : Bytes)
  | updateDashboardSettings (patch : DashboardSettingsPatch)

inductive PinPhase where
  | pinChecking (id : ℤ)
  | pinning (id : ℤ)
  | unpinning (id : ℤ)
  | settingStatus (id : ℤ) (status : Bytes)
  | deleting (id : ℤ)
  | usageReading (id : ℤ)
  | usageCredentials (existing : Account)
  | usageFetching (existing : Account) (credentials : AccountUsageCredentials)
  | usageTokenRefresh (existing : Account) (credentials : AccountUsageCredentials) (validation : UsageValidationResult)
    (phase : RefreshPhase)
  | usageCredentialsAgain (existing : Account) (validation : UsageValidationResult)
  | usageFetchingAgain (existing : Account)
  | usageWriting (existing : Account) (usage : Account.UsageTelemetry)
  | markingUnusable (accountId : Bytes)
  | markingExhausted (accountId status : Bytes)
  | clearingPin (accountId : Bytes)
  | refreshing (chatgptAccountId : Bytes) (phase : RefreshPhase)
  | settingsReading (patch : DashboardSettingsPatch)
  | settingsWriting (patch : DashboardSettingsPatch) (current : DashboardSettingsRecord)
  | answering (id : ℤ)
  | answered (response : AccountMutationResponse)
  | done

structure PinInput where
  stamp : Bytes := []
  key : SessionKey
  nonce : Bytes := []
  refresh : RefreshInput
  snapshot : Option UsagePayloadSnapshot := none
  validation : UsageValidationResult := {}
  capturedNowMs : ℤ := 0

section Calls

def startOn (accountId : Bytes) (phase : ℤ → PinPhase) : PinPhase :=
  match parseAccountId accountId with
  | none => .answered notFound
  | some id => phase id

def startMark (accountId : Bytes) (phase : Bytes → PinPhase) : PinPhase :=
  if trimAscii accountId = [] then .done else phase (trimAscii accountId)

def startCall : PinCall → PinPhase
  | .pinAccount accountId => startOn accountId .pinChecking
  | .unpinAccount accountId => startOn accountId .unpinning
  | .pauseAccount accountId => startOn accountId fun id => .settingStatus id paused
  | .reactivateAccount accountId => startOn accountId fun id => .settingStatus id active
  | .deleteAccount accountId => startOn accountId .deleting
  | .refreshAccountUsage accountId => startOn accountId .usageReading
  | .markUpstreamAccountUnusable accountId => startMark accountId .markingUnusable
  | .markUpstreamAccountExhausted accountId status => startMark accountId fun id => .markingExhausted id status
  | .refreshAccessToken chatgptAccountId => .refreshing chatgptAccountId .selecting
  | .updateDashboardSettings patch => .settingsReading patch

def answerIf (written : Bool) (phase : PinPhase) : PinPhase := if written then phase else .answered notFound

def withoutSnapshot (existing : Account) (validation : UsageValidationResult) : PinPhase :=
  if usageValidationIndicatesDeactivated validation then .usageWriting existing { status := some deactivated }
  else .answered (usageRefreshFailed validation existing)

def afterFetch (input : PinInput) (existing : Account) : PinPhase :=
  match input.snapshot with
  | some snapshot => .usageWriting existing (usageTelemetry existing snapshot input.capturedNowMs)
  | none => withoutSnapshot existing input.validation

variable (cipher : TokenCipher)

def pinStep (store : SettingsStore) (phase : PinPhase) (input : PinInput) : SettingsStore × PinPhase :=
  match phase with
  | .pinChecking id =>
    match rowOf Account.id id store.accounts with
    | none => (store, .answered notFound)
    | some existing =>
      (store, if normalizeAccountStatus existing.status ≠ active then .answered accountNotActive else .pinning id)
  | .pinning id =>
    let (accounts, written) := setAccountRoutingPinned store.accounts id true input.stamp
    ({ store with accounts := accounts }, answerIf written (.answering id))
  | .unpinning id =>
    let (accounts, written) := setAccountRoutingPinned store.accounts id false input.stamp
    ({ store with accounts := accounts }, answerIf written (.answering id))
  | .settingStatus id status =>
    let (accounts, written) := updateAccountStatus store.accounts id status input.stamp
    ({ store with accounts := accounts }, answerIf written (.answering id))
  | .deleting id =>
    let (accounts, written) := deleteAccount store.accounts id
    ({ store with accounts := accounts }, answerIf written (.answered { status := 200 }))
  | .usageReading id =>
    match rowOf Account.id id store.accounts with
    | none => (store, .answered notFound)
    | some existing => (store, .usageCredentials existing)
  | .usageCredentials existing =>
    match accountUsageCredentials cipher input.key store.accounts existing.id input.nonce input.stamp with
    | (accounts, none) => ({ store with accounts := accounts }, .answered accountUsageUnavailable)
    | (accounts, some credentials) => ({ store with accounts := accounts }, .usageFetching existing credentials)
  | .usageFetching existing credentials =>
    (store, if input.snapshot.isNone ∧ usageValidationRequiresTokenRefresh input.validation then
      .usageTokenRefresh existing credentials input.validation .selecting else afterFetch input existing)
  | .usageTokenRefresh existing _ validation (.finished result) =>
    (store, if result.refreshed then .usageCredentialsAgain existing validation
      else withoutSnapshot existing validation)
  | .usageTokenRefresh existing credentials validation phase =>
    let (accounts, next) := advance cipher credentials.chatgptAccountId input.key store.accounts input.refresh phase
    ({ store with accounts := accounts }, .usageTokenRefresh existing credentials validation next)
  | .usageCredentialsAgain existing validation =>
    match accountUsageCredentials cipher input.key store.accounts existing.id input.nonce input.stamp with
    | (accounts, none) => ({ store with accounts := accounts }, withoutSnapshot existing validation)
    | (accounts, some _) => ({ store with accounts := accounts }, .usageFetchingAgain existing)
  | .usageFetchingAgain existing => (store, afterFetch input existing)
  | .usageWriting existing usage =>
    let (accounts, written) := updateAccountUsageTelemetry store.accounts existing.id usage input.stamp
    ({ store with accounts := accounts }, if written then .answering existing.id
      else .answered usageRefreshPersistFailed)
  | .markingUnusable accountId =>
    ({ store with accounts := markAccountUnusableByChatgptId store.accounts accountId input.stamp },
      .clearingPin accountId)
  | .markingExhausted accountId status =>
    ({ store with accounts := markAccountExhaustedByChatgptId store.accounts accountId status input.stamp },
      .clearingPin accountId)
  | .clearingPin accountId =>
    ({ store with accounts := clearAccountRoutingPinByChatgptAccountId store.accounts accountId input.stamp }, .done)
  | .refreshing chatgptAccountId phase =>
    let (accounts, next) := advance cipher chatgptAccountId input.key store.accounts input.refresh phase
    ({ store with accounts := accounts }, .refreshing chatgptAccountId next)
  | .settingsReading patch => (store, .settingsWriting patch store.settings)
  | .settingsWriting patch current => (Db.updateDashboardSettings patch input.stamp current store, .done)
  | .answering id =>
    (store, .answered (match rowOf Account.id id store.accounts with
      | none => notFound
      | some updated => { status := 200, account := some updated }))
  | .answered response => (store, .answered response)
  | .done => (store, .done)

end Calls

section OnePin

def lockPoolSize (store : SettingsStore) : ℕ := countLockedRoutingAccountIds (store.settings .lockedRoutingAccountIds)

/-- At most one account is pinned, a pinned one is active, and none is while the lock pool has two ids. -/
structure PinsHold (store : SettingsStore) : Prop where
  one : store.accounts.countP Account.routingPinned ≤ 1
  active : ∀ row ∈ store.accounts, row.routingPinned = true → row.status = active
  unlocked : 2 ≤ lockPoolSize store → ∀ row ∈ store.accounts, row.routingPinned = false

def PinPhase.PinsActive (store : SettingsStore) : PinPhase → Prop
  | .pinning id => 0 < id → ∀ row ∈ rowOf Account.id id store.accounts, row.status = active ∧ lockPoolSize store < 2
  | _ => True

def PinsActiveAlone (s : State SettingsStore PinPhase) : Action PinCall PinInput → Prop
  | .spawn _ => True
  | .move thread _ => ∀ phase ∈ s.threads[thread]?, phase.PinsActive s.shared

instance (store : SettingsStore) (phase : PinPhase) : Decidable (phase.PinsActive store) := by
  cases phase <;> unfold PinPhase.PinsActive <;> infer_instance

instance (s : State SettingsStore PinPhase) (action : Action PinCall PinInput) : Decidable (PinsActiveAlone s action) :=
  match action with
  | .spawn _ => inferInstanceAs (Decidable True)
  | .move thread _ => inferInstanceAs (Decidable (∀ phase ∈ s.threads[thread]?, phase.PinsActive s.shared))

end OnePin

section Rows

structure KeepsPin (row row' : Account) : Prop where
  id : row'.id = row.id
  pin : row'.routingPinned = true → row.routingPinned = true ∧ (row.status = active → row'.status = active)

theorem KeepsPin.refl (row : Account) : KeepsPin row row := ⟨rfl, fun h => ⟨h, fun hactive => hactive⟩⟩

theorem keepsPin_setWhere {p : Account → Bool} {f : Account → Account} (hf : ∀ row, KeepsPin row (f row))
    (row : Account) :
    KeepsPin row (setWhere p f row) := by
  unfold setWhere
  split_ifs
  · exact hf row
  · exact .refl row

theorem keepsPin_setRoutingPinned (stamp : Bytes) (row : Account) : KeepsPin row (row.setRoutingPinned false stamp) :=
  ⟨rfl, nofun⟩

theorem keepsPin_unpinnedRow (stamp : Bytes) (row : Account) : KeepsPin row (unpinnedRow stamp row) := ⟨rfl, nofun⟩

theorem keepsPin_setStatus (status stamp : Bytes) (row : Account) : KeepsPin row (row.setStatus status stamp) := by
  refine ⟨rfl, fun h => ?_⟩
  obtain ⟨hstatus, hpin⟩ : status = active ∧ row.routingPinned = true := by simpa [Account.setStatus] using h
  exact ⟨hpin, fun _ => hstatus⟩

theorem keepsPin_setUsageTelemetry (usage : Account.UsageTelemetry) (stamp : Bytes) (row : Account) :
    KeepsPin row (row.setUsageTelemetry usage stamp) := by
  refine ⟨rfl, fun h => ?_⟩
  obtain ⟨hstatus, hpin⟩ : usage.status.getD row.status = active ∧ row.routingPinned = true := by
    simpa [Account.setUsageTelemetry] using h
  exact ⟨hpin, fun _ => hstatus⟩

theorem keepsPin_unusableRow (stamp : Bytes) (row : Account) : KeepsPin row (unusableRow stamp row) := ⟨rfl, nofun⟩

theorem keepsPin_exhaustedRow (status stamp : Bytes) (row : Account) :
    KeepsPin row (exhaustedRow status stamp row) := by
  refine ⟨rfl, fun h => ?_⟩
  obtain ⟨hhand, hpin⟩ : isBlockedByHand row.status = true ∧ row.routingPinned = true := by
    simpa [exhaustedRow] using h
  refine ⟨hpin, fun hactive => ?_⟩
  change (if isBlockedByHand row.status then row.status else status) = active
  rw [if_pos hhand, hactive]

theorem keepsPin_accessTokenRow (stored stamp : Bytes) (row : Account) :
    KeepsPin row (accessTokenRow stored stamp row) :=
  ⟨rfl, fun h => ⟨h, fun hactive => hactive⟩⟩

theorem keepsPin_migratedTokensRow (record : StoredTokenRecord) (stamp : Bytes) (row : Account) :
    KeepsPin row (migratedTokensRow record stamp row) := ⟨rfl, fun h => ⟨h, fun hactive => hactive⟩⟩

theorem keepsPin_refreshedRow (encrypted : OAuthTokens) (now : SqlNow) (row : Account) :
    KeepsPin row (refreshedRow encrypted now row) := ⟨rfl, fun h => ⟨h, fun _ => rfl⟩⟩

theorem keepsPin_writeRow (now : SqlNow) (phase : RefreshPhase) (row : Account) :
    KeepsPin row (phase.writeRow now row) := by
  cases phase with
  | persisting record =>
    rw [RefreshPhase.writeRow]
    exact keepsPin_setWhere (keepsPin_migratedTokensRow record now.stamp) row
  | storing accountId encrypted =>
    rw [RefreshPhase.writeRow]
    exact keepsPin_setWhere (keepsPin_refreshedRow encrypted now) row
  | _ => exact .refl row

end Rows

section Tables

def Calm (accounts accounts' : Accounts) : Prop :=
  ∃ (kept : Account → Bool) (f : Account → Account), (∀ row, KeepsPin row (f row)) ∧
    accounts' = (accounts.filter kept).map f

theorem Calm.refl (accounts : Accounts) : Calm accounts accounts :=
  ⟨fun _ => true, id, KeepsPin.refl, by simp⟩

theorem calm_map {f : Account → Account} (hf : ∀ row, KeepsPin row (f row)) (accounts : Accounts) :
    Calm accounts (accounts.map f) :=
  ⟨fun _ => true, f, hf, by simp⟩

theorem calm_updateWhere {p : Account → Bool} {f : Account → Account} (hf : ∀ row, KeepsPin row (f row))
    (accounts : Accounts) : Calm accounts (updateWhere p f accounts) :=
  calm_map (keepsPin_setWhere hf) accounts

theorem calm_filter (kept : Account → Bool) (accounts : Accounts) : Calm accounts (accounts.filter kept) :=
  ⟨kept, id, KeepsPin.refl, by simp⟩

variable {accounts accounts' : Accounts}

theorem Calm.nodup (h : Calm accounts accounts') (hids : (accounts.map Account.id).Nodup) :
    (accounts'.map Account.id).Nodup := by
  obtain ⟨kept, f, hf, rfl⟩ := h
  have hsame : ((accounts.filter kept).map f).map Account.id = (accounts.filter kept).map Account.id := by
    rw [List.map_map]
    exact List.map_congr_left fun row _ => (hf row).id
  rw [hsame]
  exact hids.sublist (List.filter_sublist.map _)

theorem Calm.mem (h : Calm accounts accounts') {row' : Account} (hrow : row' ∈ accounts') :
    ∃ row ∈ accounts, KeepsPin row row' := by
  obtain ⟨kept, f, hf, rfl⟩ := h
  obtain ⟨row, hmem, rfl⟩ := List.mem_map.mp hrow
  exact ⟨row, List.mem_of_mem_filter hmem, hf row⟩

theorem Calm.countP_le (h : Calm accounts accounts') :
    accounts'.countP Account.routingPinned ≤ accounts.countP Account.routingPinned := by
  obtain ⟨kept, f, hf, rfl⟩ := h
  calc ((accounts.filter kept).map f).countP Account.routingPinned
      = (accounts.filter kept).countP (Account.routingPinned ∘ f) := List.countP_map
    _ ≤ (accounts.filter kept).countP Account.routingPinned :=
        List.countP_mono_left fun row _ hpin => ((hf row).pin hpin).1
    _ ≤ accounts.countP Account.routingPinned := List.filter_sublist.countP_le

theorem Calm.pinsHold {store : SettingsStore} (h : Calm store.accounts accounts') (hpins : PinsHold store) :
    PinsHold { store with accounts := accounts' } where
  one := h.countP_le.trans hpins.one
  active := by
    intro row' hrow hpin
    obtain ⟨row, hmem, hkeeps⟩ := h.mem hrow
    obtain ⟨hold, hactive⟩ := hkeeps.pin hpin
    exact hactive (hpins.active row hmem hold)
  unlocked := by
    intro hpool row' hrow
    obtain ⟨row, hmem, hkeeps⟩ := h.mem hrow
    rw [← Bool.not_eq_true]
    intro hpin
    have hfree := hpins.unlocked hpool row hmem
    rw [(hkeeps.pin hpin).1] at hfree
    cases hfree

end Tables

section Statements

variable (accounts : Accounts) (stamp : Bytes)

theorem calm_unpin (id : ℤ) : Calm accounts (setAccountRoutingPinned accounts id false stamp).1 := by
  unfold setAccountRoutingPinned
  simp only [Bool.false_eq_true, if_false]
  split_ifs
  · exact .refl accounts
  · exact calm_updateWhere (keepsPin_setRoutingPinned stamp) accounts

theorem calm_updateAccountStatus (id : ℤ) (status : Bytes) :
    Calm accounts (updateAccountStatus accounts id status stamp).1 := by
  unfold updateAccountStatus
  split_ifs
  · exact .refl accounts
  · exact calm_updateWhere (keepsPin_setStatus status stamp) accounts

theorem calm_updateAccountUsageTelemetry (id : ℤ) (usage : Account.UsageTelemetry) :
    Calm accounts (updateAccountUsageTelemetry accounts id usage stamp).1 := by
  unfold updateAccountUsageTelemetry
  split_ifs
  · exact .refl accounts
  · exact calm_updateWhere (keepsPin_setUsageTelemetry usage stamp) accounts

theorem calm_deleteAccount (id : ℤ) : Calm accounts (deleteAccount accounts id).1 := by
  unfold deleteAccount
  split_ifs
  · exact .refl accounts
  · exact calm_filter _ accounts

theorem calm_markAccountUnusable (accountId : Bytes) :
    Calm accounts (markAccountUnusableByChatgptId accounts accountId stamp) := by
  unfold markAccountUnusableByChatgptId
  split_ifs
  · exact .refl accounts
  · exact calm_updateWhere (keepsPin_unusableRow stamp) accounts

theorem calm_markAccountExhausted (accountId status : Bytes) :
    Calm accounts (markAccountExhaustedByChatgptId accounts accountId status stamp) := by
  unfold markAccountExhaustedByChatgptId
  split_ifs
  · exact .refl accounts
  · exact calm_updateWhere (keepsPin_exhaustedRow _ stamp) accounts

theorem calm_clearAccountRoutingPin (accountId : Bytes) :
    Calm accounts (clearAccountRoutingPinByChatgptAccountId accounts accountId stamp) := by
  unfold clearAccountRoutingPinByChatgptAccountId
  split_ifs
  · exact .refl accounts
  · exact calm_updateWhere (keepsPin_unpinnedRow stamp) accounts

theorem calm_advance (cipher : TokenCipher) (chatgptAccountId : Bytes) (key : SessionKey) (input : RefreshInput)
    (phase : RefreshPhase) : Calm accounts (advance cipher chatgptAccountId key accounts input phase).1 := by
  rw [advance_accounts]
  exact calm_map (keepsPin_writeRow input.now phase) accounts

theorem calm_normalizeAccessTokenStorage {cipher : TokenCipher} {key : SessionKey} {id : ℤ} {token nonce : Bytes}
    {normalized : Accounts × Bytes}
    (h : normalizeAccessTokenStorage cipher key accounts id token nonce stamp = some normalized) :
    Calm accounts normalized.1 := by
  obtain ⟨migrated, -, rfl⟩ := Option.map_eq_some_iff.mp h
  simp only
  split_ifs
  · exact calm_updateWhere (keepsPin_accessTokenRow migrated.1 stamp) accounts
  · exact .refl accounts

theorem calm_accountUsageCredentials (cipher : TokenCipher) (key : SessionKey) (id : ℤ) (nonce : Bytes) :
    Calm accounts (accountUsageCredentials cipher key accounts id nonce stamp).1 := by
  unfold accountUsageCredentials
  split_ifs
  · exact .refl accounts
  · split
    · exact .refl accounts
    · split
      · simp only
        split_ifs
        · exact .refl accounts
        · split
          · exact .refl accounts
          · rename_i hnormalized
            exact calm_normalizeAccessTokenStorage accounts stamp hnormalized
      · exact .refl accounts

end Statements

section Steps

variable (cipher : TokenCipher) {store : SettingsStore} {input : PinInput}

theorem pinStep_cases (store : SettingsStore) (phase : PinPhase) (input : PinInput) :
    (phase.PinsActive store ∧ ∃ accounts, Calm store.accounts accounts ∧
        (pinStep cipher store phase input).1 = { store with accounts := accounts }) ∨
      (∃ id, phase = .pinning id ∧ (pinStep cipher store phase input).1 =
        { store with accounts := (setAccountRoutingPinned store.accounts id true input.stamp).1 }) ∨
      ∃ patch current, phase = .settingsWriting patch current ∧
        (pinStep cipher store phase input).1 = Db.updateDashboardSettings patch input.stamp current store := by
  have hsame : ∃ accounts, Calm store.accounts accounts ∧ store = { store with accounts := accounts } :=
    ⟨store.accounts, .refl _, rfl⟩
  cases phase with
  | pinning id => exact .inr (.inl ⟨id, rfl, rfl⟩)
  | settingsWriting patch current => exact .inr (.inr ⟨patch, current, rfl, rfl⟩)
  | unpinning id => exact .inl ⟨trivial, _, calm_unpin _ input.stamp id, rfl⟩
  | settingStatus id status => exact .inl ⟨trivial, _, calm_updateAccountStatus _ input.stamp id status, rfl⟩
  | deleting id => exact .inl ⟨trivial, _, calm_deleteAccount _ id, rfl⟩
  | usageCredentials existing =>
    refine .inl ⟨trivial, _, calm_accountUsageCredentials _ input.stamp cipher input.key existing.id input.nonce, ?_⟩
    simp only [pinStep]
    split <;> rename_i h <;> rw [h]
  | usageCredentialsAgain existing validation =>
    refine .inl ⟨trivial, _, calm_accountUsageCredentials _ input.stamp cipher input.key existing.id input.nonce, ?_⟩
    simp only [pinStep]
    split <;> rename_i h <;> rw [h]
  | usageTokenRefresh existing credentials validation phase =>
    have hcalm := calm_advance store.accounts cipher credentials.chatgptAccountId input.key input.refresh phase
    cases phase with
    | finished result => exact .inl ⟨trivial, hsame⟩
    | _ => exact .inl ⟨trivial, _, hcalm, rfl⟩
  | usageWriting existing usage =>
    exact .inl ⟨trivial, _, calm_updateAccountUsageTelemetry _ input.stamp existing.id usage, rfl⟩
  | markingUnusable accountId => exact .inl ⟨trivial, _, calm_markAccountUnusable _ input.stamp accountId, rfl⟩
  | markingExhausted accountId status =>
    exact .inl ⟨trivial, _, calm_markAccountExhausted _ input.stamp accountId status, rfl⟩
  | clearingPin accountId => exact .inl ⟨trivial, _, calm_clearAccountRoutingPin _ input.stamp accountId, rfl⟩
  | refreshing chatgptAccountId phase =>
    exact .inl ⟨trivial, _, calm_advance _ cipher chatgptAccountId input.key input.refresh phase, rfl⟩
  | pinChecking id =>
    refine .inl ⟨trivial, store.accounts, .refl _, ?_⟩
    simp only [pinStep]
    split <;> rfl
  | usageReading id =>
    refine .inl ⟨trivial, store.accounts, .refl _, ?_⟩
    simp only [pinStep]
    split <;> rfl
  | _ => exact .inl ⟨trivial, hsame⟩

theorem calm_updateDashboardSettings (patch : DashboardSettingsPatch) (stamp : Bytes)
    (current : DashboardSettingsRecord)
    (store : SettingsStore) : Calm store.accounts (Db.updateDashboardSettings patch stamp current store).accounts := by
  unfold Db.updateDashboardSettings
  simp only
  split_ifs
  · have hclear : ∀ row : Account, KeepsPin row { row with routingPinned := false, updatedAt := stamp } :=
      fun row => ⟨rfl, fun h => by cases h⟩
    exact calm_updateWhere hclear store.accounts
  · exact .refl _

theorem pinsHold_updateDashboardSettings (patch : DashboardSettingsPatch) (stamp : Bytes)
    (current : DashboardSettingsRecord)
    (hpins : PinsHold store) : PinsHold (Db.updateDashboardSettings patch stamp current store) := by
  have hcalm := (calm_updateDashboardSettings patch stamp current store).pinsHold hpins
  refine ⟨hcalm.one, hcalm.active, ?_⟩
  unfold Db.updateDashboardSettings
  simp only
  split_ifs with hpool
  · intro _ row' hrow
    obtain ⟨row, -, rfl⟩ := mem_updateWhere.mp hrow
    unfold setWhere
    split_ifs with hpinned
    · rfl
    · exact Bool.eq_false_iff.mpr hpinned
  · exact fun hlocked => absurd hlocked hpool

end Steps

section Pinning

variable {store : SettingsStore} {stamp : Bytes} {id : ℤ}

theorem setAccountRoutingPinned_true (accounts : Accounts) :
    (setAccountRoutingPinned accounts id true stamp).1 =
      if 0 < id ∧ (rowOf Account.id id accounts).isSome = true then
        updateWhere (·.id = id) (Account.setRoutingPinned true stamp)
          (updateWhere Account.routingPinned (Account.setRoutingPinned false stamp) accounts)
      else accounts := by
  unfold setAccountRoutingPinned
  by_cases hid : id ≤ 0
  · rw [if_pos hid, if_neg fun h => absurd h.1 (not_lt.mpr hid)]
  · simp only [if_neg hid, if_true, not_le.mp hid, true_and]
    split_ifs <;> rfl

theorem status_pinned (row : Account) : (setWhere (·.id = id) (Account.setRoutingPinned true stamp)
    (setWhere Account.routingPinned (Account.setRoutingPinned false stamp) row)).status = row.status := by
  rw [setWhere_field (Account.setRoutingPinned_status true stamp),
    setWhere_field (Account.setRoutingPinned_status false stamp)]

variable (stamp) in
theorem routingPinned_pinned (row : Account) : (setWhere (·.id = id) (Account.setRoutingPinned true stamp)
    (setWhere Account.routingPinned (Account.setRoutingPinned false stamp) row)).routingPinned =
      decide (row.id = id) := by
  have hid : (setWhere Account.routingPinned (Account.setRoutingPinned false stamp) row).id = row.id :=
    setWhere_field (Account.setRoutingPinned_id false stamp) _ row
  by_cases h : row.id = id
  · rw [setWhere_of_pos (by simp [hid, h]), decide_eq_true h]
    rfl
  · rw [setWhere_of_neg (by simp [hid, h]), decide_eq_false h]
    unfold setWhere
    split_ifs with hpin
    · rfl
    · exact Bool.eq_false_iff.mpr hpin

theorem nodup_pinning (hids : (store.accounts.map Account.id).Nodup) :
    ((setAccountRoutingPinned store.accounts id true stamp).1.map Account.id).Nodup := by
  rw [setAccountRoutingPinned_true]
  split_ifs
  · rw [map_field_updateWhere (Account.setRoutingPinned_id true stamp),
      map_field_updateWhere (Account.setRoutingPinned_id false stamp)]
    exact hids
  · exact hids

variable (stamp) in
theorem one_pinning (hids : (store.accounts.map Account.id).Nodup)
    (hone : store.accounts.countP Account.routingPinned ≤ 1) (id : ℤ) :
    (setAccountRoutingPinned store.accounts id true stamp).1.countP Account.routingPinned ≤ 1 := by
  rw [setAccountRoutingPinned_true]
  split_ifs
  · rw [updateWhere, updateWhere, List.map_map, List.countP_map]
    have hcount : store.accounts.countP (fun row => row.id = id) ≤ 1 := by
      have hunique := List.nodup_iff_count_le_one.mp hids id
      rw [List.count, List.countP_map] at hunique
      exact hunique
    refine le_trans (List.countP_mono_left fun other _ hpin => ?_) hcount
    exact (routingPinned_pinned stamp other).symm.trans hpin
  · exact hone

theorem pinsHold_pinning_iff (hids : (store.accounts.map Account.id).Nodup) (hpins : PinsHold store) :
    PinsHold { store with accounts := (setAccountRoutingPinned store.accounts id true stamp).1 } ↔
      (PinPhase.pinning id).PinsActive store := by
  rw [setAccountRoutingPinned_true]
  by_cases hwritten : 0 < id ∧ (rowOf Account.id id store.accounts).isSome = true
  · obtain ⟨hpos, hsome⟩ := hwritten
    obtain ⟨row, hrow⟩ := Option.isSome_iff_exists.mp hsome
    have hid : row.id = id := key_of_rowOf Account.id hrow
    rw [if_pos ⟨hpos, hsome⟩, updateWhere, updateWhere, List.map_map]
    constructor
    · intro h _ found hfound
      obtain rfl := Option.some.inj (hrow.symm.trans hfound)
      have hmem := List.mem_map_of_mem (f := setWhere (·.id = id) (Account.setRoutingPinned true stamp) ∘
        setWhere Account.routingPinned (Account.setRoutingPinned false stamp)) (mem_of_rowOf Account.id hrow)
      have hpinned := (routingPinned_pinned stamp row).trans (decide_eq_true hid)
      refine ⟨(status_pinned row).symm.trans (h.active _ hmem hpinned), ?_⟩
      by_contra hpool
      have hfree := h.unlocked (not_lt.mp hpool) _ hmem
      exact Bool.noConfusion (hpinned.symm.trans hfree)
    · intro h
      obtain ⟨hactive, hpool⟩ := h hpos row hrow
      refine ⟨?_, ?_, fun hlocked => absurd hpool (not_lt.mpr hlocked)⟩
      · have hone := one_pinning stamp hids hpins.one id
        rwa [setAccountRoutingPinned_true, if_pos ⟨hpos, hsome⟩, updateWhere, updateWhere, List.map_map] at hone
      · intro row' hrow' hpin
        obtain ⟨other, hother, rfl⟩ := List.mem_map.mp hrow'
        have hsame : other.id = id := of_decide_eq_true ((routingPinned_pinned stamp other).symm.trans hpin)
        have hfound := rowOf_of_mem Account.id hids hother
        rw [hsame, hrow] at hfound
        obtain rfl := Option.some.inj hfound
        exact (status_pinned row).trans hactive
  · rw [if_neg hwritten]
    refine iff_of_true hpins fun hpos row hrow => ?_
    rw [not_and, hrow] at hwritten
    exact absurd rfl (hwritten hpos)

end Pinning

section Result

variable (cipher : TokenCipher)

theorem nodup_pinStep {store : SettingsStore} (phase : PinPhase) (input : PinInput)
    (hids : (store.accounts.map Account.id).Nodup) :
    ((pinStep cipher store phase input).1.accounts.map Account.id).Nodup := by
  obtain ⟨-, accounts, hcalm, heq⟩ | ⟨id, -, heq⟩ | ⟨patch, current, -, heq⟩ := pinStep_cases cipher store phase input
  · rw [heq]
    exact hcalm.nodup hids
  · rw [heq]
    exact nodup_pinning hids
  · rw [heq]
    exact (calm_updateDashboardSettings patch input.stamp current store).nodup hids

theorem pinsHold_pinStep_iff {store : SettingsStore} (phase : PinPhase) (input : PinInput)
    (hids : (store.accounts.map Account.id).Nodup) (hpins : PinsHold store) :
    PinsHold (pinStep cipher store phase input).1 ↔ phase.PinsActive store := by
  obtain ⟨hactive, accounts, hcalm, heq⟩ | ⟨id, rfl, heq⟩ | ⟨patch, current, rfl, heq⟩ :=
    pinStep_cases cipher store phase input
  · rw [heq]
    exact iff_of_true (hcalm.pinsHold hpins) hactive
  · rw [heq, pinsHold_pinning_iff hids hpins]
  · rw [heq]
    exact iff_of_true (pinsHold_updateDashboardSettings patch input.stamp current hpins) trivial

/-- The pins are right in every state of a run exactly where every step that pins finds its account active, and less
than two ids locked. -/
theorem pins_hold_iff {store : SettingsStore} (hids : (store.accounts.map Account.id).Nodup) (hpins : PinsHold store)
    (actions : List (Action PinCall PinInput)) :
    AllStates (step startCall (pinStep cipher)) (fun s => PinsHold s.shared) ⟨store, []⟩ actions ↔
      AllSteps (step startCall (pinStep cipher)) PinsActiveAlone ⟨store, []⟩ actions := by
  refine allStates_iff_allSteps_of_invariant _ (fun s => (s.shared.accounts.map Account.id).Nodup) ?_ ?_ hids hpins
  · intro s action hnodup
    obtain ⟨_, _, heq⟩ | ⟨_, _, _, _, heq⟩ | ⟨_, input, phase, _, _, heq⟩ :=
      step_cases startCall (pinStep cipher) s action
    · rw [heq]
      exact hnodup
    · rw [heq]
      exact hnodup
    · rw [heq]
      exact nodup_pinStep cipher phase input hnodup
  · intro s action hnodup hq
    obtain ⟨_, rfl, heq⟩ | ⟨i, _, rfl, hnone, heq⟩ | ⟨i, input, phase, rfl, hphase, heq⟩ :=
      step_cases startCall (pinStep cipher) s action
    · rw [heq]
      exact iff_of_true hq trivial
    · rw [heq]
      refine iff_of_true hq fun phase hphase => ?_
      rw [hnone] at hphase
      cases hphase
    · rw [heq, pinsHold_pinStep_iff cipher phase input hnodup hq]
      constructor
      · intro h other hother
        obtain rfl := Option.some.inj (hphase.symm.trans hother)
        exact h
      · exact fun h => h phase hphase

end Result

section One

variable (cipher : TokenCipher)

theorem one_pinStep {store : SettingsStore} (phase : PinPhase) (input : PinInput)
    (hids : (store.accounts.map Account.id).Nodup) (hone : store.accounts.countP Account.routingPinned ≤ 1) :
    (pinStep cipher store phase input).1.accounts.countP Account.routingPinned ≤ 1 := by
  obtain ⟨-, accounts, hcalm, heq⟩ | ⟨id, -, heq⟩ | ⟨patch, current, -, heq⟩ := pinStep_cases cipher store phase input
  · rw [heq]
    exact hcalm.countP_le.trans hone
  · rw [heq]
    exact one_pinning input.stamp hids hone id
  · rw [heq]
    exact (calm_updateDashboardSettings patch input.stamp current store).countP_le.trans hone

/-- Whatever the calls and the order of their statements, no two accounts are ever pinned together. -/
theorem never_two_pinned {store : SettingsStore} (hids : (store.accounts.map Account.id).Nodup)
    (hone : store.accounts.countP Account.routingPinned ≤ 1) (actions : List (Action PinCall PinInput)) :
    AllStates (step startCall (pinStep cipher)) (fun s => s.shared.accounts.countP Account.routingPinned ≤ 1)
      ⟨store, []⟩ actions := by
  have hboth : AllStates (step startCall (pinStep cipher))
      (fun s => (s.shared.accounts.map Account.id).Nodup ∧ s.shared.accounts.countP Account.routingPinned ≤ 1)
      ⟨store, []⟩ actions := by
    refine allStates_of_step _ ?_ ⟨hids, hone⟩ (allSteps_of_forall (step startCall (pinStep cipher)) fun _ _ => trivial)
    rintro s action ⟨hnodup, hpinned⟩ -
    obtain ⟨_, _, heq⟩ | ⟨_, _, _, _, heq⟩ | ⟨_, input, phase, _, _, heq⟩ :=
      step_cases startCall (pinStep cipher) s action
    · rw [heq]
      exact ⟨hnodup, hpinned⟩
    · rw [heq]
      exact ⟨hnodup, hpinned⟩
    · rw [heq]
      exact ⟨nodup_pinStep cipher phase input hnodup, one_pinStep cipher phase input hnodup hpinned⟩
  exact hboth.mono _ fun _ h => h.2

end One

section Cases

def pinStore : SettingsStore := { freshSettingsStore with accounts := [memberAccount 1 "one", memberAccount 2 "two"] }

def pinInput : PinInput := { key := none, refresh := renewed }

def lockBoth : DashboardSettingsPatch where
  values := single .lockedRoutingAccountIds (ofString "one,two")
  credentials := by
    intro column h
    refine single_of_ne _ ?_
    rintro rfl
    exact absurd h (by decide)

def pinStates (actions : List (Action PinCall PinInput)) : State SettingsStore PinPhase :=
  actions.foldl (step startCall (pinStep taggedCipher)) ⟨pinStore, []⟩

def pinnedInTurn : List (Action PinCall PinInput) :=
  [.spawn (.pinAccount (ofString "1")), .move 0 pinInput, .move 0 pinInput, .spawn (.pinAccount (ofString "2")),
    .move 1 pinInput, .move 1 pinInput, .spawn (.pauseAccount (ofString "1")), .move 2 pinInput]

def pausedBetween : List (Action PinCall PinInput) :=
  [.spawn (.pinAccount (ofString "1")), .move 0 pinInput, .spawn (.pauseAccount (ofString "1")), .move 1 pinInput,
    .move 0 pinInput]

def pinnedUnderLock : List (Action PinCall PinInput) :=
  [.spawn (.updateDashboardSettings lockBoth), .move 0 pinInput, .move 0 pinInput, .spawn (.pinAccount (ofString "1")),
    .move 1 pinInput, .move 1 pinInput]

theorem pinStore_pinsHold : PinsHold pinStore where
  one := by decide
  active := by decide
  unlocked := by decide

theorem pins_in_turn_hold :
    AllStates (step startCall (pinStep taggedCipher)) (fun s => PinsHold s.shared) ⟨pinStore, []⟩ pinnedInTurn := by
  refine (pins_hold_iff taggedCipher (by decide) pinStore_pinsHold pinnedInTurn).mpr ?_
  decide

/-- A paused account is left pinned; and so is an account while two ids are locked. -/
theorem pinned_while_paused_or_locked :
    (∃ row ∈ (pinStates pausedBetween).shared.accounts, row.routingPinned = true ∧ row.status = paused) ∧
      2 ≤ lockPoolSize (pinStates pinnedUnderLock).shared ∧
      ∃ row ∈ (pinStates pinnedUnderLock).shared.accounts, row.routingPinned = true := by
  decide

def pinnedAcross : List (Action PinCall PinInput) :=
  [.spawn (.pinAccount (ofString "1")), .spawn (.pinAccount (ofString "2")), .move 0 pinInput, .move 1 pinInput,
    .move 1 pinInput, .move 0 pinInput]

theorem pinned_across_one : AllStates (step startCall (pinStep taggedCipher))
    (fun s => s.shared.accounts.countP Account.routingPinned ≤ 1) ⟨pinStore, []⟩ pinnedAcross :=
  never_two_pinned taggedCipher (by decide) (by decide) pinnedAcross

end Cases

end Tightrope.Server
