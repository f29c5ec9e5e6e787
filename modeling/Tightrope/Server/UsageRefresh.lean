import Tightrope.Library.Runs
import Tightrope.Proxy.Session.AccountMarks

namespace Tightrope.Server

open Bytes Tightrope.Core Db Proxy.Session RowTable Runs

structure UsageWindowSnapshot where
  usedPercent : Option ℤ := none
  limitWindowSeconds : Option ℤ := none
  resetAfterSeconds : Option ℤ := none
  resetAt : Option ℤ := none
  deriving DecidableEq, Repr

structure UsageRateLimitDetails where
  primaryWindow : Option UsageWindowSnapshot := none
  secondaryWindow : Option UsageWindowSnapshot := none
  deriving DecidableEq, Repr

structure UsagePayloadSnapshot where
  planType : Bytes := []
  rateLimit : Option UsageRateLimitDetails := none
  deriving DecidableEq, Repr

def normalizedPercent (value : Option ℤ) : Option ℤ := value.map fun percent => max 0 (min percent 100)

def normalizedWindowSeconds (value : Option ℤ) : Option ℤ := value.filter fun seconds => 0 < seconds

def kMaxUnixSecondsBeforeMsLikely : ℤ := 10000000000

def normalizedResetAtMs (window : UsageWindowSnapshot) (capturedNowMs : ℤ) : Option ℤ :=
  match window.resetAt.filter fun resetAt => 0 < resetAt with
  | some resetAt => some (if resetAt > kMaxUnixSecondsBeforeMsLikely then resetAt else resetAt * 1000)
  | none =>
    match window.resetAfterSeconds.filter fun seconds => 0 < seconds with
    | none => none
    | some seconds => if capturedNowMs > 2 ^ 63 - 1 - seconds * 1000 then none
      else some (capturedNowMs + seconds * 1000)

def normalizeAccountStatus (status : Bytes) : Bytes :=
  let normalized := toLowerAscii (trimAscii status)
  if normalized = ofString "quota_exceeded" then quotaBlocked else normalized

def isRecoverableAccountStatus (status : Bytes) : Bool :=
  status = [] || status = active || status = rateLimited || status = quotaBlocked

def isFreePlanType (planType : Bytes) : Bool :=
  let normalized := toLowerAscii (trimAscii planType)
  containsText normalized (ofString "free") || containsText normalized (ofString "guest")

def isFull (percent : Option ℤ) : Bool := percent.any fun p => 100 ≤ p

def freePlanStatus (status : Bytes) (primary secondary : Option ℤ) : Bytes :=
  match primary.or secondary with
  | none => status
  | some weekly =>
    if 100 ≤ weekly then quotaBlocked
    else if status = quotaBlocked ∨ status = rateLimited then active
    else status

def paidPlanStatus (status : Bytes) (primary secondary : Option ℤ) : Bytes :=
  if isFull secondary then quotaBlocked
  else if isFull primary then rateLimited
  else
    let status := if secondary.isSome ∧ status = quotaBlocked then active else status
    if primary.isSome ∧ status = rateLimited then active else status

def reconcileAccountStatusFromUsage (currentStatus : Bytes) (primary secondary : Option ℤ) (planType : Bytes) : Bytes :=
  let status := normalizeAccountStatus currentStatus
  if isBlockedByHand status || !isRecoverableAccountStatus status then status
  else
    let status := if status = [] then active else status
    if isFreePlanType planType then freePlanStatus status primary secondary
    else paidPlanStatus status primary secondary

def usageTelemetry (existing : Account) (snapshot : UsagePayloadSnapshot) (capturedNowMs : ℤ) :
    Account.UsageTelemetry :=
  let primaryWindow := snapshot.rateLimit.bind UsageRateLimitDetails.primaryWindow
  let secondaryWindow := snapshot.rateLimit.bind UsageRateLimitDetails.secondaryWindow
  let primary := normalizedPercent (primaryWindow.bind UsageWindowSnapshot.usedPercent)
  let secondary := normalizedPercent (secondaryWindow.bind UsageWindowSnapshot.usedPercent)
  let planType := trimAscii snapshot.planType
  let nextPlanType := if planType = [] then none else some planType
  { quotaPrimaryPercent := primary
    quotaSecondaryPercent := secondary
    planType := nextPlanType
    status := some (reconcileAccountStatusFromUsage existing.status primary secondary
      ((nextPlanType.or existing.planType).getD []))
    quotaPrimaryLimitWindowSeconds :=
      normalizedWindowSeconds (primaryWindow.bind UsageWindowSnapshot.limitWindowSeconds)
    quotaSecondaryLimitWindowSeconds :=
      normalizedWindowSeconds (secondaryWindow.bind UsageWindowSnapshot.limitWindowSeconds)
    quotaPrimaryResetAtMs := primaryWindow.bind fun window => normalizedResetAtMs window capturedNowMs
    quotaSecondaryResetAtMs := secondaryWindow.bind fun window => normalizedResetAtMs window capturedNowMs }

def refreshAccountUsage (accounts : Accounts) (accountId : ℤ) (snapshot : UsagePayloadSnapshot) (capturedNowMs : ℤ)
    (stamp : Bytes) : Accounts :=
  match rowOf Account.id accountId accounts with
  | none => accounts
  | some existing =>
    (updateAccountUsageTelemetry accounts accountId (usageTelemetry existing snapshot capturedNowMs) stamp).1

inductive QuotaOp where
  | usageRefresh (accountId : ℤ) (snapshot : UsagePayloadSnapshot) (capturedNowMs : ℤ) (stamp : Bytes)
  | markExhausted (accountId status stamp : Bytes)
  | recover (now : ℤ) (stamp : Bytes)
  deriving DecidableEq, Repr

def quotaStep (accounts : Accounts) : QuotaOp → Accounts
  | .usageRefresh accountId snapshot capturedNowMs stamp =>
    refreshAccountUsage accounts accountId snapshot capturedNowMs stamp
  | .markExhausted accountId status stamp => markUpstreamAccountExhausted accounts accountId status stamp
  | .recover now stamp => recoverExpiredAccountLimitBlocks accounts now stamp

structure NoQuotaData (row : Account) : Prop where
  primary : row.quotaPrimaryPercent = none
  secondary : row.quotaSecondaryPercent = none
  primaryReset : row.quotaPrimaryResetAtMs = none
  secondaryReset : row.quotaSecondaryResetAtMs = none

def RoutableWhenActive (row : Account) : Prop := row.status = active → withinQuota row = true

def PassesByPlan (row : Account) : Prop :=
  row.status = active → belowFull row.quotaPrimaryPercent = true ∧
    (belowFull row.quotaSecondaryPercent = true ∨
      isFreePlanType (row.planType.getD []) = true ∧ row.quotaPrimaryPercent.isSome)

def RecoversBelowFull (accountId : ℤ) (accounts : Accounts) : QuotaOp → Prop
  | .recover now _ => ∀ row, rowOf Account.id accountId accounts = some row → row.status = rateLimited →
      limitBlockExpired now row = true →
      belowFull row.quotaSecondaryPercent = true ∨ reached row.quotaSecondaryResetAtMs now = true
  | _ => True

theorem isFull_eq_false {percent : Option ℤ} : isFull percent = false ↔ belowFull percent = true := by
  cases percent with
  | none => simp [isFull, belowFull]
  | some p => simp [isFull, belowFull]

section Reconcile

variable {status : Bytes} {primary secondary : Option ℤ} {planType : Bytes}

theorem freePlanStatus_active (h : freePlanStatus status primary secondary = active) :
    belowFull primary = true ∧ (belowFull secondary = true ∨ primary.isSome) := by
  unfold freePlanStatus at h
  cases primary with
  | some p =>
    simp only [Option.some_or] at h
    split_ifs at h with hfull hblocked
    · exact absurd h (by decide)
    all_goals exact ⟨by simpa [belowFull] using hfull, .inr rfl⟩
  | none =>
    refine ⟨rfl, .inl ?_⟩
    cases secondary with
    | none => rfl
    | some s =>
      simp only [Option.none_or] at h
      split_ifs at h with hfull hblocked
      · exact absurd h (by decide)
      all_goals simpa [belowFull] using hfull

theorem paidPlanStatus_active (h : paidPlanStatus status primary secondary = active) :
    belowFull primary = true ∧ belowFull secondary = true := by
  unfold paidPlanStatus at h
  by_cases hsecondary : isFull secondary = true
  · rw [if_pos hsecondary] at h
    exact absurd h (by decide)
  by_cases hprimary : isFull primary = true
  · rw [if_neg hsecondary, if_pos hprimary] at h
    exact absurd h (by decide)
  exact ⟨isFull_eq_false.mp (by simpa using hprimary), isFull_eq_false.mp (by simpa using hsecondary)⟩

theorem reconcile_active (h : reconcileAccountStatusFromUsage status primary secondary planType = active) :
    belowFull primary = true ∧
      (belowFull secondary = true ∨ isFreePlanType planType = true ∧ primary.isSome) := by
  by_cases hfixed : (isBlockedByHand (normalizeAccountStatus status) ||
      !isRecoverableAccountStatus (normalizeAccountStatus status)) = true
  · simp only [reconcileAccountStatusFromUsage, hfixed, if_true] at h
    rw [h] at hfixed
    exact absurd hfixed (by decide)
  by_cases hplan : isFreePlanType planType = true
  · simp only [reconcileAccountStatusFromUsage, hfixed, hplan, if_true] at h
    obtain ⟨hprimary, hsecondary | hknown⟩ := freePlanStatus_active h
    · exact ⟨hprimary, .inl hsecondary⟩
    · exact ⟨hprimary, .inr ⟨hplan, hknown⟩⟩
  · simp only [reconcileAccountStatusFromUsage, hfixed, hplan] at h
    obtain ⟨hprimary, hsecondary⟩ := paidPlanStatus_active h
    exact ⟨hprimary, .inl hsecondary⟩

end Reconcile

section Rows

variable {row : Account}

theorem passesByPlan_of_inactive (h : row.status ≠ active) : PassesByPlan row := fun hactive => absurd hactive h

theorem passesByPlan_of_noQuotaData (h : NoQuotaData row) : PassesByPlan row := by
  intro _
  rw [h.primary, h.secondary]
  exact ⟨rfl, .inl rfl⟩

theorem passesByPlan_telemetry (existing : Account) (snapshot : UsagePayloadSnapshot) (capturedNowMs : ℤ)
    (stamp : Bytes) (hplan : row.planType = existing.planType) :
    PassesByPlan (row.setUsageTelemetry (usageTelemetry existing snapshot capturedNowMs) stamp) := by
  intro hactive
  rw [Account.setUsageTelemetry, ← hplan.symm] at *
  exact reconcile_active hactive

theorem exhaustedRow_inactive {status : Bytes} (stamp : Bytes) (h : status = rateLimited ∨ status = quotaBlocked) :
    (exhaustedRow status stamp row).status ≠ active := by
  change (if isBlockedByHand row.status then row.status else status) ≠ active
  intro hactive
  split_ifs at hactive with hhand
  · rw [hactive] at hhand
    exact absurd hhand (by decide)
  · rw [hactive] at h
    exact absurd h (by decide)

theorem exhaustedStep_passesByPlan (accountId status stamp : Bytes) (h : PassesByPlan row) :
    PassesByPlan (exhaustedStep accountId status stamp row) := by
  have hmarked : PassesByPlan (setWhere (hasChatgptId (cstr (trimAscii accountId)))
      (exhaustedRow (normalizeExhaustedStatus status) stamp) row) := by
    unfold setWhere
    split_ifs
    · exact passesByPlan_of_inactive (exhaustedRow_inactive stamp (normalizeExhaustedStatus_cases status))
    · exact h
  unfold exhaustedStep
  generalize setWhere _ (exhaustedRow _ _) row = marked at hmarked
  unfold setWhere
  split_ifs
  · exact hmarked
  · exact hmarked

theorem recoveredRow_passesByPlan {now : ℤ} (stamp : Bytes) (hexpired : limitBlockExpired now row = true)
    (hbelow : row.status = rateLimited →
      belowFull row.quotaSecondaryPercent = true ∨ reached row.quotaSecondaryResetAtMs now = true) :
    PassesByPlan (recoveredRow now stamp row) := by
  intro _
  unfold limitBlockExpired at hexpired
  simp only [Bool.or_eq_true, Bool.and_eq_true, decide_eq_true_eq] at hexpired
  obtain ⟨hlimited, hprimary⟩ | ⟨hblocked, hsecondary | ⟨hnone, hprimary⟩⟩ := hexpired
  · have hnot : row.status ≠ quotaBlocked := by
      rw [hlimited]
      decide
    refine ⟨by simp [recoveredRow, hprimary, belowFull], .inl ?_⟩
    simp only [recoveredRow, hnot, false_and, ite_false]
    obtain hok | hreset := hbelow hlimited
    · split_ifs
      · rfl
      · exact hok
    · rw [if_pos hreset]
      rfl
  · refine ⟨?_, .inl (by simp [recoveredRow, hsecondary, belowFull])⟩
    simp only [recoveredRow, hblocked, hsecondary, and_self, ite_true, ite_self]
    rfl
  · refine ⟨by simp [recoveredRow, hprimary, belowFull], .inl ?_⟩
    simp only [recoveredRow, hblocked, hnone, hprimary, and_self, ite_true, ite_self]
    rfl

end Rows

section Runs

variable {accounts : Accounts} {accountId : ℤ}

theorem rowOf_recover (now : ℤ) (stamp : Bytes) :
    rowOf Account.id accountId (recoverExpiredAccountLimitBlocks accounts now stamp) =
      (rowOf Account.id accountId accounts).map fun row =>
        if now ≤ 0 then row else setWhere (limitBlockExpired now) (recoveredRow now stamp) row := by
  unfold recoverExpiredAccountLimitBlocks
  split_ifs
  · exact Option.map_id'.symm
  · exact rowOf_updateWhere Account.id (recoveredRow_id stamp now) _ _ _

theorem quotaStep_passesByPlan {op : QuotaOp} (h : ∀ row, rowOf Account.id accountId accounts = some row →
    PassesByPlan row)
    (hop : RecoversBelowFull accountId accounts op) :
    ∀ row, rowOf Account.id accountId (quotaStep accounts op) = some row → PassesByPlan row := by
  intro row hrow
  cases op with
  | usageRefresh refreshed snapshot capturedNowMs stamp =>
    rw [quotaStep, refreshAccountUsage] at hrow
    cases hexisting : rowOf Account.id refreshed accounts with
    | none =>
      simp only [hexisting] at hrow
      exact h row hrow
    | some existing =>
      simp only [hexisting, updateAccountUsageTelemetry] at hrow
      split_ifs at hrow with hid
      · exact h row hrow
      rw [rowOf_updateWhere Account.id (Account.setUsageTelemetry_id _ stamp), Option.map_eq_some_iff] at hrow
      obtain ⟨old, hold, rfl⟩ := hrow
      unfold setWhere
      split_ifs with hsame
      · have hsameId : refreshed = accountId := by
          rw [← key_of_rowOf Account.id hold]
          exact (of_decide_eq_true hsame).symm
        have hsameRow : old = existing := Option.some.inj (hold.symm.trans (hsameId ▸ hexisting))
        exact passesByPlan_telemetry existing snapshot capturedNowMs stamp (congrArg Account.planType hsameRow)
      · exact h old hold
  | markExhausted chatgptId status stamp =>
    by_cases hid : trimAscii chatgptId = []
    · rw [quotaStep, markUpstreamAccountExhausted, if_pos hid] at hrow
      exact h row hrow
    · rw [quotaStep, markUpstreamAccountExhausted_eq _ _ _ _ hid,
        rowOf_map Account.id (exhaustedStep_id chatgptId status stamp), Option.map_eq_some_iff] at hrow
      obtain ⟨old, hold, rfl⟩ := hrow
      exact exhaustedStep_passesByPlan chatgptId status stamp (h old hold)
  | recover now stamp =>
    rw [quotaStep, rowOf_recover, Option.map_eq_some_iff] at hrow
    obtain ⟨old, hold, rfl⟩ := hrow
    split_ifs
    · exact h old hold
    · unfold setWhere
      split_ifs with hexpired
      · exact recoveredRow_passesByPlan stamp hexpired fun hlimited => hop old hold hlimited hexpired
      · exact h old hold

/-- In every run that lifts no rate limit over a full secondary quota, an active account passes the quota filter, on a
free plan by its primary percentage. -/
theorem active_accounts_pass_by_plan {ops : List QuotaOp}
    (hstart : ∀ row, rowOf Account.id accountId accounts = some row → NoQuotaData row)
    (hops : AllSteps quotaStep (RecoversBelowFull accountId) accounts ops) :
    AllStates quotaStep (fun accounts => ∀ row, rowOf Account.id accountId accounts = some row → PassesByPlan row)
      accounts ops := by
  apply allStates_of_step quotaStep (P := RecoversBelowFull accountId) ?_ ?_ hops
  · intro accounts op h hop
    exact quotaStep_passesByPlan h hop
  · intro row hrow
    exact passesByPlan_of_noQuotaData (hstart row hrow)

def usageOf (planType : String) (primary secondary : ℤ) : UsagePayloadSnapshot :=
  { planType := ofString planType
    rateLimit := some { primaryWindow := some { usedPercent := some primary, resetAt := some 2000 }
                        secondaryWindow := some { usedPercent := some secondary } } }

def newAccount : Account := { id := 1, chatgptAccountId := some (ofString "acc"), status := active }

theorem limited_account_recovers :
    AllStates quotaStep (fun accounts => ∀ row, rowOf Account.id 1 accounts = some row → PassesByPlan row)
      [newAccount] [.usageRefresh 1 (usageOf "plus" 100 20) 1000 [], .recover 3000000 []] := by
  apply active_accounts_pass_by_plan
  · intro row hrow
    cases hrow
    exact ⟨rfl, rfl, rfl, rfl⟩
  · refine ⟨trivial, ?_, trivial⟩
    intro row hrow _ _
    cases hrow
    exact .inl rfl

/-- The status of a free account goes by its primary percentage, the routing queries go by both. -/
theorem free_account_is_active_but_full :
    NoQuotaData newAccount ∧
      ¬ AllStates quotaStep (fun accounts => ∀ row, rowOf Account.id 1 accounts = some row → RoutableWhenActive row)
        [newAccount] [.usageRefresh 1 (usageOf "free" 12 100) 1000 []] := by
  refine ⟨⟨rfl, rfl, rfl, rfl⟩, ?_⟩
  intro h
  exact absurd (h.2 _ rfl (by decide)) (by decide)

end Runs

end Tightrope.Server
