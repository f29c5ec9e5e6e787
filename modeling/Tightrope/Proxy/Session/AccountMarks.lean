import Tightrope.Db.Accounts

namespace Tightrope.Proxy.Session

open Bytes Tightrope.Core Db RowTable

def belowFull (percent : Option ℤ) : Bool := percent.all fun p => p < 100

def withinQuota (row : Account) : Bool := belowFull row.quotaPrimaryPercent && belowFull row.quotaSecondaryPercent

def isBlockedByHand (status : Bytes) : Bool := status = paused || status = deactivated

def hasChatgptId (accountId : Bytes) (row : Account) : Bool := row.chatgptAccountId = some accountId

section Marks

-- `kMarkAccountUnusableByChatgptIdSql`
def unusableRow (stamp : Bytes) (row : Account) : Account :=
  { row with status := deactivated, routingPinned := false, updatedAt := stamp }

def markAccountUnusableByChatgptId (accounts : Accounts) (accountId stamp : Bytes) : Accounts :=
  if accountId = [] then accounts
  else updateWhere (fun row => hasChatgptId (cstr (trimAscii accountId)) row &&
    (row.status ≠ deactivated || row.routingPinned)) (unusableRow stamp) accounts

def normalizeExhaustedStatus (status : Bytes) : Bytes :=
  if toLowerAscii (trimAscii status) = quotaBlocked then quotaBlocked else rateLimited

-- `kMarkAccountExhaustedByChatgptIdSql`
def exhaustedRow (status stamp : Bytes) (row : Account) : Account :=
  { row with
    status := if isBlockedByHand row.status then row.status else status
    quotaPrimaryPercent := if status = rateLimited ∨ status = quotaBlocked then some 100 else row.quotaPrimaryPercent
    quotaSecondaryPercent := if status = quotaBlocked then some 100 else row.quotaSecondaryPercent
    routingPinned := if isBlockedByHand row.status then row.routingPinned else false
    usageTelemetryRefreshedAt := some stamp
    updatedAt := stamp }

def markAccountExhaustedByChatgptId (accounts : Accounts) (accountId status stamp : Bytes) : Accounts :=
  if accountId = [] then accounts
  else updateWhere (hasChatgptId (cstr (trimAscii accountId))) (exhaustedRow (normalizeExhaustedStatus status) stamp)
    accounts

def unpinnedRow (stamp : Bytes) (row : Account) : Account := { row with routingPinned := false, updatedAt := stamp }

def clearAccountRoutingPinByChatgptAccountId (accounts : Accounts) (accountId stamp : Bytes) : Accounts :=
  if trimAscii accountId = [] then accounts
  else updateWhere (fun row => hasChatgptId (trimAscii accountId) row && row.routingPinned) (unpinnedRow stamp) accounts

def markUpstreamAccountUnusable (accounts : Accounts) (accountId stamp : Bytes) : Accounts :=
  if trimAscii accountId = [] then accounts
  else clearAccountRoutingPinByChatgptAccountId
    (markAccountUnusableByChatgptId accounts (trimAscii accountId) stamp) (trimAscii accountId) stamp

def markUpstreamAccountExhausted (accounts : Accounts) (accountId status stamp : Bytes) : Accounts :=
  if trimAscii accountId = [] then accounts
  else clearAccountRoutingPinByChatgptAccountId
    (markAccountExhaustedByChatgptId accounts (trimAscii accountId) status stamp) (trimAscii accountId) stamp

end Marks

section Recovery

-- `column IS NOT NULL AND column <= now`
def reached (resetAtMs : Option ℤ) (now : ℤ) : Bool := resetAtMs.any fun at_ => at_ ≤ now

def limitBlockExpired (now : ℤ) (row : Account) : Bool :=
  (row.status = rateLimited && reached row.quotaPrimaryResetAtMs now) ||
    (row.status = quotaBlocked && (reached row.quotaSecondaryResetAtMs now ||
      (row.quotaSecondaryResetAtMs.isNone && reached row.quotaPrimaryResetAtMs now)))

def recoveredRow (now : ℤ) (stamp : Bytes) (row : Account) : Account :=
  { row with
    status := active
    quotaPrimaryPercent :=
      if reached row.quotaPrimaryResetAtMs now then none
      else if row.status = quotaBlocked ∧ reached row.quotaSecondaryResetAtMs now then none
      else row.quotaPrimaryPercent
    quotaSecondaryPercent :=
      if reached row.quotaSecondaryResetAtMs now then none
      else if row.status = quotaBlocked ∧ row.quotaSecondaryResetAtMs.isNone ∧ reached row.quotaPrimaryResetAtMs now
      then none
      else row.quotaSecondaryPercent
    updatedAt := stamp }

def recoverExpiredAccountLimitBlocks (accounts : Accounts) (now : ℤ) (stamp : Bytes) : Accounts :=
  if now ≤ 0 then accounts else updateWhere (limitBlockExpired now) (recoveredRow now stamp) accounts

end Recovery

theorem reached_iff {resetAtMs : Option ℤ} {now : ℤ} :
    reached resetAtMs now = true ↔ ∃ reset, resetAtMs = some reset ∧ reset ≤ now := by
  cases resetAtMs <;> simp [reached]

theorem normalizeExhaustedStatus_cases (status : Bytes) :
    normalizeExhaustedStatus status = rateLimited ∨ normalizeExhaustedStatus status = quotaBlocked := by
  unfold normalizeExhaustedStatus
  split_ifs
  · exact .inr rfl
  · exact .inl rfl

section Rows

variable (accounts : Accounts) (accountId status stamp : Bytes)

@[simp] theorem unusableRow_id (row : Account) : (unusableRow stamp row).id = row.id := rfl

@[simp] theorem exhaustedRow_id (row : Account) : (exhaustedRow status stamp row).id = row.id := rfl

@[simp] theorem unpinnedRow_id (row : Account) : (unpinnedRow stamp row).id = row.id := rfl

@[simp] theorem recoveredRow_id (now : ℤ) (row : Account) : (recoveredRow now stamp row).id = row.id := rfl

def unusableStep (accountId stamp : Bytes) (row : Account) : Account :=
  setWhere (fun row => hasChatgptId (trimAscii accountId) row && row.routingPinned) (unpinnedRow stamp)
    (setWhere (fun row => hasChatgptId (cstr (trimAscii accountId)) row &&
      (row.status ≠ deactivated || row.routingPinned)) (unusableRow stamp) row)

def exhaustedStep (accountId status stamp : Bytes) (row : Account) : Account :=
  setWhere (fun row => hasChatgptId (trimAscii accountId) row && row.routingPinned) (unpinnedRow stamp)
    (setWhere (hasChatgptId (cstr (trimAscii accountId))) (exhaustedRow (normalizeExhaustedStatus status) stamp) row)

theorem unusableStep_id (row : Account) : (unusableStep accountId stamp row).id = row.id := by
  rw [unusableStep, setWhere_field (unpinnedRow_id stamp), setWhere_field (unusableRow_id stamp)]

theorem exhaustedStep_id (row : Account) : (exhaustedStep accountId status stamp row).id = row.id := by
  rw [exhaustedStep, setWhere_field (unpinnedRow_id stamp), setWhere_field (exhaustedRow_id _ stamp)]

theorem unusableStep_status (row : Account) :
    (unusableStep accountId stamp row).status =
      if hasChatgptId (cstr (trimAscii accountId)) row then deactivated else row.status := by
  rw [unusableStep, setWhere_field (g := Account.status) (f := unpinnedRow stamp) (fun _ => rfl), setWhere]
  by_cases hid : hasChatgptId (cstr (trimAscii accountId)) row = true
  · by_cases hstatus : row.status = deactivated <;> simp [hid, hstatus, unusableRow, apply_ite Account.status]
  · simp [hid]

theorem exhaustedStep_status (row : Account) :
    (exhaustedStep accountId status stamp row).status =
      if hasChatgptId (cstr (trimAscii accountId)) row ∧ !isBlockedByHand row.status then
        normalizeExhaustedStatus status
      else row.status := by
  rw [exhaustedStep, setWhere_field (g := Account.status) (f := unpinnedRow stamp) (fun _ => rfl), setWhere]
  by_cases hid : hasChatgptId (cstr (trimAscii accountId)) row = true
  · by_cases hhand : isBlockedByHand row.status = true <;> simp [hid, hhand, exhaustedRow]
  · simp [hid]

theorem unusableStep_chatgptAccountId (row : Account) :
    (unusableStep accountId stamp row).chatgptAccountId = row.chatgptAccountId := by
  rw [unusableStep, setWhere_field (g := Account.chatgptAccountId) (f := unpinnedRow stamp) fun _ => rfl,
    setWhere_field (g := Account.chatgptAccountId) (f := unusableRow stamp) fun _ => rfl]

theorem exhaustedStep_field {α : Type} {g : Account → α} (hunpinned : ∀ row, g (unpinnedRow stamp row) = g row)
    (hexhausted : ∀ row, g (exhaustedRow (normalizeExhaustedStatus status) stamp row) = g row) (row : Account) :
    g (exhaustedStep accountId status stamp row) = g row := by
  rw [exhaustedStep, setWhere_field hunpinned, setWhere_field hexhausted]

theorem markUpstreamAccountUnusable_eq (h : trimAscii accountId ≠ []) :
    markUpstreamAccountUnusable accounts accountId stamp = accounts.map (unusableStep accountId stamp) := by
  rw [markUpstreamAccountUnusable, if_neg h, clearAccountRoutingPinByChatgptAccountId, trimAscii_trimAscii, if_neg h,
    markAccountUnusableByChatgptId, if_neg h, trimAscii_trimAscii, updateWhere, updateWhere, List.map_map]
  rfl

theorem markUpstreamAccountExhausted_eq (h : trimAscii accountId ≠ []) :
    markUpstreamAccountExhausted accounts accountId status stamp =
      accounts.map (exhaustedStep accountId status stamp) := by
  rw [markUpstreamAccountExhausted, if_neg h, clearAccountRoutingPinByChatgptAccountId, trimAscii_trimAscii, if_neg h,
    markAccountExhaustedByChatgptId, if_neg h, trimAscii_trimAscii, updateWhere, updateWhere, List.map_map]
  rfl

end Rows

end Tightrope.Proxy.Session
