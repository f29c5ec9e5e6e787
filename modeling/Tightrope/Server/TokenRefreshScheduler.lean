import Mathlib.Data.List.Sort
import Tightrope.Auth.Oauth.RefreshCall

namespace Tightrope.Server.TokenRefresh

open Auth.Crypto Auth.Oauth Bytes Tightrope.Core Db RowTable

structure RefreshCandidate where
  accountId : ℤ
  chatgptAccountId : Bytes
  label : Bytes
  lastSuccessAtMs : Option ℤ
  nextDueAtMs : Option ℤ
  deriving DecidableEq, Repr

structure SchedulerConfig where
  startupDelayMs : ℤ := 2000
  startupStaleAfterMs : ℤ := 4 * 60 * 60 * 1000
  periodicCheckIntervalMs : ℤ := 15 * 60 * 1000
  successCycleMs : ℤ := 24 * 60 * 60 * 1000
  failureRetryMs : ℤ := 4 * 60 * 60 * 1000
  stopPollIntervalMs : ℤ := 1000
  deriving DecidableEq, Repr

inductive SweepMode where
  | startup
  | periodic
  deriving DecidableEq, Repr

structure SweepResult where
  scanned : ℕ := 0
  due : ℕ := 0
  refreshed : ℕ := 0
  failed : ℕ := 0
  deriving DecidableEq, Repr

def sanitizeConfig (raw : SchedulerConfig) : SchedulerConfig :=
  { startupDelayMs := max 0 raw.startupDelayMs
    startupStaleAfterMs := max 1 raw.startupStaleAfterMs
    periodicCheckIntervalMs := max 1 raw.periodicCheckIntervalMs
    successCycleMs := max 1 raw.successCycleMs
    failureRetryMs := max 1 raw.failureRetryMs
    stopPollIntervalMs := max 1 raw.stopPollIntervalMs }

section Candidates

-- `strftime('%s', text)`
variable (epochSeconds : Bytes → Option ℤ)

def isCandidateRow (row : Account) : Bool :=
  row.status = active && (row.chatgptAccountId.any fun raw => sqlTrim raw ≠ []) &&
    (row.refreshTokenEncrypted.any fun token => cstr token ≠ [])

def candidateOf (row : Account) : RefreshCandidate :=
  let label := trimAscii (textOrEmpty row.email)
  { accountId := row.id
    chatgptAccountId := trimAscii (textOrEmpty row.chatgptAccountId)
    label := if label = [] then decimal row.id.toNat else label
    lastSuccessAtMs :=
      row.tokenRefreshLastSuccessAtMs.or
        (((row.lastRefresh.bind epochSeconds).filter fun seconds => 0 < seconds).map fun seconds => seconds * 1000)
    nextDueAtMs := row.tokenRefreshNextDueAtMs }

def loadRefreshCandidates (accounts : Accounts) : List RefreshCandidate :=
  (((accounts.mergeSort fun a b => a.id ≤ b.id).filter isCandidateRow).map (candidateOf epochSeconds)).filter
    fun candidate => 0 < candidate.accountId && candidate.chatgptAccountId ≠ []

def dueForStartup (candidate : RefreshCandidate) (now : ℤ) (config : SchedulerConfig) : Bool :=
  match candidate.lastSuccessAtMs with
  | none => true
  | some last => last < now && config.startupStaleAfterMs ≤ now - last

def dueForPeriodic (candidate : RefreshCandidate) (now : ℤ) (config : SchedulerConfig) : Bool :=
  match candidate.nextDueAtMs, candidate.lastSuccessAtMs with
  | some due, _ => due ≤ now
  | none, none => true
  | none, some last => last < now && config.successCycleMs ≤ now - last

def isDue (now : ℤ) (config : SchedulerConfig) (mode : SweepMode) (candidate : RefreshCandidate) : Bool :=
  match mode with
  | .startup => dueForStartup candidate now config
  | .periodic => dueForPeriodic candidate now config

end Candidates

def refreshErrorDetail (refresh : RefreshAccessTokenResult) : Bytes :=
  let code := trimAscii refresh.errorCode
  let message := trimAscii refresh.errorMessage
  if code = [] ∧ message = [] then ofString "token refresh failed"
  else if code = [] then message
  else if message = [] then code
  else code ++ ofString ": " ++ message

def attentionRow (errorDetail : Bytes) (nextDueAtMs : ℤ) (stamp : Bytes) (row : Account) : Account :=
  { row with
    tokenRefreshNeedsAttention := true
    tokenRefreshLastError := some (cstr (trimAscii errorDetail))
    tokenRefreshNextDueAtMs := some nextDueAtMs
    updatedAt := stamp }

def markAttention (accounts : Accounts) (accountId nextDueAtMs : ℤ) (errorDetail stamp : Bytes) : Accounts :=
  if accountId ≤ 0 then accounts
  else updateWhere (·.id = accountId) (attentionRow errorDetail nextDueAtMs stamp) accounts

structure Sweep where
  accounts : Accounts
  result : SweepResult := {}
  calls : List RefreshCall := []
  marked : List ℤ := []

def resultOf (call : RefreshCall) : RefreshAccessTokenResult :=
  match call.phase with
  | .finished result => result
  | _ => persistFailed

section Sweep

variable (cipher : TokenCipher) (key : SessionKey)

def sweepCandidate (now : ℤ) (config : SchedulerConfig) (inputs : ℤ → RefreshInput) (sweep : Sweep)
    (candidate : RefreshCandidate) : Sweep :=
  let input := inputs candidate.accountId
  let call := refreshAccessTokenForAccount cipher candidate.chatgptAccountId key input sweep.accounts
  let result := { sweep.result with due := sweep.result.due + 1 }
  if call.refreshed then
    { sweep with
      accounts := call.accounts
      result := { result with refreshed := result.refreshed + 1 }
      calls := sweep.calls ++ [call] }
  else
    { accounts := markAttention call.accounts candidate.accountId (now + config.failureRetryMs)
        (refreshErrorDetail (resultOf call)) input.now.stamp
      result := { result with failed := result.failed + 1 }
      calls := sweep.calls ++ [call]
      marked := sweep.marked ++ [candidate.accountId] }

def runSweepOnce (epochSeconds : Bytes → Option ℤ) (accounts : Accounts) (now : ℤ) (rawConfig : SchedulerConfig)
    (mode : SweepMode) (inputs : ℤ → RefreshInput) : Sweep :=
  let config := sanitizeConfig rawConfig
  let candidates := loadRefreshCandidates epochSeconds accounts
  (candidates.filter (isDue now config mode)).foldl (sweepCandidate cipher key now config inputs)
    { accounts := accounts, result := { scanned := candidates.length } }

end Sweep

theorem keepsLookup_attentionRow (errorDetail : Bytes) (nextDueAtMs : ℤ) (stamp : Bytes) :
    KeepsLookup (attentionRow errorDetail nextDueAtMs stamp) := ⟨fun _ => rfl, fun _ => rfl, fun _ h => h⟩

end Tightrope.Server.TokenRefresh
