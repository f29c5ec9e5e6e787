import Mathlib.Order.Lattice
import Tightrope.Auth.Crypto.TokenStore
import Tightrope.Core.Ascii
import Tightrope.Library.RowTable

namespace Tightrope.Db

open Bytes RowTable Auth.Crypto

-- A row of `accounts`; the times are those that SQLite writes.
structure Account where
  id : ℤ
  email : Option Bytes := none
  provider : Option Bytes := none
  chatgptAccountId : Option Bytes := none
  planType : Option Bytes := none
  accessTokenEncrypted : Option Bytes := none
  refreshTokenEncrypted : Option Bytes := none
  idTokenEncrypted : Option Bytes := none
  lastRefresh : Option Bytes := none
  tokenRefreshLastSuccessAtMs : Option ℤ := none
  tokenRefreshNextDueAtMs : Option ℤ := none
  tokenRefreshNeedsAttention : Bool := false
  tokenRefreshLastError : Option Bytes := none
  status : Bytes
  quotaPrimaryPercent : Option ℤ := none
  quotaSecondaryPercent : Option ℤ := none
  quotaPrimaryLimitWindowSeconds : Option ℤ := none
  quotaSecondaryLimitWindowSeconds : Option ℤ := none
  quotaPrimaryResetAtMs : Option ℤ := none
  quotaSecondaryResetAtMs : Option ℤ := none
  usageTelemetryRefreshedAt : Option Bytes := none
  routingPinned : Bool := false
  updatedAt : Bytes := []
  deriving DecidableEq, Repr

abbrev Accounts := List Account

def textOrEmpty (text : Option Bytes) : Bytes := cstr (text.getD [])

def active : Bytes := ofString "active"

def paused : Bytes := ofString "paused"

def deactivated : Bytes := ofString "deactivated"

def rateLimited : Bytes := ofString "rate_limited"

def quotaBlocked : Bytes := ofString "quota_blocked"

namespace Account

def setStatus (status stamp : Bytes) (row : Account) : Account :=
  { row with
    status := status
    routingPinned := if status = active then row.routingPinned else false
    updatedAt := stamp }

structure UsageTelemetry where
  quotaPrimaryPercent : Option ℤ := none
  quotaSecondaryPercent : Option ℤ := none
  planType : Option Bytes := none
  status : Option Bytes := none
  quotaPrimaryLimitWindowSeconds : Option ℤ := none
  quotaSecondaryLimitWindowSeconds : Option ℤ := none
  quotaPrimaryResetAtMs : Option ℤ := none
  quotaSecondaryResetAtMs : Option ℤ := none
  deriving DecidableEq, Repr

def setUsageTelemetry (usage : UsageTelemetry) (stamp : Bytes) (row : Account) : Account :=
  { row with
    quotaPrimaryPercent := usage.quotaPrimaryPercent
    quotaSecondaryPercent := usage.quotaSecondaryPercent
    quotaPrimaryLimitWindowSeconds := usage.quotaPrimaryLimitWindowSeconds
    quotaSecondaryLimitWindowSeconds := usage.quotaSecondaryLimitWindowSeconds
    quotaPrimaryResetAtMs := usage.quotaPrimaryResetAtMs
    quotaSecondaryResetAtMs := usage.quotaSecondaryResetAtMs
    usageTelemetryRefreshedAt := some stamp
    planType := usage.planType.or row.planType
    status := usage.status.getD row.status
    routingPinned := if usage.status.getD row.status = active then row.routingPinned else false
    updatedAt := stamp }

def setRoutingPinned (pinned : Bool) (stamp : Bytes) (row : Account) : Account :=
  { row with routingPinned := pinned, updatedAt := stamp }

@[simp] theorem setStatus_id (status stamp : Bytes) (row : Account) : (row.setStatus status stamp).id = row.id := rfl

@[simp] theorem setUsageTelemetry_id (usage : UsageTelemetry) (stamp : Bytes) (row : Account) :
    (row.setUsageTelemetry usage stamp).id = row.id := rfl

@[simp] theorem setRoutingPinned_id (pinned : Bool) (stamp : Bytes) (row : Account) :
    (row.setRoutingPinned pinned stamp).id = row.id := rfl

@[simp] theorem setRoutingPinned_status (pinned : Bool) (stamp : Bytes) (row : Account) :
    (row.setRoutingPinned pinned stamp).status = row.status := rfl

end Account

def updateAccountStatus (accounts : Accounts) (accountId : ℤ) (status stamp : Bytes) : Accounts × Bool :=
  if accountId ≤ 0 ∨ status = [] then (accounts, false)
  else (updateWhere (·.id = accountId) (Account.setStatus status stamp) accounts,
    (rowOf Account.id accountId accounts).isSome)

def updateAccountUsageTelemetry (accounts : Accounts) (accountId : ℤ) (usage : Account.UsageTelemetry)
    (stamp : Bytes) : Accounts × Bool :=
  if accountId ≤ 0 then (accounts, false)
  else (updateWhere (·.id = accountId) (Account.setUsageTelemetry usage stamp) accounts,
    (rowOf Account.id accountId accounts).isSome)

def deleteAccount (accounts : Accounts) (accountId : ℤ) : Accounts × Bool :=
  if accountId ≤ 0 then (accounts, false)
  else (accounts.filter fun row => row.id ≠ accountId, (rowOf Account.id accountId accounts).isSome)

def setAccountRoutingPinned (accounts : Accounts) (accountId : ℤ) (pinned : Bool) (stamp : Bytes) : Accounts × Bool :=
  if accountId ≤ 0 then (accounts, false)
  else if pinned then
    if (rowOf Account.id accountId accounts).isSome then
      (updateWhere (·.id = accountId) (Account.setRoutingPinned true stamp)
        (updateWhere Account.routingPinned (Account.setRoutingPinned false stamp) accounts), true)
    else (accounts, false)
  else (updateWhere (·.id = accountId) (Account.setRoutingPinned false stamp) accounts,
    (rowOf Account.id accountId accounts).isSome)

/-- The rows of `accounts` and the counter of its `AUTOINCREMENT` key. -/
structure AccountTable where
  rows : Accounts
  sequence : ℤ
  nodup : (rows.map Account.id).Nodup
  below : ∀ row ∈ rows, row.id ≤ sequence

structure OauthAccountUpsert where
  email : Bytes
  provider : Bytes
  chatgptAccountId : Option Bytes
  planType : Option Bytes
  accessToken : Bytes
  refreshToken : Bytes
  idToken : Bytes

structure SealedTokens where
  accessToken : Bytes
  refreshToken : Bytes
  idToken : Bytes
  deriving DecidableEq

namespace OauthAccountUpsert

variable (account : OauthAccountUpsert)

def sealTokens (cipher : TokenCipher) (key : SessionKey) (nonces : ℕ → Bytes) : Option SealedTokens := do
  let accessToken ← encryptTokenForStorage cipher key (nonces 0) account.accessToken
  let refreshToken ← encryptTokenForStorage cipher key (nonces 1) account.refreshToken
  let idToken ← encryptTokenForStorage cipher key (nonces 2) account.idToken
  return ⟨accessToken, refreshToken, idToken⟩

def setRow (tokens : SealedTokens) (stamp : Bytes) (row : Account) : Account :=
  { row with
    chatgptAccountId := account.chatgptAccountId
    planType := account.planType
    accessTokenEncrypted := some tokens.accessToken
    refreshTokenEncrypted := some tokens.refreshToken
    idTokenEncrypted := some tokens.idToken
    lastRefresh := some stamp
    status := active
    updatedAt := stamp }

@[simp] theorem setRow_id (tokens : SealedTokens) (stamp : Bytes) (row : Account) :
    (account.setRow tokens stamp row).id = row.id := rfl

def newRow (tokens : SealedTokens) (stamp : Bytes) (id : ℤ) : Account :=
  account.setRow tokens stamp { id, email := some account.email, provider := some account.provider, status := active }

def hasLogin (row : Account) : Bool := row.email = some account.email && row.provider = some account.provider

end OauthAccountUpsert

namespace AccountTable

variable (table : AccountTable)

def empty : AccountTable := ⟨[], 0, List.nodup_nil, by simp⟩

-- `LIMIT 1` takes the first row of the table.
def findLogin (account : OauthAccountUpsert) : Option Account := table.rows.find? account.hasLogin

def updateRow (id : ℤ) (f : Account → Account) (hf : ∀ row, (f row).id = row.id) : AccountTable where
  rows := updateWhere (·.id = id) f table.rows
  sequence := table.sequence
  nodup := by
    rw [map_field_updateWhere hf]
    exact table.nodup
  below := by
    intro row hrow
    obtain ⟨old, hold, rfl⟩ := mem_updateWhere.mp hrow
    rw [setWhere_field hf]
    exact table.below old hold

def insertRow (f : ℤ → Account) (hf : ∀ id, (f id).id = id) : AccountTable where
  rows := table.rows ++ [f (table.sequence + 1)]
  sequence := table.sequence + 1
  nodup := by
    rw [List.map_append, List.map_cons, List.map_nil, hf, List.nodup_append]
    refine ⟨table.nodup, List.nodup_cons.mpr ⟨List.not_mem_nil, List.nodup_nil⟩, ?_⟩
    intro id hid new hnew heq
    obtain ⟨row, hrow, rfl⟩ := List.mem_map.mp hid
    have hle := table.below row hrow
    have hsucc := List.mem_singleton.mp hnew
    omega
  below := by
    intro row hrow
    obtain hold | hnew := List.mem_append.mp hrow
    · have hle := table.below row hold
      omega
    · obtain rfl := List.mem_singleton.mp hnew
      exact (hf _).le

def maxRowid : ℤ := 2 ^ 63 - 1

def upsertOauthAccount (cipher : TokenCipher) (key : SessionKey) (nonces : ℕ → Bytes) (stamp : Bytes)
    (account : OauthAccountUpsert) : AccountTable × Bool :=
  if account.email = [] then (table, false)
  else match account.sealTokens cipher key nonces with
  | none => (table, false)
  | some tokens =>
    match table.findLogin account with
    | none =>
      if table.sequence < maxRowid then (table.insertRow (account.newRow tokens stamp) fun _ => rfl, true)
      else (table, false)
    | some existing => (table.updateRow existing.id (account.setRow tokens stamp) (account.setRow_id tokens stamp),
      true)

end AccountTable

end Tightrope.Db
