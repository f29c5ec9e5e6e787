import Tightrope.Db.ResponseContinuity
import Tightrope.Library.Bytes
import Tightrope.Library.FlatMap
import Tightrope.Library.Runs
import Tightrope.Proxy.Headers

namespace Tightrope.Proxy.Session

open Bytes Tightrope.Core Db Runs

structure BridgeSession where
  key : Bytes
  upstreamSessionId : Bytes
  updatedAtMs : ℤ := 0
  deriving DecidableEq

structure SessionBridge where
  ttlMs : ℤ
  sessions : FlatMap Bytes BridgeSession := .empty
  deriving DecidableEq

namespace SessionBridge

def ofTtl (ttlMs : ℤ) : SessionBridge := { ttlMs := max 1 ttlMs }

def isStale (b : SessionBridge) (session : BridgeSession) (nowMs : ℤ) : Bool :=
  if nowMs < session.updatedAtMs then false else nowMs - session.updatedAtMs ≥ b.ttlMs

def store (b : SessionBridge) (key : Bytes) (session : BridgeSession) : SessionBridge :=
  { b with sessions := b.sessions.insert key session }

def upsert (b : SessionBridge) (key upstreamSessionId : Bytes) (nowMs : ℤ) : SessionBridge :=
  match b.sessions.find? key with
  | none => b.store key ⟨key, upstreamSessionId, nowMs⟩
  | some session => b.store key { session with upstreamSessionId := upstreamSessionId, updatedAtMs := nowMs }

def find (b : SessionBridge) (key : Bytes) (nowMs : ℤ) : Option BridgeSession :=
  match b.sessions.find? key with
  | none => none
  | some session => if b.isStale session nowMs then none else some session

def purgeStale (b : SessionBridge) (nowMs : ℤ) : SessionBridge :=
  { b with sessions := b.sessions.filter fun _ session => !b.isStale session nowMs }

def clear (b : SessionBridge) : SessionBridge := { b with sessions := .empty }

def held (b : SessionBridge) (key : Bytes) : Option Bytes := (b.sessions.find? key).map (·.upstreamSessionId)

variable {b : SessionBridge} {key key' id : Bytes} {now : ℤ} {session : BridgeSession}

theorem upsert_eq_store (b : SessionBridge) (key id : Bytes) (now : ℤ) :
    ∃ session, b.upsert key id now = b.store key session ∧ session.upstreamSessionId = id ∧
    session.updatedAtMs = now := by
  unfold upsert
  split
  · exact ⟨_, rfl, rfl, rfl⟩
  · exact ⟨_, rfl, rfl, rfl⟩

theorem held_upsert : (b.upsert key id now).held key' = if key' = key then some id else b.held key' := by
  obtain ⟨session, hstore, rfl, -⟩ := upsert_eq_store b key id now
  rw [hstore, held, store, FlatMap.find?_insert]
  split_ifs <;> rfl

theorem find_eq_filter : b.find key now = (b.sessions.find? key).filter fun session => !b.isStale session now := by
  unfold find
  split
  · rename_i hnone
    rw [hnone]
    rfl
  · rename_i session hsession
    rw [hsession, Option.filter_some]
    cases b.isStale session now <;> rfl

theorem held_of_find (h : b.find key now = some session) : b.held key = some session.upstreamSessionId := by
  rw [find_eq_filter] at h
  rw [held, (Option.filter_eq_some_iff.mp h).1]
  rfl

theorem find_purgeStale : (b.purgeStale now).find key now = b.find key now := by
  rw [find_eq_filter, find_eq_filter, purgeStale, FlatMap.find?_filter, Option.filter_filter]
  congr 1
  funext session
  exact Bool.and_self _

theorem held_of_purgeStale (h : (b.purgeStale now).held key = some id) : b.held key = some id := by
  rw [held, purgeStale, FlatMap.find?_filter] at h
  obtain ⟨session, hsession, rfl⟩ := Option.map_eq_some_iff.mp h
  rw [held, (Option.filter_eq_some_iff.mp hsession).1]
  rfl

theorem find_upsert_self (hnow : 0 < b.ttlMs) : ∃ session, (b.upsert key id now).find key now = some session ∧
    session.upstreamSessionId = id := by
  obtain ⟨session, hstore, hid, rfl⟩ := upsert_eq_store b key id now
  refine ⟨session, ?_, hid⟩
  rw [hstore, find, store, FlatMap.find?_insert, if_pos rfl]
  have hfresh : isStale ⟨b.ttlMs, b.sessions.insert key session⟩ session session.updatedAtMs = false := by
    simp only [isStale, lt_self_iff_false, ↓reduceIte, sub_self, ge_iff_le, decide_eq_false_iff_not, not_le]
    exact hnow
  simp [hfresh]

end SessionBridge

def bridgeTtlMs : ℤ := 30 * 60 * 1000

def persistenceCleanupIntervalMs : ℤ := 60 * 1000

def bar : UInt8 := 124

def scopeLabel : Bytes := ofString "api_key_scope:"

section Keys

def continuityKey (codexSessionId clientSessionId turnState : Bytes) : Option Bytes :=
  if turnState ≠ [] then some turnState
  else if codexSessionId ≠ [] ∧ clientSessionId ≠ [] then
    if codexSessionId = clientSessionId then some codexSessionId
    else some (ofString "codex:" ++ codexSessionId ++ ofString "|client:" ++ clientSessionId)
  else if codexSessionId ≠ [] then some codexSessionId
  else if clientSessionId ≠ [] then some clientSessionId
  else none

def continuityKeyFromHeaders (headers : HeaderMap) : Option Bytes :=
  continuityKey (headers.findCaseInsensitive codexSessionIdName) (headers.findCaseInsensitive sessionIdName)
    (headers.findCaseInsensitive turnStateName)

def apiKeyScopeFromHeaders (headers : HeaderMap) : Bytes := headers.findCaseInsensitive apiKeyIdName

def accountIdFromHeaders (headers : HeaderMap) : Bytes := headers.findCaseInsensitive accountIdName

-- `generated` is what `generate_turn_state` would return.
def ensureTurnStateHeader (order : IterationOrder) (headers : HeaderMap) (generated : Bytes) : HeaderMap :=
  order.assign headers turnStateName
    (if headers.findCaseInsensitive turnStateName = [] then (continuityKeyFromHeaders headers).getD generated
      else headers.findCaseInsensitive turnStateName)

def rememberedAccountId (headers : HeaderMap) (resolvedAccountId : Bytes) : Bytes :=
  if trimAscii resolvedAccountId = [] then accountIdFromHeaders headers else trimAscii resolvedAccountId

def scopedBridgeKey (continuityKey apiKeyScope : Bytes) : Bytes :=
  if apiKeyScope = [] then continuityKey else scopeLabel ++ apiKeyScope ++ [bar] ++ continuityKey

end Keys

inductive DbAccess where
  | unavailable
  | failing
  | available
  deriving DecidableEq

inductive RequestBody where
  | notAnObject
  | object (previousResponseId : Option Bytes)
  deriving DecidableEq

def RequestBody.previousResponseId : RequestBody → Option Bytes
  | .notAnObject => none
  | .object previous => previous

structure BridgeState where
  bridge : SessionBridge := .ofTtl bridgeTtlMs
  rows : ResponseContinuityTable := []
  lastCleanupMs : ℤ := 0
  deriving DecidableEq

namespace BridgeState

def purgeStale (s : BridgeState) (now : ℤ) : BridgeState := { s with bridge := s.bridge.purgeStale now }

def maybePurgeExpired (s : BridgeState) (db : DbAccess) (now : ℤ) : BridgeState :=
  if db = .unavailable then s
  else if s.lastCleanupMs > 0 ∧ now - s.lastCleanupMs < persistenceCleanupIntervalMs then s
  else { s with rows := if db = .available then s.rows.purgeExpired now else s.rows, lastCleanupMs := now }

def findRow (s : BridgeState) (db : DbAccess) (key scope : Bytes) (now : ℤ) : Option ProxyResponseContinuityRecord :=
  if db = .available then s.rows.find key scope now else none

def findRowByResponseId (s : BridgeState) (db : DbAccess) (responseId scope : Bytes) (now : ℤ) :
    Option ProxyResponseContinuityRecord :=
  if db = .available then s.rows.findByResponseId responseId scope now else none

def storeResponse (s : BridgeState) (key scope response account recoveryInputJson : Bytes) (db : DbAccess) (now : ℤ) :
    BridgeState :=
  { s with
    bridge := (s.bridge.upsert (scopedBridgeKey key scope) response now).purgeStale now
    rows := if db = .available then
        s.rows.upsert key scope response account now bridgeTtlMs recoveryInputJson
      else s.rows : BridgeState }.maybePurgeExpired db now

def rememberResponseId (s : BridgeState) (headers : HeaderMap) (responseId : Option Bytes)
    (resolvedAccountId recoveryInputJson : Bytes) (db : DbAccess) (now : ℤ) : BridgeState :=
  match responseId, continuityKeyFromHeaders headers with
  | some response, some key =>
    if response = [] ∨ key = [] then s
    else s.storeResponse key (apiKeyScopeFromHeaders headers) response (rememberedAccountId headers resolvedAccountId)
      recoveryInputJson db now
  | _, _ => s

def restoreFromRows (s : BridgeState) (key scope : Bytes) (db : DbAccess) (now : ℤ) : BridgeState × Option Bytes :=
  match s.findRow db key scope now with
  | some persisted =>
    if persisted.responseId = [] then (s.maybePurgeExpired db now, none)
    else (({ s with bridge := s.bridge.upsert (scopedBridgeKey key scope) persisted.responseId now }
        : BridgeState).maybePurgeExpired db now, some persisted.responseId)
  | none => (s.maybePurgeExpired db now, none)

def bridgedPreviousResponseId (s : BridgeState) (key scope : Bytes) (db : DbAccess) (now : ℤ) :
    BridgeState × Option Bytes :=
  match (s.bridge.find (scopedBridgeKey key scope) now).filter (·.upstreamSessionId ≠ []) with
  | some existing => (s.purgeStale now, some existing.upstreamSessionId)
  | none =>
    let restored := s.restoreFromRows key scope db now
    (restored.1.purgeStale now, restored.2)

def injectPreviousResponseId (s : BridgeState) (body : RequestBody) (headers : HeaderMap) (db : DbAccess) (now : ℤ) :
    BridgeState × Option Bytes :=
  match body.previousResponseId, continuityKeyFromHeaders headers with
  | none, some key =>
    if key = [] then (s, none)
    else
      let bridged := s.bridgedPreviousResponseId key (apiKeyScopeFromHeaders headers) db now
      (bridged.1, if body = .notAnObject then none else bridged.2)
  | _, _ => (s, none)

def replacePreviousResponseId (s : BridgeState) (body : RequestBody) (headers : HeaderMap) (db : DbAccess) (now : ℤ) :
    BridgeState × Option Bytes :=
  match body.previousResponseId, continuityKeyFromHeaders headers with
  | some existing, some key =>
    if key = [] then (s, none)
    else
      let bridged := s.bridgedPreviousResponseId key (apiKeyScopeFromHeaders headers) db now
      (bridged.1, bridged.2.filter (· ≠ existing))
  | _, _ => (s, none)

def preferredAccountId (s : BridgeState) (body : RequestBody) (headers : HeaderMap) (db : DbAccess) (now : ℤ) :
    BridgeState × Option Bytes :=
  match body.previousResponseId, continuityKeyFromHeaders headers with
  | some previous, some key =>
    if key = [] then (s, none)
    else (s.maybePurgeExpired db now, ((s.findRow db key (apiKeyScopeFromHeaders headers) now).filter
      fun record => record.responseId = previous && record.accountId ≠ []).map (·.accountId))
  | _, _ => (s, none)

def continuityAccountId (s : BridgeState) (headers : HeaderMap) (db : DbAccess) (now : ℤ) :
    BridgeState × Option Bytes :=
  match continuityKeyFromHeaders headers with
  | some key =>
    if key = [] then (s, none)
    else (s.maybePurgeExpired db now, ((s.findRow db key (apiKeyScopeFromHeaders headers) now).filter
      fun record => record.accountId ≠ []).map (·.accountId))
  | none => (s, none)

def responseContextRecord (s : BridgeState) (previousResponseId : Bytes) (headers : HeaderMap)
    (db : DbAccess) (now : ℤ) :
    BridgeState × Option ProxyResponseContinuityRecord :=
  match continuityKeyFromHeaders headers with
  | some key =>
    if key = [] then (s, none)
    else (s.maybePurgeExpired db now,
      (s.findRowByResponseId db previousResponseId (apiKeyScopeFromHeaders headers) now).filter
        fun record => record.continuityKey = key)
  | none => (s, none)

def restart (s : BridgeState) : BridgeState := { s with bridge := s.bridge.clear, lastCleanupMs := 0 }

end BridgeState

end Tightrope.Proxy.Session
