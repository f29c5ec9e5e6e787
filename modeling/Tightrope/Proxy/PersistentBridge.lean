import Tightrope.Library.Bytes
import Tightrope.Library.FlatMap
import Tightrope.Library.Threads

namespace Tightrope.Proxy.PersistentBridge

open Runs Threads

def persistentBridgeTtlMs : ℤ := 30 * 60 * 1000

def persistentBridgeMaxSessions : ℕ := 256

structure BridgeSession where
  serial : ℕ
  accountId : Bytes := []
  updatedAtMs : ℤ := 0
  cancelRequested : Bool := false
  deriving DecidableEq

structure BridgeState where
  sessions : FlatMap Bytes BridgeSession := .empty
  created : ℕ := 0
  deriving DecidableEq

namespace BridgeState

def purgeStale (b : BridgeState) (now : ℤ) : BridgeState :=
  { b with sessions := b.sessions.filter fun _ session =>
      !(now ≥ session.updatedAtMs && now - session.updatedAtMs ≥ persistentBridgeTtlMs) }

def leastRecent : List (Bytes × BridgeSession) → Option (Bytes × BridgeSession)
  | [] => none
  | entry :: entries =>
    some (entries.foldl (fun lru next => if next.2.updatedAtMs < lru.2.updatedAtMs then next else lru) entry)

variable (visit : FlatMap Bytes BridgeSession → List (Bytes × BridgeSession))

def evict (sessions : FlatMap Bytes BridgeSession) : FlatMap Bytes BridgeSession :=
  match leastRecent (visit sessions) with
  | none => sessions
  | some lru => sessions.erase lru.1

@[irreducible] def trim (b : BridgeState) : BridgeState :=
  { b with sessions := (evict visit)^[b.sessions.size - persistentBridgeMaxSessions] b.sessions }

def purgeAndTrim (b : BridgeState) (now : ℤ) : BridgeState := (b.purgeStale now).trim visit

def remove (b : BridgeState) (bridgeKey : Bytes) : BridgeState := { b with sessions := b.sessions.erase bridgeKey }

def requestCancel (b : BridgeState) (bridgeKey : Bytes) : BridgeState :=
  match b.sessions.find? bridgeKey with
  | none => b
  | some session => { b with sessions := b.sessions.insert bridgeKey { session with cancelRequested := true } }

end BridgeState

structure AcquireCall where
  bridgeKey : Bytes
  hasPreviousResponse : Bool := false
  accountId : Bytes := []
  responseCreate : Bool := true
  deriving DecidableEq

inductive AcquirePhase where
  | looking
  | connecting
  | connected (updatedAtMs : ℤ)
  | obtained (session : Option BridgeSession)
  deriving DecidableEq

inductive BridgeThread where
  | acquiring (call : AcquireCall) (phase : AcquirePhase)
  | cancelling (bridgeKey : Bytes)
  | resetting
  | finished
  deriving DecidableEq

inductive BridgeCall where
  | acquire (call : AcquireCall)
  | cancel (bridgeKey : Bytes)
  | reset
  deriving DecidableEq

inductive BridgeStep where
  | find (now : ℤ)
  | connect (succeeds : Bool) (now : ℤ)
  | tryEmplace (now : ℤ)
  | touch (now : ℤ)
  | discard
  | finish
  deriving DecidableEq

def BridgeCall.begin : BridgeCall → BridgeThread
  | .acquire call => .acquiring call .looking
  | .cancel bridgeKey => .cancelling bridgeKey
  | .reset => .resetting

namespace AcquireCall

variable (visit : FlatMap Bytes BridgeSession → List (Bytes × BridgeSession)) (call : AcquireCall)

def mismatchedAccount (existing : BridgeSession) : Bool :=
  !call.hasPreviousResponse && call.accountId ≠ [] && existing.accountId ≠ [] && existing.accountId ≠ call.accountId

def afterMiss : AcquirePhase := if call.responseCreate then .connecting else .obtained none

def candidate (b : BridgeState) (updatedAtMs : ℤ) : BridgeSession := ⟨b.created, call.accountId, updatedAtMs, false⟩

def find (b : BridgeState) (now : ℤ) : BridgeState × AcquirePhase :=
  match (b.purgeAndTrim visit now).sessions.find? call.bridgeKey with
  | none => (b.purgeAndTrim visit now, call.afterMiss)
  | some existing =>
    if !existing.cancelRequested && !call.mismatchedAccount existing then
      (b.purgeAndTrim visit now, .obtained (some existing))
    else ((b.purgeAndTrim visit now).remove call.bridgeKey, call.afterMiss)

def tryEmplace (b : BridgeState) (updatedAtMs now : ℤ) : BridgeState × AcquirePhase :=
  match (b.purgeAndTrim visit now).sessions.find? call.bridgeKey with
  | none =>
    (({ (b.purgeAndTrim visit now) with
        sessions := (b.purgeAndTrim visit now).sessions.insert call.bridgeKey (call.candidate b updatedAtMs)
        created := b.created + 1 } : BridgeState).trim visit, .obtained (some (call.candidate b updatedAtMs)))
  | some existing => (b.purgeAndTrim visit now, .obtained (some existing))

def ifHeld (b : BridgeState) (session : BridgeSession) (f : BridgeState → BridgeState) : BridgeState :=
  match b.sessions.find? call.bridgeKey with
  | none => b
  | some held => if held.serial = session.serial then f b else b

def touch (b : BridgeState) (session : BridgeSession) (now : ℤ) : BridgeState :=
  call.ifHeld b session fun b =>
    { b with sessions := b.sessions.map fun key held =>
        if key = call.bridgeKey then { held with updatedAtMs := now } else held }

end AcquireCall

def advance (visit : FlatMap Bytes BridgeSession → List (Bytes × BridgeSession)) (b : BridgeState) (t : BridgeThread)
    (step : BridgeStep) : BridgeState × BridgeThread :=
  match t, step with
  | .acquiring call .looking, .find now => (call.find visit b now).map id (.acquiring call)
  | .acquiring call .connecting, .connect succeeds now =>
    (b, .acquiring call (if succeeds then .connected now else .obtained none))
  | .acquiring call (.connected updatedAtMs), .tryEmplace now =>
    (call.tryEmplace visit b updatedAtMs now).map id (.acquiring call)
  | .acquiring call (.obtained (some session)), .touch now => (call.touch b session now, t)
  | .acquiring call (.obtained (some session)), .discard =>
    (call.ifHeld b session fun b => b.remove call.bridgeKey, .finished)
  | .cancelling bridgeKey, .finish => (b.requestCancel bridgeKey, .finished)
  | .resetting, .finish => ({ b with sessions := .empty }, .finished)
  | _, _ => (b, t)

section Fresh

variable (visit : FlatMap Bytes BridgeSession → List (Bytes × BridgeSession))

def bridgeStep : State BridgeState BridgeThread → Action BridgeCall BridgeStep → State BridgeState BridgeThread :=
  Threads.step BridgeCall.begin (advance visit)

def Suits (call : AcquireCall) (session : BridgeSession) : Prop :=
  call.hasPreviousResponse = false → call.accountId ≠ [] →
    session.cancelRequested = false ∧ (session.accountId = call.accountId ∨ session.accountId = [])

def ServedFresh : BridgeThread → Prop
  | .acquiring call (.obtained (some session)) => Suits call session
  | _ => True

def FindsFresh (b : BridgeState) : BridgeThread → BridgeStep → Prop
  | .acquiring call (.connected _), .tryEmplace now =>
    ∀ existing, (b.purgeAndTrim visit now).sessions.find? call.bridgeKey = some existing → Suits call existing
  | _, _ => True

variable {visit} {b : BridgeState} {call : AcquireCall} {now : ℤ}

theorem suits_of_checked {existing : BridgeSession}
    (h : (!existing.cancelRequested && !call.mismatchedAccount existing) = true) : Suits call existing := by
  intro hfresh haccount
  simp only [AcquireCall.mismatchedAccount, hfresh, haccount, Bool.and_eq_true, Bool.not_eq_true', Bool.not_false,
    ne_eq, not_false_eq_true, decide_true, Bool.true_and, Bool.and_eq_false_iff, decide_eq_false_iff_not,
    not_not] at h
  exact ⟨h.1, h.2.symm⟩

theorem servedFresh_find : ServedFresh (.acquiring call (call.find visit b now).2) := by
  have hmiss : ServedFresh (.acquiring call call.afterMiss) := by
    unfold AcquireCall.afterMiss
    split_ifs <;> trivial
  unfold AcquireCall.find
  split
  · exact hmiss
  · split_ifs with hchecked
    · exact suits_of_checked hchecked
    · exact hmiss

theorem servedFresh_tryEmplace_iff {updatedAtMs : ℤ} :
    ServedFresh (.acquiring call (call.tryEmplace visit b updatedAtMs now).2) ↔
      ∀ existing, (b.purgeAndTrim visit now).sessions.find? call.bridgeKey = some existing → Suits call existing := by
  unfold AcquireCall.tryEmplace
  split
  · rename_i hnone
    rw [hnone]
    constructor
    · intro _ existing hexisting
      cases hexisting
    · intro _ _ _
      exact ⟨rfl, .inl rfl⟩
  · rename_i existing hexisting
    rw [hexisting]
    constructor
    · intro hserved other hother
      exact Option.some.inj hother ▸ hserved
    · intro hall
      exact hall existing rfl

theorem servedFresh_advance_iff (b : BridgeState) (t : BridgeThread) (step : BridgeStep) (h : ServedFresh t) :
    ServedFresh (advance visit b t step).2 ↔ FindsFresh visit b t step := by
  unfold advance
  split
  · rename_i call now
    rw [Prod.map_snd]
    exact iff_of_true servedFresh_find trivial
  · rename_i call succeeds now
    apply iff_of_true _ trivial
    cases succeeds <;> trivial
  · rw [Prod.map_snd]
    exact servedFresh_tryEmplace_iff
  · exact iff_of_true h trivial
  · exact iff_of_true trivial trivial
  · exact iff_of_true trivial trivial
  · exact iff_of_true trivial trivial
  · rename_i hfind hconnect hemplace htouch hdiscard hcancel hreset
    apply iff_of_true h
    unfold FindsFresh
    split
    · rename_i call updatedAtMs now
      exact absurd rfl (hemplace call updatedAtMs now rfl)
    · trivial

/-- In a run every request of a fresh conversation obtains a session of its account, not cancelled, exactly when
no `try_emplace` of such a request finds another session under the key. -/
theorem fresh_sessions_iff (visit : FlatMap Bytes BridgeSession → List (Bytes × BridgeSession))
    (as : List (Action BridgeCall BridgeStep)) :
    AllStates (bridgeStep visit) (fun s => ∀ t ∈ s.threads, ServedFresh t) ⟨{}, []⟩ as ↔
      AllSteps (bridgeStep visit) (MoveMeets (FindsFresh visit)) ⟨{}, []⟩ as := by
  apply allStates_iff_allSteps
  · intro s a h
    refine forall_threads_step_iff ?_ servedFresh_advance_iff a h
    rintro (call | bridgeKey | _)
    all_goals trivial
  · intro t ht
    cases ht

def creatorOf (accountId : Bytes) : AcquireCall := { bridgeKey := [107], accountId := accountId }

def racingCreators : List (Action BridgeCall BridgeStep) :=
  [.spawn (.acquire (creatorOf [97])), .spawn (.acquire (creatorOf [98])), .move 0 (.find 0), .move 1 (.find 0),
    .move 0 (.connect true 0), .move 1 (.connect true 0), .move 0 (.tryEmplace 0), .move 1 (.tryEmplace 0)]

theorem second_creator_runs_on_the_first_account :
    ¬ AllStates (bridgeStep FlatMap.entries) (fun s => ∀ t ∈ s.threads, ServedFresh t) ⟨{}, []⟩ racingCreators := by
  intro h
  have hfinal := h.final
  have hobtained : BridgeThread.acquiring (creatorOf [98]) (.obtained (some ⟨0, [97], 0, false⟩)) ∈
      (run (bridgeStep FlatMap.entries) ⟨{}, []⟩ racingCreators).threads := by
    decide +kernel
  obtain ⟨-, haccount⟩ := hfinal _ hobtained rfl (by decide)
  revert haccount
  decide

end Fresh

end Tightrope.Proxy.PersistentBridge
