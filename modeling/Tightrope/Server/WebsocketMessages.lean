import Mathlib.Data.List.Perm.Basic
import Mathlib.Logic.Function.Basic
import Tightrope.Library.Runs
import Tightrope.Server.ApiKeyFilter

namespace Tightrope.Server

open Bytes Runs

structure AsyncExecutor (T W : Type) where
  queue : List T := []
  workers : List W := []
  inFlight : ℕ := 0
  accepting : Bool := false
  stopping : Bool := false

def kMaxInFlightTasks : ℕ := 512

def workerCount (hardwareThreads : ℕ) : ℕ := max 4 (min (if hardwareThreads = 0 then 4 else hardwareThreads) 16)

namespace AsyncExecutor

variable {T W : Type}

def start (e : AsyncExecutor T W) (idle : W) (hardwareThreads : ℕ) : AsyncExecutor T W :=
  { e with
    workers := if e.workers.isEmpty then List.replicate (workerCount hardwareThreads) idle else e.workers
    accepting := true
    stopping := false }

def stopAccepting (e : AsyncExecutor T W) : AsyncExecutor T W := { e with accepting := false }

def shutdown (e : AsyncExecutor T W) : AsyncExecutor T W := { e with accepting := false, stopping := true }

def enqueue (e : AsyncExecutor T W) (task : T) : Option (AsyncExecutor T W) :=
  if !e.accepting || e.stopping then none
  else if e.queue.length + e.inFlight ≥ kMaxInFlightTasks then none
  else some { e with queue := e.queue ++ [task] }

def setWorker (e : AsyncExecutor T W) (i : ℕ) (w : W) : AsyncExecutor T W := { e with workers := e.workers.set i w }

def dequeue (e : AsyncExecutor T W) : Option (T × AsyncExecutor T W) :=
  match e.queue with
  | [] => none
  | task :: rest => some (task, { e with queue := rest, inFlight := e.inFlight + 1 })

def complete (e : AsyncExecutor T W) : AsyncExecutor T W := { e with inFlight := e.inFlight - 1 }

theorem enqueue_eq_some {e e' : AsyncExecutor T W} {task : T} (h : e.enqueue task = some e') :
    e' = { e with queue := e.queue ++ [task] } := by
  unfold enqueue at h
  split_ifs at h
  exact (Option.some.inj h).symm

theorem dequeue_eq_some {e e' : AsyncExecutor T W} {task : T} (h : e.dequeue = some (task, e')) :
    e.queue = task :: e'.queue ∧ e'.workers = e.workers := by
  unfold dequeue at h
  split at h
  · cases h
  · obtain ⟨rfl, rfl⟩ := Prod.mk.inj (Option.some.inj h)
    exact ⟨‹_›, rfl⟩

section Threads

variable {B : Type} (f : W → Option B)

theorem filterMap_workers_perm {workers : List W} {i : ℕ} {w : W} (h : workers[i]? = some w) (w' : W) :
    ∃ others, (workers.filterMap f).Perm ((f w).toList ++ others) ∧
      ((workers.set i w').filterMap f).Perm ((f w').toList ++ others) := by
  obtain ⟨hi, rfl⟩ := List.getElem?_eq_some_iff.mp h
  have hcons : ∀ v, ((v :: workers.eraseIdx i).filterMap f) = (f v).toList ++ (workers.eraseIdx i).filterMap f := by
    intro v
    rw [List.filterMap_cons]
    cases f v <;> rfl
  refine ⟨(workers.eraseIdx i).filterMap f, ?_, ?_⟩
  · rw [← hcons]
    exact (List.getElem_cons_eraseIdx_perm hi).symm.filterMap f
  · rw [← hcons]
    exact (List.set_perm_cons_eraseIdx hi w').filterMap f

theorem filterMap_start_replicate {e : AsyncExecutor T W} {idle : W} {hardwareThreads : ℕ} (hidle : f idle = none) :
    (e.start idle hardwareThreads).workers.filterMap f = e.workers.filterMap f := by
  simp only [start]
  split_ifs with hempty
  · rw [List.isEmpty_iff.mp hempty, List.filterMap_replicate_of_none hidle]
    rfl
  · rfl

end Threads

end AsyncExecutor

structure WebsocketErrorEvent where
  status : ℕ
  code : Bytes
  message : Bytes
  type : Bytes
  deriving DecidableEq

def proxyDisabledEvent : WebsocketErrorEvent where
  status := 503
  code := ofString "proxy_disabled"
  message := ofString "Proxy server is stopped"
  type := ofString "service_unavailable"

def queueSaturatedEvent : WebsocketErrorEvent where
  status := 503
  code := ofString "proxy_overloaded"
  message := ofString "Proxy request queue is saturated"
  type := ofString "service_unavailable"

def textOr (text fallback : Bytes) : Bytes := if text.isEmpty then fallback else text

def policyDeniedEvent (decision : ApiKeyRequestPolicyDecision) : WebsocketErrorEvent where
  status := decision.status
  code := textOr decision.errorCode (ofString "model_not_allowed")
  message := textOr decision.errorMessage
    (ofString "This API key does not have access to the requested model")
  type := textOr decision.errorType (ofString "permission_error")

structure WebsocketResponse where
  frames : List Bytes
  closeCode : ℕ := 1000
  accepted : Bool := true
  deriving DecidableEq

inductive Outgoing where
  | reply (message : ℕ) (frames : List Bytes)
  | error (event : WebsocketErrorEvent)
  deriving DecidableEq

def Outgoing.message? : Outgoing → Option ℕ
  | .reply message _ => some message
  | .error _ => none

structure WsConnection where
  closed : Bool := false
  mutexHeld : Bool := false
  accepted : ℕ := 0
  entered : List ℕ := []
  sent : List Outgoing := []
  deriving DecidableEq

namespace WsConnection

def close (c : WsConnection) : WsConnection := { c with closed := true }

-- `ws->send(frame)` and `ws->end(code)`
def refuse (c : WsConnection) (event : WebsocketErrorEvent) : WsConnection :=
  { c with sent := c.sent ++ [.error event], closed := true }

def accept (c : WsConnection) : WsConnection := { c with accepted := c.accepted + 1 }

def enter (c : WsConnection) (message : ℕ) : WsConnection :=
  { c with mutexHeld := true, entered := c.entered ++ [message] }

def release (c : WsConnection) : WsConnection := { c with mutexHeld := false }

def answer (c : WsConnection) (message : ℕ) (response : WebsocketResponse) : WsConnection :=
  if c.closed then c
  else { c with
    sent := c.sent ++ [.reply message response.frames]
    closed := response.closeCode ≠ 1000 || !response.accepted }

def replies (c : WsConnection) : List ℕ := c.sent.filterMap Outgoing.message?

def InOrder (c : WsConnection) : Prop :=
  c.entered <+: List.range c.accepted ∧ c.replies <+: List.range c.accepted

instance : DecidablePred InOrder := fun c =>
  inferInstanceAs (Decidable (c.entered <+: List.range c.accepted ∧ c.replies <+: List.range c.accepted))

end WsConnection

inductive ProxyTask where
  | request
  | message (connection message : ℕ)
  deriving DecidableEq

def ProxyTask.messageOf (connection : ℕ) : ProxyTask → Option ℕ
  | .request => none
  | .message c m => if c = connection then some m else none

inductive Worker where
  | idle
  | taken (task : ProxyTask)
  | processing (connection message : ℕ)
  | replied (connection message : ℕ)
  | returned
  deriving DecidableEq

namespace Worker

def waitingOf (connection : ℕ) : Worker → Option ℕ
  | .taken task => task.messageOf connection
  | .idle | .processing _ _ | .replied _ _ | .returned => none

def processingOf (connection : ℕ) : Worker → Option ℕ
  | .processing c m => if c = connection then some m else none
  | .idle | .taken _ | .replied _ _ | .returned => none

def repliedOf (connection : ℕ) : Worker → Option ℕ
  | .replied c m => if c = connection then some m else none
  | .idle | .taken _ | .processing _ _ | .returned => none

end Worker

structure DeferredReply where
  connection : ℕ
  message : ℕ
  response : WebsocketResponse
  deriving DecidableEq

def DeferredReply.messageOf (connection : ℕ) (reply : DeferredReply) : Option ℕ :=
  if reply.connection = connection then some reply.message else none

structure ServerState where
  executor : AsyncExecutor ProxyTask Worker := {}
  deferred : List DeferredReply := []
  connection : ℕ → WsConnection := fun _ => {}

inductive ServerStep where
  | start (hardwareThreads : ℕ)
  | stopAccepting
  | shutdown
  | enqueueRequest
  | receive (connection : ℕ) (enabled : Bool) (decision : ApiKeyRequestPolicyDecision)
  | close (connection : ℕ)
  | dequeue (worker : ℕ)
  | runRequest (worker : ℕ)
  | lock (worker : ℕ)
  | reply (worker : ℕ) (response : WebsocketResponse)
  | unlock (worker : ℕ)
  | complete (worker : ℕ)
  | runDeferred
  deriving DecidableEq

namespace ServerState

def setConnection (s : ServerState) (id : ℕ) (c : WsConnection) : ServerState :=
  { s with connection := Function.update s.connection id c }

def setWorker (s : ServerState) (i : ℕ) (w : Worker) : ServerState := { s with executor := s.executor.setWorker i w }

def worker? (s : ServerState) (i : ℕ) : Option Worker := s.executor.workers[i]?

def receive (s : ServerState) (id : ℕ) (enabled : Bool) (decision : ApiKeyRequestPolicyDecision) : ServerState :=
  if (s.connection id).closed then s
  else if !enabled then s.setConnection id ((s.connection id).refuse proxyDisabledEvent)
  else if !decision.allow then s.setConnection id ((s.connection id).refuse (policyDeniedEvent decision))
  else match s.executor.enqueue (.message id (s.connection id).accepted) with
    | none => s.setConnection id ((s.connection id).refuse queueSaturatedEvent)
    | some executor => { s with executor := executor }.setConnection id (s.connection id).accept

def lock (s : ServerState) (i : ℕ) : ServerState :=
  match s.worker? i with
  | some (.taken (.message id m)) =>
    if (s.connection id).mutexHeld then s
    else (s.setWorker i (.processing id m)).setConnection id ((s.connection id).enter m)
  | _ => s

def runDeferred (s : ServerState) : ServerState :=
  match s.deferred with
  | [] => s
  | reply :: rest => { s with deferred := rest }.setConnection reply.connection
      ((s.connection reply.connection).answer reply.message reply.response)

def step (s : ServerState) : ServerStep → ServerState
  | .start hardwareThreads => { s with executor := s.executor.start .idle hardwareThreads }
  | .stopAccepting => { s with executor := s.executor.stopAccepting }
  | .shutdown => { s with executor := s.executor.shutdown }
  | .enqueueRequest => { s with executor := (s.executor.enqueue .request).getD s.executor }
  | .receive id enabled decision => s.receive id enabled decision
  | .close id => s.setConnection id (s.connection id).close
  | .dequeue i =>
    match s.worker? i, s.executor.dequeue with
    | some .idle, some (task, executor) => { s with executor := executor.setWorker i (.taken task) }
    | _, _ => s
  | .runRequest i =>
    match s.worker? i with
    | some (.taken .request) => s.setWorker i .returned
    | _ => s
  | .lock i => s.lock i
  | .reply i response =>
    match s.worker? i with
    | some (.processing id m) =>
      { s.setWorker i (.replied id m) with deferred := s.deferred ++ [⟨id, m, response⟩] }
    | _ => s
  | .unlock i =>
    match s.worker? i with
    | some (.replied id _) => (s.setWorker i .returned).setConnection id (s.connection id).release
    | _ => s
  | .complete i =>
    match s.worker? i with
    | some .returned => { s with executor := s.executor.complete.setWorker i .idle }
    | _ => s
  | .runDeferred => s.runDeferred

def queuedOf (s : ServerState) (id : ℕ) : List ℕ := s.executor.queue.filterMap (ProxyTask.messageOf id)

def waitingOf (s : ServerState) (id : ℕ) : List ℕ := s.executor.workers.filterMap (Worker.waitingOf id)

def processingOf (s : ServerState) (id : ℕ) : List ℕ := s.executor.workers.filterMap (Worker.processingOf id)

def repliedOf (s : ServerState) (id : ℕ) : List ℕ := s.executor.workers.filterMap (Worker.repliedOf id)

def deferredOf (s : ServerState) (id : ℕ) : List ℕ := s.deferred.filterMap (DeferredReply.messageOf id)

def GrantsEarliest (s : ServerState) : ServerStep → Prop
  | .lock i => ∀ id m, s.worker? i = some (.taken (.message id m)) → (s.connection id).mutexHeld = false →
      ∀ other ∈ s.waitingOf id, m ≤ other
  | _ => True

end ServerState

end Tightrope.Server
