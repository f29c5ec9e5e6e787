import Tightrope.Library.ArrivalOrder
import Tightrope.Server.WebsocketMessages

namespace Tightrope.Server

open ArrivalOrder Runs

theorem eq_of_perm_of_length_le_one {α : Type} {a b : List α} (h : b.Perm a) (hlength : a.length ≤ 1) : b = a := by
  match a, hlength with
  | [], _ => exact h.eq_nil
  | [x], _ => exact h.eq_singleton

theorem WsConnection.replies_append_reply (c : WsConnection) (m : ℕ) (frames : List Bytes) (closed : Bool) :
    { c with sent := c.sent ++ [Outgoing.reply m frames], closed := closed }.replies = c.replies ++ [m] := by
  simp [replies, Outgoing.message?]

@[simp] theorem WsConnection.replies_refuse (c : WsConnection) (event : WebsocketErrorEvent) :
    (c.refuse event).replies = c.replies := by
  simp [replies, refuse, Outgoing.message?]

structure Stages (c : WsConnection) (queued waiting processing replied deferred : List ℕ) : Prop where
  line : Line (List.range c.accepted) queued waiting c.entered
  mutex : processing.length + replied.length ≤ if c.mutexHeld then 1 else 0
  answered : ∃ answered, c.entered = answered ++ (deferred ++ processing) ∧ c.replies <+: answered ∧
    (c.closed = false → c.replies = answered)

namespace Stages

variable {c : WsConnection} {queued waiting processing replied deferred waiting' processing' replied' : List ℕ} {m : ℕ}

theorem start : Stages {} [] [] [] [] [] :=
  ⟨.nil, Nat.le_refl 0, [], rfl, List.nil_prefix, fun _ => rfl⟩

theorem length_le_one (h : Stages c queued waiting processing replied deferred) :
    processing.length + replied.length ≤ 1 := by
  have hmutex := h.mutex
  split at hmutex <;> omega

theorem perm (h : Stages c queued waiting processing replied deferred) (hwaiting : waiting'.Perm waiting)
    (hprocessing : processing'.Perm processing) (hreplied : replied'.Perm replied) :
    Stages c queued waiting' processing' replied' deferred := by
  have hlength := h.length_le_one
  obtain rfl := eq_of_perm_of_length_le_one hprocessing (by omega)
  obtain rfl := eq_of_perm_of_length_le_one hreplied (by omega)
  exact ⟨h.line.perm hwaiting, h.mutex, h.answered⟩

theorem close (h : Stages c queued waiting processing replied deferred) :
    Stages c.close queued waiting processing replied deferred := by
  obtain ⟨answered, hentered, hreplies, -⟩ := h.answered
  exact ⟨h.line, h.mutex, answered, hentered, hreplies, nofun⟩

theorem refuse (h : Stages c queued waiting processing replied deferred) (event : WebsocketErrorEvent) :
    Stages (c.refuse event) queued waiting processing replied deferred := by
  obtain ⟨answered, hentered, hreplies, -⟩ := h.answered
  refine ⟨h.line, h.mutex, answered, hentered, ?_, nofun⟩
  rw [WsConnection.replies_refuse]
  exact hreplies

theorem accept (h : Stages c queued waiting processing replied deferred) :
    Stages c.accept (queued ++ [c.accepted]) waiting processing replied deferred := by
  refine ⟨?_, h.mutex, h.answered⟩
  have hline := h.line.arrive (a := c.accepted) fun b hb => List.mem_range.mp hb
  rw [← List.range_succ] at hline
  exact hline

theorem take (h : Stages c (m :: queued) waiting processing replied deferred)
    (hwaiting : waiting'.Perm (m :: waiting)) : Stages c queued waiting' processing replied deferred :=
  ⟨h.line.take hwaiting, h.mutex, h.answered⟩

theorem enter (h : Stages c queued waiting processing replied deferred) (hfree : c.mutexHeld = false)
    (hwaiting : waiting.Perm (m :: waiting')) (hprocessing : processing'.Perm (m :: processing))
    (hreplied : replied'.Perm replied) :
    Stages (c.enter m) queued waiting' processing' replied' deferred := by
  have hmutex := h.mutex
  rw [if_neg (by simp [hfree])] at hmutex
  obtain rfl : processing = [] := List.eq_nil_of_length_eq_zero (by omega)
  obtain rfl : replied = [] := List.eq_nil_of_length_eq_zero (by omega)
  obtain rfl := hprocessing.eq_singleton
  obtain rfl := hreplied.eq_nil
  obtain ⟨answered, hentered, hreplies, hopen⟩ := h.answered
  refine ⟨h.line.serve hwaiting, Nat.le_refl 1, answered, ?_, hreplies, hopen⟩
  change c.entered ++ [m] = _
  rw [hentered]
  simp

theorem reply (h : Stages c queued waiting processing replied deferred) (hwaiting : waiting'.Perm waiting)
    (hprocessing : processing.Perm (m :: processing')) (hreplied : replied'.Perm (m :: replied)) :
    Stages c queued waiting' processing' replied' (deferred ++ [m]) := by
  have hlength := h.length_le_one
  have hcount := hprocessing.length_eq
  have hcount' := hreplied.length_eq
  simp only [List.length_cons] at hcount hcount'
  obtain rfl : processing' = [] := List.eq_nil_of_length_eq_zero (by omega)
  obtain rfl := hprocessing.eq_singleton
  obtain ⟨answered, hentered, hreplies, hopen⟩ := h.answered
  refine ⟨h.line.perm hwaiting, ?_, answered, ?_, hreplies, hopen⟩
  · have hmutex := h.mutex
    simp only [List.length_nil]
    omega
  · rw [hentered, List.append_nil]

theorem release (h : Stages c queued waiting processing replied deferred) (hwaiting : waiting'.Perm waiting)
    (hprocessing : processing'.Perm processing) (hreplied : replied.Perm (m :: replied')) :
    Stages c.release queued waiting' processing' replied' deferred := by
  have hlength := h.length_le_one
  have hcount := hreplied.length_eq
  simp only [List.length_cons] at hcount
  obtain rfl := eq_of_perm_of_length_le_one hprocessing (by omega)
  refine ⟨h.line.perm hwaiting, ?_, h.answered⟩
  change processing'.length + replied'.length ≤ 0
  omega

theorem answer (h : Stages c queued waiting processing replied (m :: deferred)) (response : WebsocketResponse) :
    Stages (c.answer m response) queued waiting processing replied deferred := by
  obtain ⟨answered, hentered, hreplies, hopen⟩ := h.answered
  have hentered' : c.entered = (answered ++ [m]) ++ (deferred ++ processing) := by
    rw [hentered]
    simp
  unfold WsConnection.answer
  split_ifs with hclosed
  · refine ⟨h.line, h.mutex, answered ++ [m], hentered', hreplies.trans (List.prefix_append _ _), ?_⟩
    intro hfalse
    rw [hfalse] at hclosed
    cases hclosed
  · have hsame : c.replies ++ [m] = answered ++ [m] := by rw [hopen (Bool.eq_false_iff.mpr hclosed)]
    refine ⟨h.line, h.mutex, answered ++ [m], hentered', ?_, fun _ => ?_⟩
    · exact ⟨[], by rw [WsConnection.replies_append_reply, hsame, List.append_nil]⟩
    · exact (WsConnection.replies_append_reply ..).trans hsame

theorem replies_isPrefix (h : Stages c queued waiting processing replied deferred) : c.replies <+: c.entered := by
  obtain ⟨answered, hentered, hreplies, -⟩ := h.answered
  rw [hentered]
  exact hreplies.trans (List.prefix_append _ _)

end Stages

namespace ServerState

variable {s : ServerState} {id i : ℕ}

def Staged (s : ServerState) (id : ℕ) : Prop :=
  Stages (s.connection id) (s.queuedOf id) (s.waitingOf id) (s.processingOf id) (s.repliedOf id) (s.deferredOf id)

@[simp] theorem setConnection_connection (s : ServerState) (id other : ℕ) (c : WsConnection) :
    (s.setConnection id c).connection other = if other = id then c else s.connection other := by
  simp [setConnection, Function.update_apply]

theorem staged_setConnection_of_ne {other : ℕ} (hne : other ≠ id) (c : WsConnection) :
    (s.setConnection id c).Staged other ↔ s.Staged other := by
  unfold Staged
  rw [setConnection_connection, if_neg hne]
  rfl

theorem staged_setConnection_self (c : WsConnection) :
    (s.setConnection id c).Staged id ↔
      Stages c (s.queuedOf id) (s.waitingOf id) (s.processingOf id) (s.repliedOf id) (s.deferredOf id) := by
  unfold Staged
  rw [setConnection_connection, if_pos rfl]
  rfl

theorem staged_update (h : ∀ other, other ≠ id → s.Staged other) {c : WsConnection}
    (hc : Stages c (s.queuedOf id) (s.waitingOf id) (s.processingOf id) (s.repliedOf id) (s.deferredOf id)) :
    ∀ other, (s.setConnection id c).Staged other := by
  intro other
  by_cases hother : other = id
  · subst hother
    exact (staged_setConnection_self c).mpr hc
  · exact (staged_setConnection_of_ne hother c).mpr (h other hother)

section Workers

variable {w w' : Worker} {m : ℕ}

theorem waitingOf_perm (hw : s.worker? i = some w) (w' : Worker) (id : ℕ) :
    ∃ others, (s.waitingOf id).Perm ((w.waitingOf id).toList ++ others) ∧
      ((s.setWorker i w').waitingOf id).Perm ((w'.waitingOf id).toList ++ others) :=
  AsyncExecutor.filterMap_workers_perm (Worker.waitingOf id) hw w'

theorem processingOf_perm (hw : s.worker? i = some w) (w' : Worker) (id : ℕ) :
    ∃ others, (s.processingOf id).Perm ((w.processingOf id).toList ++ others) ∧
      ((s.setWorker i w').processingOf id).Perm ((w'.processingOf id).toList ++ others) :=
  AsyncExecutor.filterMap_workers_perm (Worker.processingOf id) hw w'

theorem repliedOf_perm (hw : s.worker? i = some w) (w' : Worker) (id : ℕ) :
    ∃ others, (s.repliedOf id).Perm ((w.repliedOf id).toList ++ others) ∧
      ((s.setWorker i w').repliedOf id).Perm ((w'.repliedOf id).toList ++ others) :=
  AsyncExecutor.filterMap_workers_perm (Worker.repliedOf id) hw w'

theorem staged_setWorker (hw : s.worker? i = some w) (hwaiting : w'.waitingOf id = w.waitingOf id)
    (hprocessing : w'.processingOf id = w.processingOf id) (hreplied : w'.repliedOf id = w.repliedOf id)
    (h : s.Staged id) : (s.setWorker i w').Staged id := by
  obtain ⟨waiting, hbefore, hafter⟩ := waitingOf_perm hw w' id
  obtain ⟨processing, hbefore', hafter'⟩ := processingOf_perm hw w' id
  obtain ⟨replied, hbefore'', hafter''⟩ := repliedOf_perm hw w' id
  rw [hwaiting] at hafter
  rw [hprocessing] at hafter'
  rw [hreplied] at hafter''
  exact h.perm (hafter.trans hbefore.symm) (hafter'.trans hbefore'.symm) (hafter''.trans hbefore''.symm)

theorem staged_lock (h : ∀ id, s.Staged id) (i : ℕ) : ∀ id, (s.lock i).Staged id := by
  unfold lock
  split
  · next id m hw =>
    split_ifs with hheld
    · exact h
    · apply staged_update
      · intro other hne
        have hid : id ≠ other := fun heq => hne heq.symm
        apply staged_setWorker hw _ _ _ (h other) <;>
          simp [Worker.waitingOf, Worker.processingOf, Worker.repliedOf, ProxyTask.messageOf, hid]
      · obtain ⟨waiting, hwaiting, hwaiting'⟩ := waitingOf_perm hw (.processing id m) id
        obtain ⟨processing, hprocessing, hprocessing'⟩ := processingOf_perm hw (.processing id m) id
        obtain ⟨replied, hreplied, hreplied'⟩ := repliedOf_perm hw (.processing id m) id
        simp only [Worker.waitingOf, Worker.processingOf, Worker.repliedOf, ProxyTask.messageOf, if_true,
          Option.toList_some, Option.toList_none, List.singleton_append, List.nil_append] at *
        apply (h id).enter (Bool.eq_false_iff.mpr hheld)
        · exact hwaiting.trans (hwaiting'.symm.cons m)
        · exact hprocessing'.trans (hprocessing.symm.cons m)
        · exact hreplied'.trans hreplied.symm
  · exact h

theorem staged_reply (h : ∀ id, s.Staged id) {m : ℕ} (hw : s.worker? i = some (.processing id m))
    (response : WebsocketResponse) (other : ℕ) :
    Staged { s.setWorker i (.replied id m) with deferred := s.deferred ++ [⟨id, m, response⟩] } other := by
  have hdeferred :
      deferredOf { s.setWorker i (.replied id m) with deferred := s.deferred ++ [⟨id, m, response⟩] } other =
        s.deferredOf other ++ if id = other then [m] else [] := by
    simp only [deferredOf, List.filterMap_append, DeferredReply.messageOf, List.filterMap_cons, List.filterMap_nil]
    by_cases hid : id = other <;> simp [hid]
  unfold Staged
  rw [hdeferred]
  by_cases hid : id = other
  · subst hid
    obtain ⟨waiting, hwaiting, hwaiting'⟩ := waitingOf_perm hw (.replied id m) id
    obtain ⟨processing, hprocessing, hprocessing'⟩ := processingOf_perm hw (.replied id m) id
    obtain ⟨replied, hreplied, hreplied'⟩ := repliedOf_perm hw (.replied id m) id
    simp only [Worker.waitingOf, Worker.processingOf, Worker.repliedOf, if_true, Option.toList_some, Option.toList_none,
      List.singleton_append, List.nil_append] at *
    apply (h id).reply (hwaiting'.trans hwaiting.symm)
    · exact hprocessing.trans (hprocessing'.symm.cons m)
    · exact hreplied'.trans (hreplied.symm.cons m)
  · rw [if_neg hid, List.append_nil]
    apply staged_setWorker hw _ _ _ (h other) <;> simp [Worker.waitingOf, Worker.processingOf, Worker.repliedOf, hid]

theorem staged_unlock (h : ∀ id, s.Staged id) {m : ℕ} (hw : s.worker? i = some (.replied id m)) :
    ∀ other, ((s.setWorker i .returned).setConnection id (s.connection id).release).Staged other := by
  apply staged_update
  · intro other hne
    have hid : id ≠ other := fun heq => hne heq.symm
    apply staged_setWorker hw _ _ _ (h other) <;> simp [Worker.waitingOf, Worker.processingOf, Worker.repliedOf, hid]
  · obtain ⟨waiting, hwaiting, hwaiting'⟩ := waitingOf_perm hw .returned id
    obtain ⟨processing, hprocessing, hprocessing'⟩ := processingOf_perm hw .returned id
    obtain ⟨replied, hreplied, hreplied'⟩ := repliedOf_perm hw .returned id
    simp only [Worker.waitingOf, Worker.processingOf, Worker.repliedOf, if_true, Option.toList_some, Option.toList_none,
      List.singleton_append, List.nil_append] at *
    apply (h id).release (hwaiting'.trans hwaiting.symm) (hprocessing'.trans hprocessing.symm)
    exact hreplied.trans (hreplied'.symm.cons m)

theorem staged_dequeue (h : ∀ id, s.Staged id) {task : ProxyTask} {executor : AsyncExecutor ProxyTask Worker}
    (hw : s.worker? i = some .idle) (htask : s.executor.dequeue = some (task, executor)) (other : ℕ) :
    Staged { s with executor := executor.setWorker i (.taken task) } other := by
  obtain ⟨hqueue, hworkers⟩ := AsyncExecutor.dequeue_eq_some htask
  have hqueued : s.queuedOf other =
      (task.messageOf other).toList ++ executor.queue.filterMap (ProxyTask.messageOf other) := by
    rw [queuedOf, hqueue, List.filterMap_cons]
    cases task.messageOf other <;> rfl
  have hset : { s with executor := executor.setWorker i (.taken task) }.executor.workers =
      (s.setWorker i (.taken task)).executor.workers := by
    simp only [AsyncExecutor.setWorker, setWorker, hworkers]
  obtain ⟨waiting, hwaiting, hwaiting'⟩ := waitingOf_perm hw (.taken task) other
  have hstaged := h other
  unfold Staged at hstaged
  rw [hqueued] at hstaged
  have hothers : Stages (s.connection other)
      ((task.messageOf other).toList ++ executor.queue.filterMap (ProxyTask.messageOf other)) (s.waitingOf other)
      ((s.setWorker i (.taken task)).processingOf other)
      ((s.setWorker i (.taken task)).repliedOf other) (s.deferredOf other) := by
    obtain ⟨processing, hprocessing, hprocessing'⟩ := processingOf_perm hw (.taken task) other
    obtain ⟨replied, hreplied, hreplied'⟩ := repliedOf_perm hw (.taken task) other
    exact hstaged.perm (.refl _) (hprocessing'.trans hprocessing.symm) (hreplied'.trans hreplied.symm)
  have hperm : ((s.setWorker i (.taken task)).waitingOf other).Perm
      ((task.messageOf other).toList ++ s.waitingOf other) := hwaiting'.trans (hwaiting.symm.append_left _)
  unfold Staged waitingOf processingOf repliedOf
  rw [hset]
  cases hmessage : task.messageOf other with
  | none =>
    rw [hmessage] at hothers hperm
    exact hothers.perm hperm (.refl _) (.refl _)
  | some m =>
    rw [hmessage] at hothers hperm
    exact hothers.take hperm

end Workers

theorem queuedOf_enqueue {task : ProxyTask} {executor : AsyncExecutor ProxyTask Worker}
    (henqueue : s.executor.enqueue task = some executor) (other : ℕ) :
    queuedOf { s with executor := executor } other = s.queuedOf other ++ (task.messageOf other).toList ∧
      executor.workers = s.executor.workers := by
  obtain rfl := AsyncExecutor.enqueue_eq_some henqueue
  refine ⟨?_, rfl⟩
  simp only [queuedOf, List.filterMap_append, List.filterMap_cons, List.filterMap_nil]
  cases task.messageOf other <;> rfl

theorem staged_enqueue_iff {task : ProxyTask} {executor : AsyncExecutor ProxyTask Worker}
    (henqueue : s.executor.enqueue task = some executor) (other : ℕ) :
    Staged { s with executor := executor } other ↔
      Stages (s.connection other) (s.queuedOf other ++ (task.messageOf other).toList) (s.waitingOf other)
        (s.processingOf other) (s.repliedOf other) (s.deferredOf other) := by
  obtain ⟨hqueued, hworkers⟩ := queuedOf_enqueue henqueue other
  unfold Staged
  rw [hqueued]
  unfold waitingOf processingOf repliedOf
  rw [hworkers]
  rfl

theorem staged_receive (h : ∀ id, s.Staged id) (id : ℕ) (enabled : Bool) (decision : ApiKeyRequestPolicyDecision) :
    ∀ other, (s.receive id enabled decision).Staged other := by
  unfold receive
  split_ifs with hclosed henabled hallow
  · exact h
  · exact staged_update (fun other _ => h other) ((h id).refuse _)
  · exact staged_update (fun other _ => h other) ((h id).refuse _)
  · split
    · exact staged_update (fun other _ => h other) ((h id).refuse _)
    · next executor henqueue =>
      apply staged_update
      · intro other hne
        rw [staged_enqueue_iff henqueue, ProxyTask.messageOf, if_neg fun heq => hne heq.symm, Option.toList_none,
          List.append_nil]
        exact h other
      · obtain ⟨hqueued, hworkers⟩ := queuedOf_enqueue henqueue id
        rw [hqueued, ProxyTask.messageOf, if_pos rfl]
        unfold waitingOf processingOf repliedOf
        rw [hworkers]
        exact (h id).accept

theorem staged_runDeferred (h : ∀ id, s.Staged id) : ∀ id, s.runDeferred.Staged id := by
  unfold runDeferred
  split
  · exact h
  · next reply rest hdeferred =>
    have hsplit : ∀ other, s.deferredOf other =
        (reply.messageOf other).toList ++ rest.filterMap (DeferredReply.messageOf other) := by
      intro other
      rw [deferredOf, hdeferred, List.filterMap_cons]
      cases reply.messageOf other <;> rfl
    apply staged_update
    · intro other hne
      have hother := h other
      unfold Staged at hother
      rw [hsplit, DeferredReply.messageOf, if_neg fun heq => hne heq.symm] at hother
      exact hother
    · have hself := h reply.connection
      unfold Staged at hself
      rw [hsplit, DeferredReply.messageOf, if_pos rfl] at hself
      exact hself.answer reply.response

theorem staged_step (h : ∀ id, s.Staged id) (action : ServerStep) : ∀ id, (s.step action).Staged id := by
  cases action with
  | start hardwareThreads =>
    intro id
    have hid := h id
    unfold Staged waitingOf processingOf repliedOf at hid ⊢
    simp only [step, AsyncExecutor.filterMap_start_replicate _ (show Worker.waitingOf id .idle = none from rfl),
      AsyncExecutor.filterMap_start_replicate _ (show Worker.processingOf id .idle = none from rfl),
      AsyncExecutor.filterMap_start_replicate _ (show Worker.repliedOf id .idle = none from rfl)]
    exact hid
  | stopAccepting => exact h
  | shutdown => exact h
  | enqueueRequest =>
    intro id
    cases henqueue : s.executor.enqueue .request with
    | none =>
      simp only [step, henqueue]
      exact h id
    | some executor =>
      simp only [step, henqueue, Option.getD_some]
      rw [staged_enqueue_iff henqueue, ProxyTask.messageOf, Option.toList_none, List.append_nil]
      exact h id
  | receive id enabled decision => exact staged_receive h id enabled decision
  | close id => exact staged_update (fun other _ => h other) (h id).close
  | dequeue i =>
    simp only [step]
    split
    · next hw htask => exact staged_dequeue h hw htask
    · exact h
  | runRequest i =>
    simp only [step]
    split
    · next hw => exact fun id => staged_setWorker hw rfl rfl rfl (h id)
    · exact h
  | lock i => exact staged_lock h i
  | reply i response =>
    simp only [step]
    split
    · next id m hw => exact staged_reply h hw response
    · exact h
  | unlock i =>
    simp only [step]
    split
    · next id m hw => exact staged_unlock h hw
    · exact h
  | complete i =>
    simp only [step]
    split
    · next hw => exact fun id => staged_setWorker hw rfl rfl rfl (h id)
    · exact h
  | runDeferred => exact staged_runDeferred h

def Keeps (c c' : WsConnection) : Prop := c'.entered = c.entered ∧ c.accepted ≤ c'.accepted

theorem Keeps.refl (c : WsConnection) : Keeps c c := ⟨rfl, Nat.le_refl _⟩

theorem keeps_setConnection {c : WsConnection} (h : Keeps (s.connection id) c) (other : ℕ) :
    Keeps (s.connection other) ((s.setConnection id c).connection other) := by
  rw [setConnection_connection]
  split_ifs with hother
  · subst hother
    exact h
  · exact Keeps.refl _

theorem keeps_answer (c : WsConnection) (m : ℕ) (response : WebsocketResponse) : Keeps c (c.answer m response) := by
  unfold WsConnection.answer
  split_ifs
  · exact Keeps.refl c
  · exact ⟨rfl, Nat.le_refl _⟩

theorem keeps_receive (s : ServerState) (id : ℕ) (enabled : Bool) (decision : ApiKeyRequestPolicyDecision)
    (other : ℕ) : Keeps (s.connection other) ((s.receive id enabled decision).connection other) := by
  have hrefuse : ∀ event, Keeps (s.connection id) ((s.connection id).refuse event) := fun _ => ⟨rfl, Nat.le_refl _⟩
  unfold receive
  split_ifs
  · exact Keeps.refl _
  · exact keeps_setConnection (hrefuse _) other
  · exact keeps_setConnection (hrefuse _) other
  · split
    · exact keeps_setConnection (hrefuse _) other
    · next executor _ =>
      have haccept : Keeps (s.connection id) (s.connection id).accept := ⟨rfl, Nat.le_succ _⟩
      exact keeps_setConnection (s := { s with executor := executor }) haccept other

theorem keeps_step (s : ServerState) {action : ServerStep} (hlock : ∀ i, action ≠ .lock i) (other : ℕ) :
    Keeps (s.connection other) ((s.step action).connection other) := by
  cases action with
  | receive id enabled decision => exact keeps_receive s id enabled decision other
  | close id =>
    have hclose : Keeps (s.connection id) (s.connection id).close := ⟨rfl, Nat.le_refl _⟩
    exact keeps_setConnection hclose other
  | lock i => exact absurd rfl (hlock i)
  | runDeferred =>
    simp only [step, runDeferred]
    split
    · exact Keeps.refl _
    · next reply rest _ => exact keeps_setConnection (s := { s with deferred := rest }) (keeps_answer _ _ _) other
  | unlock i =>
    simp only [step]
    split
    · next id m _ =>
      have hrelease : Keeps (s.connection id) (s.connection id).release := ⟨rfl, Nat.le_refl _⟩
      exact keeps_setConnection (s := s.setWorker i .returned) hrelease other
    · exact Keeps.refl _
  | start _ | stopAccepting | shutdown | enqueueRequest => exact Keeps.refl _
  | dequeue i | runRequest i | reply i _ | complete i =>
    simp only [step]
    split <;> exact Keeps.refl _

def EntersInOrder (s : ServerState) : Prop :=
  ∀ id, (s.connection id).entered <+: List.range (s.connection id).accepted

theorem range_isPrefix {m n : ℕ} (h : m ≤ n) : List.range m <+: List.range n := by
  obtain ⟨k, rfl⟩ := Nat.exists_eq_add_of_le h
  rw [List.range_add]
  exact List.prefix_append _ _

theorem entersInOrder_step {action : ServerStep} (hlock : ∀ i, action ≠ .lock i) (h : s.EntersInOrder) :
    (s.step action).EntersInOrder := by
  intro id
  obtain ⟨hentered, haccepted⟩ := keeps_step s hlock id
  rw [hentered]
  exact (h id).trans (range_isPrefix haccepted)

theorem entersInOrder_lock_iff (h : ∀ id, s.Staged id) (hin : s.EntersInOrder) (i : ℕ) :
    (s.lock i).EntersInOrder ↔ s.GrantsEarliest (.lock i) := by
  have hnone : s.lock i = s → (∀ id m, s.worker? i = some (.taken (.message id m)) →
      (s.connection id).mutexHeld = true) → ((s.lock i).EntersInOrder ↔ s.GrantsEarliest (.lock i)) := by
    intro hlock hheld
    rw [hlock]
    refine ⟨fun _ id m hw hfree => ?_, fun _ => hin⟩
    rw [hheld id m hw] at hfree
    cases hfree
  cases hw : s.worker? i with
  | none => exact hnone (by simp only [lock, hw]) (by simp [hw])
  | some w =>
    match w, hw with
    | .taken (.message id m), hw =>
      by_cases hheld : (s.connection id).mutexHeld = true
      · apply hnone (by simp only [lock, hw, hheld, if_true])
        intro id' m' hw'
        cases hw.symm.trans hw'
        exact hheld
      · have hlock : s.lock i = (s.setWorker i (.processing id m)).setConnection id ((s.connection id).enter m) := by
          simp only [lock, hw, hheld, Bool.false_eq_true, if_false]
        have hmem : m ∈ s.waitingOf id := by
          apply List.mem_filterMap.mpr
          exact ⟨_, List.mem_of_getElem? hw, by simp [Worker.waitingOf, ProxyTask.messageOf]⟩
        have hserve := (h id).line.serve_prefix_iff (hin id) hmem
        have hgrants : s.GrantsEarliest (.lock i) ↔ ∀ other ∈ s.waitingOf id, m ≤ other := by
          constructor
          · intro hgrants
            exact hgrants id m hw (Bool.eq_false_iff.mpr hheld)
          · intro hle id' m' hw' _
            cases hw.symm.trans hw'
            exact hle
        rw [hgrants, ← hserve, hlock]
        constructor
        · intro hin'
          have hself := hin' id
          rw [setConnection_connection, if_pos rfl] at hself
          exact hself
        · intro hself other
          rw [setConnection_connection]
          split_ifs with hother
          · subst hother
            exact hself
          · exact hin other
    | .idle, hw | .taken .request, hw | .processing _ _, hw | .replied _ _, hw | .returned, hw =>
      exact hnone (by simp only [lock, hw]) (by simp [hw])

theorem inOrder_iff (h : ∀ id, s.Staged id) : (∀ id, (s.connection id).InOrder) ↔ s.EntersInOrder := by
  constructor
  · intro hin id
    exact (hin id).1
  · intro hin id
    exact ⟨hin id, (h id).replies_isPrefix.trans (hin id)⟩

theorem inOrder_step_iff (h : ∀ id, s.Staged id) (hin : ∀ id, (s.connection id).InOrder) (action : ServerStep) :
    (∀ id, ((s.step action).connection id).InOrder) ↔ s.GrantsEarliest action := by
  rw [inOrder_iff (staged_step h action)]
  rw [inOrder_iff h] at hin
  by_cases hlock : ∃ i, action = .lock i
  · obtain ⟨i, rfl⟩ := hlock
    exact entersInOrder_lock_iff h hin i
  · have hne : ∀ i, action ≠ .lock i := fun i heq => hlock ⟨i, heq⟩
    refine ⟨fun _ => ?_, fun _ => entersInOrder_step hne hin⟩
    cases action with
    | lock i => exact absurd rfl (hne i)
    | _ => trivial

/-- Messages enter the proxy and are answered in the order of their arrival exactly in the runs in which no mutex is
granted past a worker that waits for it with an earlier message. -/
theorem messages_in_order_iff (actions : List ServerStep) :
    AllStates step (fun s => ∀ id, (s.connection id).InOrder) {} actions ↔
      AllSteps step GrantsEarliest {} actions := by
  apply allStates_iff_allSteps_of_invariant step (fun s => ∀ id, s.Staged id)
  · exact fun s action h => staged_step h action
  · exact fun s action h hin => inOrder_step_iff h hin action
  · exact fun _ => Stages.start
  · intro _
    constructor <;> exact List.nil_prefix

def overtaking : List ServerStep :=
  [.start 4, .receive 0 true {}, .receive 0 true {}, .dequeue 0, .dequeue 1, .lock 1, .reply 1 ⟨[], 1000, true⟩,
    .runDeferred]

theorem second_message_is_processed_first :
    ¬ ∀ actions, AllStates step (fun s => ∀ id, (s.connection id).InOrder) {} actions := by
  intro h
  have hfinal := AllStates.final step (h overtaking) 0
  revert hfinal
  decide

end ServerState

end Tightrope.Server
