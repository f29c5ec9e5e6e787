import Tightrope.Library.Runs
import Tightrope.Server.WebsocketMessages

namespace Tightrope.Server

open Runs

variable {T W : Type}

inductive WorkerLoop (T : Type) where
  | waiting
  | running (task : T)
  | left

namespace WorkerLoop

def task? : WorkerLoop T → Option T
  | .running task => some task
  | .waiting => none
  | .left => none

def isLeft : WorkerLoop T → Bool
  | .left => true
  | .waiting => false
  | .running _ => false

end WorkerLoop

def AsyncExecutor.joined (e : AsyncExecutor T W) : AsyncExecutor T W :=
  { e with queue := [], workers := [], inFlight := 0, stopping := false }

structure ExecutorState (T : Type) where
  executor : AsyncExecutor T (WorkerLoop T) := {}
  joining : Bool := false
  accepted : List T := []
  taken : List T := []
  finished : List T := []

inductive ExecutorStep (T : Type) where
  | start (hardwareThreads : ℕ)
  | stopAccepting
  | enqueue (task : T)
  | move (worker : ℕ)
  | shutdown
  | joined

namespace ExecutorState

def running (s : ExecutorState T) : List T := s.executor.workers.filterMap WorkerLoop.task?

def resume (s : ExecutorState T) (i : ℕ) : WorkerLoop T → ExecutorState T
  | .waiting =>
    match s.executor.dequeue with
    | some (task, e) => { s with executor := e.setWorker i (.running task), taken := s.taken ++ [task] }
    | none => if s.executor.stopping then { s with executor := s.executor.setWorker i .left } else s
  | .running task =>
    { s with executor := s.executor.complete.setWorker i .waiting, finished := s.finished ++ [task] }
  | .left => s

def step (s : ExecutorState T) : ExecutorStep T → ExecutorState T
  | .start hardwareThreads =>
    if s.joining then s else { s with executor := s.executor.start .waiting hardwareThreads }
  | .stopAccepting => { s with executor := s.executor.stopAccepting }
  | .enqueue task =>
    match s.executor.enqueue task with
    | none => s
    | some e => { s with executor := e, accepted := s.accepted ++ [task] }
  | .move i =>
    match s.executor.workers[i]? with
    | none => s
    | some worker => s.resume i worker
  | .shutdown => if s.joining then s else { s with executor := s.executor.shutdown, joining := true }
  | .joined =>
    if s.joining && s.executor.workers.all WorkerLoop.isLeft then
      { s with executor := s.executor.joined, joining := false }
    else s

structure Accounted (s : ExecutorState T) : Prop where
  order : s.accepted = s.taken ++ s.executor.queue
  once : (s.finished ++ s.running).Perm s.taken
  counted : s.executor.inFlight = s.running.length
  bounded : s.executor.queue.length + s.executor.inFlight ≤ kMaxInFlightTasks
  stopping : s.executor.stopping = s.joining
  closed : s.joining = true → s.executor.accepting = false
  idle : s.executor.workers = [] → s.executor.accepting = false ∧ s.executor.queue = []
  left : ∀ worker ∈ s.executor.workers, worker.isLeft = true → s.joining = true ∧ s.executor.queue = []

variable {s : ExecutorState T}

theorem accounted_initial : Accounted ({} : ExecutorState T) where
  order := rfl
  once := .nil
  counted := rfl
  bounded := Nat.zero_le _
  stopping := rfl
  closed := fun h => by cases h
  idle := fun _ => ⟨rfl, rfl⟩
  left := fun _ h => by cases h

theorem start_workers_ne_nil (e : AsyncExecutor T W) (idle : W) (hardwareThreads : ℕ) :
    (e.start idle hardwareThreads).workers ≠ [] := by
  simp only [AsyncExecutor.start]
  split_ifs with hempty
  · intro h
    have hlength := congrArg List.length h
    rw [List.length_replicate, List.length_nil, workerCount] at hlength
    omega
  · exact fun h => hempty (List.isEmpty_iff.mpr h)

theorem mem_start_workers {e : AsyncExecutor T W} {idle worker : W} {hardwareThreads : ℕ}
    (h : worker ∈ (e.start idle hardwareThreads).workers) : worker = idle ∨ worker ∈ e.workers := by
  simp only [AsyncExecutor.start] at h
  split_ifs at h
  · exact .inl (List.eq_of_mem_replicate h)
  · exact .inr h

theorem Accounted.start (h : s.Accounted) (hjoining : s.joining = false) (hardwareThreads : ℕ) :
    Accounted { s with executor := s.executor.start .waiting hardwareThreads } := by
  have hrunning : (s.executor.start .waiting hardwareThreads).workers.filterMap WorkerLoop.task? = s.running :=
    AsyncExecutor.filterMap_start_replicate WorkerLoop.task? rfl
  refine ⟨h.order, ?_, ?_, h.bounded, hjoining.symm, ?_, ?_, ?_⟩
  · rw [running, hrunning]
    exact h.once
  · rw [running, hrunning]
    exact h.counted
  · intro hjoined
    rw [hjoining] at hjoined
    cases hjoined
  · exact fun hnil => absurd hnil (start_workers_ne_nil s.executor .waiting hardwareThreads)
  · intro worker hworker hleft
    obtain rfl | hold := mem_start_workers hworker
    · cases hleft
    · exact h.left worker hold hleft

theorem enqueue_guard {e e' : AsyncExecutor T W} {task : T} (h : e.enqueue task = some e') :
    e.accepting = true ∧ e.queue.length + e.inFlight < kMaxInFlightTasks := by
  unfold AsyncExecutor.enqueue at h
  split_ifs at h with hclosed hfull
  rw [Bool.or_eq_true, not_or, Bool.not_eq_true', Bool.not_eq_false] at hclosed
  exact ⟨hclosed.1, not_le.mp hfull⟩

theorem Accounted.enqueue (h : s.Accounted) {task : T} {e : AsyncExecutor T (WorkerLoop T)}
    (henqueue : s.executor.enqueue task = some e) :
    Accounted { s with executor := e, accepted := s.accepted ++ [task] } := by
  obtain ⟨haccepting, hroom⟩ := enqueue_guard henqueue
  obtain rfl := AsyncExecutor.enqueue_eq_some henqueue
  refine ⟨?_, h.once, h.counted, ?_, h.stopping, h.closed, ?_, ?_⟩
  · rw [h.order, List.append_assoc]
  · change (s.executor.queue ++ [task]).length + s.executor.inFlight ≤ kMaxInFlightTasks
    rw [List.length_append, List.length_singleton]
    omega
  · intro hnil
    have hclosed := (h.idle hnil).1
    rw [haccepting] at hclosed
    cases hclosed
  · intro worker hworker hleft
    have hclosed := h.closed (h.left worker hworker hleft).1
    rw [haccepting] at hclosed
    cases hclosed

section Resume

variable {i : ℕ} {task : T}

theorem set_ne_nil {workers : List W} {worker : W} (hworker : workers[i]? = some worker) (worker' : W) :
    workers.set i worker' ≠ [] := by
  rw [ne_eq, List.set_eq_nil_iff]
  rintro rfl
  simp at hworker

theorem queue_of_dequeue {e e' : AsyncExecutor T W} (h : e.dequeue = some (task, e')) :
    ∃ rest, e.queue = task :: rest ∧ e' = { e with queue := rest, inFlight := e.inFlight + 1 } := by
  unfold AsyncExecutor.dequeue at h
  split at h
  · cases h
  · obtain ⟨rfl, rfl⟩ := Prod.mk.inj (Option.some.inj h)
    exact ⟨_, ‹_›, rfl⟩

theorem Accounted.take (h : s.Accounted) (hworker : s.executor.workers[i]? = some .waiting)
    {e : AsyncExecutor T (WorkerLoop T)} (hdequeue : s.executor.dequeue = some (task, e)) :
    Accounted { s with executor := e.setWorker i (.running task), taken := s.taken ++ [task] } := by
  obtain ⟨others, hbefore, hafter⟩ := AsyncExecutor.filterMap_workers_perm WorkerLoop.task? hworker (.running task)
  obtain ⟨rest, hqueue, rfl⟩ := queue_of_dequeue hdequeue
  have hbusy : ∀ worker ∈ s.executor.workers, worker.isLeft = true → False := by
    intro worker hmem hleft
    have hempty := (h.left worker hmem hleft).2
    rw [hqueue] at hempty
    cases hempty
  have hbounded := h.bounded
  rw [hqueue, List.length_cons] at hbounded
  refine ⟨?_, ?_, ?_, ?_, h.stopping, h.closed, ?_, ?_⟩
  · rw [h.order, hqueue, List.append_assoc]
    rfl
  · have htaken : (s.finished ++ others).Perm s.taken := (hbefore.symm.append_left s.finished).trans h.once
    exact ((hafter.append_left s.finished).trans List.perm_middle).trans
      ((htaken.cons task).trans (List.perm_append_singleton task s.taken).symm)
  · have hlength := hafter.length_eq
    have hcounted := h.counted
    rw [running, hbefore.length_eq] at hcounted
    rw [running, AsyncExecutor.setWorker]
    simp only
    rw [hlength, hcounted]
    exact (List.length_cons).symm
  · change rest.length + (s.executor.inFlight + 1) ≤ kMaxInFlightTasks
    omega
  · exact fun hnil => absurd hnil (set_ne_nil hworker _)
  · intro worker hmem hleft
    obtain hold | rfl := List.mem_or_eq_of_mem_set hmem
    · exact (hbusy worker hold hleft).elim
    · cases hleft

theorem Accounted.leave (h : s.Accounted) (hworker : s.executor.workers[i]? = some .waiting)
    (hdequeue : s.executor.dequeue = none) (hstopping : s.executor.stopping = true) :
    Accounted { s with executor := s.executor.setWorker i .left } := by
  obtain ⟨others, hbefore, hafter⟩ := AsyncExecutor.filterMap_workers_perm WorkerLoop.task? hworker .left
  have hperm := hafter.trans hbefore.symm
  have hempty : s.executor.queue = [] := by
    unfold AsyncExecutor.dequeue at hdequeue
    split at hdequeue
    · assumption
    · cases hdequeue
  refine ⟨h.order, (hperm.append_left s.finished).trans h.once, ?_, h.bounded, h.stopping, h.closed, ?_, ?_⟩
  · exact h.counted.trans hperm.length_eq.symm
  · exact fun hnil => absurd hnil (set_ne_nil hworker _)
  · exact fun _ _ _ => ⟨h.stopping.symm.trans hstopping, hempty⟩

theorem Accounted.complete (h : s.Accounted) (hworker : s.executor.workers[i]? = some (.running task)) :
    Accounted { s with executor := s.executor.complete.setWorker i .waiting, finished := s.finished ++ [task] } := by
  obtain ⟨others, hbefore, hafter⟩ := AsyncExecutor.filterMap_workers_perm WorkerLoop.task? hworker .waiting
  have hcounted := h.counted
  rw [running, hbefore.length_eq] at hcounted
  have hrunning : s.executor.inFlight = others.length + 1 := hcounted
  have hbounded := h.bounded
  refine ⟨h.order, ?_, ?_, ?_, h.stopping, h.closed, ?_, ?_⟩
  · have hmoved : (s.finished ++ [task] ++ others).Perm s.taken := by
      rw [List.append_assoc]
      exact (hbefore.symm.append_left s.finished).trans h.once
    exact (hafter.append_left (s.finished ++ [task])).trans hmoved
  · have hlength : (s.executor.workers.set i .waiting |>.filterMap WorkerLoop.task?).length = others.length :=
      hafter.length_eq
    change s.executor.inFlight - 1 = (s.executor.workers.set i .waiting |>.filterMap WorkerLoop.task?).length
    omega
  · change s.executor.queue.length + (s.executor.inFlight - 1) ≤ kMaxInFlightTasks
    omega
  · exact fun hnil => absurd hnil (set_ne_nil hworker _)
  · intro worker hmem hleft
    obtain hold | rfl := List.mem_or_eq_of_mem_set hmem
    · exact h.left worker hold hleft
    · cases hleft

theorem Accounted.resume (h : s.Accounted) {worker : WorkerLoop T} (hworker : s.executor.workers[i]? = some worker) :
    (s.resume i worker).Accounted := by
  cases worker with
  | waiting =>
    rw [ExecutorState.resume]
    cases hdequeue : s.executor.dequeue with
    | some found =>
      obtain ⟨task, e⟩ := found
      exact h.take hworker hdequeue
    | none =>
      simp only
      split_ifs with hstopping
      · exact h.leave hworker hdequeue hstopping
      · exact h
  | running task => exact h.complete hworker
  | left => exact h

end Resume

theorem running_eq_nil (h : s.executor.workers.all WorkerLoop.isLeft = true) : s.running = [] := by
  rw [running, List.filterMap_eq_nil_iff]
  intro worker hworker
  have hleft := List.all_eq_true.mp h worker hworker
  cases worker with
  | left => rfl
  | waiting => cases hleft
  | running task => cases hleft

theorem Accounted.finished_perm (h : s.Accounted) (hleft : s.executor.workers.all WorkerLoop.isLeft = true) :
    s.executor.queue = [] ∧ s.finished.Perm s.accepted := by
  have hqueue : s.executor.queue = [] := by
    cases hworkers : s.executor.workers with
    | nil => exact (h.idle hworkers).2
    | cons worker workers =>
      have hmem : worker ∈ s.executor.workers := by
        rw [hworkers]
        exact List.mem_cons_self
      exact (h.left worker hmem (List.all_eq_true.mp hleft worker hmem)).2
  refine ⟨hqueue, ?_⟩
  have honce := h.once
  rw [running_eq_nil hleft, List.append_nil] at honce
  rw [h.order, hqueue, List.append_nil]
  exact honce

theorem Accounted.joined (h : s.Accounted) (hjoining : s.joining = true)
    (hleft : s.executor.workers.all WorkerLoop.isLeft = true) :
    Accounted { s with executor := s.executor.joined, joining := false } := by
  obtain ⟨hqueue, -⟩ := h.finished_perm hleft
  refine ⟨?_, ?_, rfl, Nat.zero_le _, rfl, (fun hfalse => by cases hfalse), ?_, fun _ hmem => by cases hmem⟩
  · rw [h.order, hqueue]
    rfl
  · have honce := h.once
    rw [running_eq_nil hleft] at honce
    exact honce
  · exact fun _ => ⟨h.closed hjoining, rfl⟩

theorem Accounted.step (h : s.Accounted) (action : ExecutorStep T) : (s.step action).Accounted := by
  cases action with
  | start hardwareThreads =>
    rw [ExecutorState.step]
    split_ifs with hjoining
    · exact h
    · exact h.start (Bool.eq_false_iff.mpr hjoining) hardwareThreads
  | stopAccepting =>
    exact ⟨h.order, h.once, h.counted, h.bounded, h.stopping, fun _ => rfl, fun hnil => ⟨rfl, (h.idle hnil).2⟩, h.left⟩
  | enqueue task =>
    rw [ExecutorState.step]
    cases henqueue : s.executor.enqueue task with
    | none => exact h
    | some e => exact h.enqueue henqueue
  | move i =>
    rw [ExecutorState.step]
    cases hworker : s.executor.workers[i]? with
    | none => exact h
    | some worker => exact h.resume hworker
  | shutdown =>
    rw [ExecutorState.step]
    split_ifs with hjoining
    · exact h
    · refine ⟨h.order, h.once, h.counted, h.bounded, rfl, fun _ => rfl, fun hnil => ⟨rfl, (h.idle hnil).2⟩, ?_⟩
      exact fun worker hworker hleft => ⟨rfl, (h.left worker hworker hleft).2⟩
  | joined =>
    rw [ExecutorState.step]
    split_ifs with hjoined
    · rw [Bool.and_eq_true] at hjoined
      exact h.joined hjoined.1 hjoined.2
    · exact h

/-- In every state of every run, the tasks accepted are, in order, those taken and those that wait; each one taken runs
or has been run, once; no more than the limit wait or run, and the counter counts those that run; and where all
workers have left, as they have when a shutdown returns, all accepted tasks have been run. -/
theorem accepted_tasks_run_once (actions : List (ExecutorStep T)) :
    AllStates ExecutorState.step (fun s => s.accepted = s.taken ++ s.executor.queue ∧
      (s.finished ++ s.running).Perm s.taken ∧ s.executor.inFlight = s.running.length ∧
      s.executor.queue.length + s.running.length ≤ kMaxInFlightTasks ∧
      (s.executor.workers.all WorkerLoop.isLeft = true → s.finished.Perm s.accepted)) {} actions := by
  have hstates : AllStates ExecutorState.step Accounted ({} : ExecutorState T) actions := by
    refine allStates_of_step _ ?_ accounted_initial (allSteps_of_forall ExecutorState.step fun _ _ => trivial)
    exact fun s action h _ => h.step action
  refine hstates.mono _ fun s h => ⟨h.order, h.once, h.counted, ?_, fun hleft => (h.finished_perm hleft).2⟩
  rw [← h.counted]
  exact h.bounded

end ExecutorState

end Tightrope.Server
