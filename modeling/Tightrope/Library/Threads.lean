import Mathlib.Algebra.GroupWithZero.Nat
import Mathlib.Algebra.Order.BigOperators.Group.List
import Mathlib.Algebra.Order.Group.Nat
import Tightrope.Library.Runs

/-!
Any number of threads over one shared state, each step one atomic move of one thread, and
sums over the local states of the threads.
-/

namespace Threads

variable {G L C A : Type}

structure State (G L : Type) where
  shared : G
  threads : List L

inductive Action (C A : Type) where
  | spawn (call : C)
  | move (thread : ℕ) (act : A)
  deriving DecidableEq, Repr

variable (start : C → L) (act : G → L → A → G × L)

def step (s : State G L) : Action C A → State G L
  | .spawn call => { s with threads := s.threads ++ [start call] }
  | .move i a =>
    match s.threads[i]? with
    | none => s
    | some l => ⟨(act s.shared l a).1, s.threads.set i (act s.shared l a).2⟩

def total (weight : L → ℕ) (s : State G L) : ℕ := (s.threads.map weight).sum

theorem step_cases (s : State G L) (action : Action C A) :
    (∃ call, action = .spawn call ∧ step start act s action = ⟨s.shared, s.threads ++ [start call]⟩) ∨
    (∃ i a, action = .move i a ∧ s.threads[i]? = none ∧ step start act s action = s) ∨
    (∃ i a l, action = .move i a ∧ s.threads[i]? = some l ∧
      step start act s action = ⟨(act s.shared l a).1, s.threads.set i (act s.shared l a).2⟩) := by
  cases action with
  | spawn call => exact .inl ⟨call, rfl, rfl⟩
  | move i a =>
    cases h : s.threads[i]? with
    | none => exact .inr (.inl ⟨i, a, rfl, h, by simp only [step, h]⟩)
    | some l => exact .inr (.inr ⟨i, a, l, rfl, h, by simp only [step, h]⟩)

variable {start act}

theorem sum_map_set {weight : L → ℕ} {threads : List L} {i : ℕ} {l l' : L} (h : threads[i]? = some l) :
    ((threads.set i l').map weight).sum + weight l = (threads.map weight).sum + weight l' := by
  induction threads generalizing i with
  | nil => simp at h
  | cons head tail ih =>
    cases i with
    | zero =>
      obtain rfl : head = l := by simpa using h
      simp only [List.set_cons_zero, List.map_cons, List.sum_cons]
      omega
    | succ i =>
      have htail := ih (show tail[i]? = some l by simpa using h)
      simp only [List.set_cons_succ, List.map_cons, List.sum_cons]
      omega

theorem total_set (weight : L → ℕ) {s : State G L} {i : ℕ} {l : L} (l' : L) (g : G) (h : s.threads[i]? = some l) :
    total weight ⟨g, s.threads.set i l'⟩ + weight l = total weight s + weight l' := sum_map_set h

theorem mem_set_of_mem {threads : List L} {i : ℕ} {l l' x : L} (h : threads[i]? = some l) (hx : x ∈ threads) :
    x = l ∨ x ∈ threads.set i l' := by
  obtain ⟨j, hj⟩ := List.getElem?_of_mem hx
  by_cases hij : i = j
  · subst hij
    exact .inl (Option.some.inj (hj.symm.trans h))
  · exact .inr (List.mem_of_getElem? ((List.getElem?_set_ne hij).trans hj))

/-- A thread with all of the weight leaves none for the others. -/
theorem weight_of_mem_set {weight : L → ℕ} {threads : List L} {i : ℕ} {l l' : L} (h : threads[i]? = some l)
    (hall : (threads.map weight).sum ≤ weight l) :
    ∀ x ∈ threads.set i l', x = l' ∨ x ∈ threads ∧ weight x = 0 := by
  induction threads generalizing i with
  | nil => simp at h
  | cons head tail ih =>
    rw [List.map_cons, List.sum_cons] at hall
    cases i with
    | zero =>
      obtain rfl : head = l := by simpa using h
      intro x hx
      obtain rfl | hx := List.mem_cons.mp hx
      · exact .inl rfl
      · have hle : weight x ≤ (tail.map weight).sum := List.le_sum_of_mem (List.mem_map_of_mem hx)
        exact .inr ⟨List.mem_cons_of_mem _ hx, by omega⟩
    | succ i =>
      have htail : tail[i]? = some l := by simpa using h
      have hle : weight l ≤ (tail.map weight).sum :=
        List.le_sum_of_mem (List.mem_map_of_mem (List.mem_of_getElem? htail))
      intro x hx
      obtain rfl | hx := List.mem_cons.mp hx
      · exact .inr ⟨List.mem_cons_self, by omega⟩
      · obtain heq | ⟨hmem, hzero⟩ := ih htail (by omega) x hx
        · exact .inl heq
        · exact .inr ⟨List.mem_cons_of_mem _ hmem, hzero⟩

theorem total_append (weight : L → ℕ) (s : State G L) (l : L) :
    total weight ⟨s.shared, s.threads ++ [l]⟩ = total weight s + weight l := by
  simp [total]

theorem weight_le_total (weight : L → ℕ) {s : State G L} {i : ℕ} {l : L} (h : s.threads[i]? = some l) :
    weight l ≤ total weight s := by
  apply List.le_sum_of_mem
  exact List.mem_map_of_mem (List.mem_of_getElem? h)

theorem total_add (weight weight' : L → ℕ) (s : State G L) :
    total (fun l => weight l + weight' l) s = total weight s + total weight' s := List.sum_map_add

theorem step_single (g : G) (l : L) (a : A) :
    step start act ⟨g, [l]⟩ (.move 0 a) = ⟨(act g l a).1, [(act g l a).2]⟩ := rfl

section Local

variable (start act)

def MoveMeets (q : G → L → A → Prop) (s : State G L) : Action C A → Prop
  | .spawn _ => True
  | .move i a => ∀ l, s.threads[i]? = some l → q s.shared l a

variable {start act}

theorem forall_mem_set_iff {p : L → Prop} {threads : List L} {i : ℕ} {l l' : L} (h : ∀ l ∈ threads, p l)
    (hl : threads[i]? = some l) : (∀ l ∈ threads.set i l', p l) ↔ p l' := by
  constructor
  · intro hset
    exact hset l' (List.mem_set (List.getElem?_eq_some_iff.mp hl).1 l')
  · intro hl' x hx
    obtain hx | rfl := List.mem_or_eq_of_mem_set hx
    · exact h x hx
    · exact hl'

/-- A property of single threads is kept by a step exactly when the thread that moves keeps it. -/
theorem forall_threads_step_iff {p : L → Prop} {q : G → L → A → Prop} (hstart : ∀ call, p (start call))
    (hact : ∀ g l a, p l → (p (act g l a).2 ↔ q g l a)) {s : State G L} (action : Action C A)
    (h : ∀ l ∈ s.threads, p l) : (∀ l ∈ (step start act s action).threads, p l) ↔ MoveMeets q s action := by
  obtain ⟨call, rfl, hstep⟩ | ⟨i, a, rfl, hnone, hstep⟩ | ⟨i, a, l, rfl, hl, hstep⟩ := step_cases start act s action
  · rw [hstep]
    constructor
    · intro _
      trivial
    · intro _ l hmem
      obtain hold | hnew := List.mem_append.mp hmem
      · exact h l hold
      · exact List.mem_singleton.mp hnew ▸ hstart call
  · rw [hstep]
    constructor
    · intro _ l hl
      rw [hnone] at hl
      cases hl
    · exact fun _ => h
  · rw [hstep, forall_mem_set_iff h hl, hact s.shared l a (h l (List.mem_of_getElem? hl))]
    constructor
    · intro hq l' hl'
      obtain rfl := Option.some.inj (hl.symm.trans hl')
      exact hq
    · intro hmeets
      exact hmeets l hl

end Local

end Threads
