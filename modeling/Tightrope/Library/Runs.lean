import Mathlib.Data.List.Basic

/-!
Runs of a deterministic system: the states it passes through, conditions on every
step of a run, and the invariant rule.
What can be observed of a run when the actions that are to stay hidden are erased from it.
-/

namespace Runs

variable {S A : Type} (step : S → A → S)

def run (s : S) (as : List A) : S := as.foldl step s

def AllSteps (P : S → A → Prop) : S → List A → Prop
  | _, [] => True
  | s, a :: as => P s a ∧ AllSteps P (step s a) as

def AllStates (Q : S → Prop) : S → List A → Prop
  | s, [] => Q s
  | s, a :: as => Q s ∧ AllStates Q (step s a) as

instance AllSteps.decidable {P : S → A → Prop} [∀ s a, Decidable (P s a)] :
    ∀ (s : S) (as : List A), Decidable (AllSteps step P s as)
  | _, [] => .isTrue trivial
  | s, a :: as => @instDecidableAnd _ _ _ (AllSteps.decidable (step s a) as)

theorem AllStates.start {Q : S → Prop} {s : S} {as : List A} (h : AllStates step Q s as) : Q s := by
  cases as with
  | nil => exact h
  | cons a as => exact h.1

theorem AllStates.final {Q : S → Prop} {s : S} {as : List A} (h : AllStates step Q s as) :
    Q (run step s as) := by
  induction as generalizing s with
  | nil => exact h
  | cons a as ih => exact ih h.2

theorem AllStates.mono {Q Q' : S → Prop} (himp : ∀ s, Q s → Q' s) {s : S} {as : List A}
    (h : AllStates step Q s as) : AllStates step Q' s as := by
  induction as generalizing s with
  | nil => exact himp s h
  | cons a as ih => exact ⟨himp s h.1, ih h.2⟩

theorem AllSteps.mono {P P' : S → A → Prop} (himp : ∀ s a, P s a → P' s a) {s : S} {as : List A}
    (h : AllSteps step P s as) : AllSteps step P' s as := by
  induction as generalizing s with
  | nil => trivial
  | cons a as ih => exact ⟨himp s a h.1, ih h.2⟩

theorem allSteps_congr {P P' : S → A → Prop} (hiff : ∀ s a, P s a ↔ P' s a) {s : S} {as : List A} :
    AllSteps step P s as ↔ AllSteps step P' s as :=
  ⟨AllSteps.mono step fun s a => (hiff s a).mp, AllSteps.mono step fun s a => (hiff s a).mpr⟩

/-- What holds at the start and is kept by every step that meets `P` holds in every state
of a run whose steps all meet `P`. -/
theorem allStates_of_step {P : S → A → Prop} {Q : S → Prop}
    (hstep : ∀ s a, Q s → P s a → Q (step s a)) {s : S} {as : List A} (hs : Q s)
    (h : AllSteps step P s as) : AllStates step Q s as := by
  induction as generalizing s with
  | nil => exact hs
  | cons a as ih => exact ⟨hs, ih (hstep s a hs h.1) h.2⟩

/-- What every step that meets `P` gives from a state of the invariant holds of every step of such a run. -/
theorem allSteps_of_step {P R : S → A → Prop} {Q : S → Prop}
    (hstep : ∀ s a, Q s → P s a → Q (step s a) ∧ R s a) {s : S} {as : List A} (hs : Q s)
    (h : AllSteps step P s as) : AllSteps step R s as := by
  induction as generalizing s with
  | nil => trivial
  | cons a as ih =>
    obtain ⟨hnext, hr⟩ := hstep s a hs h.1
    exact ⟨hr, ih hnext h.2⟩

/-- Where a step from the invariant keeps `Q` exactly when it meets `P`, the runs that keep `Q` are the runs of such
steps. -/
theorem allStates_iff_allSteps_of_invariant (Inv : S → Prop) {P : S → A → Prop} {Q : S → Prop}
    (hinv : ∀ s a, Inv s → Inv (step s a)) (hstep : ∀ s a, Inv s → Q s → (Q (step s a) ↔ P s a))
    {s : S} {as : List A} (hs : Inv s) (hq : Q s) : AllStates step Q s as ↔ AllSteps step P s as := by
  induction as generalizing s with
  | nil => exact ⟨fun _ => trivial, fun _ => hq⟩
  | cons a as ih =>
    constructor
    · intro h
      have hnext := h.2.start
      exact ⟨(hstep s a hs hq).mp hnext, (ih (hinv s a hs) hnext).mp h.2⟩
    · intro h
      have hnext := (hstep s a hs hq).mpr h.1
      exact ⟨hq, (ih (hinv s a hs) hnext).mpr h.2⟩

theorem allStates_iff_allSteps {P : S → A → Prop} {Q : S → Prop}
    (hstep : ∀ s a, Q s → (Q (step s a) ↔ P s a)) {s : S} {as : List A} (hs : Q s) :
    AllStates step Q s as ↔ AllSteps step P s as :=
  allStates_iff_allSteps_of_invariant step (fun _ => True) (fun _ _ => id) (fun s a _ => hstep s a) trivial hs

theorem AllStates.allSteps {Q : S → Prop} {P : S → A → Prop} (himp : ∀ s a, Q s → P s a) {s : S} {as : List A}
    (h : AllStates step Q s as) : AllSteps step P s as := by
  induction as generalizing s with
  | nil => trivial
  | cons a as ih => exact ⟨himp s a h.1, ih h.2⟩

theorem allSteps_of_forall {V : A → Prop} {s : S} {as : List A} (hv : ∀ a ∈ as, V a) :
    AllSteps step (fun _ a => V a) s as := by
  induction as generalizing s with
  | nil => trivial
  | cons a as ih => exact ⟨hv a (by simp), ih fun b hb => hv b (by simp [hb])⟩

theorem AllSteps.and_forall {P : S → A → Prop} {V : A → Prop} {s : S} {as : List A}
    (hv : ∀ a ∈ as, V a) (h : AllSteps step P s as) : AllSteps step (fun s a => V a ∧ P s a) s as := by
  induction as generalizing s with
  | nil => trivial
  | cons a as ih => exact ⟨⟨hv a (by simp), h.1⟩, ih (fun b hb => hv b (by simp [hb])) h.2⟩

section Simulation

variable {T R : Type} (actS : S → A → S × R) (actT : T → A → T × R)

def replies (s : S) : List A → List R
  | [] => []
  | a :: as => (actS s a).2 :: replies (actS s a).1 as

def pairStep (p : S × T) (a : A) : S × T := ((actS p.1 a).1, (actT p.2 a).1)

theorem replies_eq_of_simulation {Rel : S → T → Prop} {P : S × T → A → Prop}
    (hstep : ∀ s t a, Rel s t → P (s, t) a → Rel (actS s a).1 (actT t a).1 ∧ (actS s a).2 = (actT t a).2)
    {s : S} {t : T} {as : List A} (h : Rel s t) (hall : AllSteps (pairStep actS actT) P (s, t) as) :
    replies actS s as = replies actT t as := by
  induction as generalizing s t with
  | nil => rfl
  | cons a as ih =>
    obtain ⟨hrel, hreply⟩ := hstep s t a h hall.1
    rw [replies, replies, hreply, ih hrel hall.2]

end Simulation

section LastTouch

variable (Touches Good : S → A → Prop)

def LastTouchGood (start : Prop) (s : S) (as : List A) : Prop :=
  start ∧ AllSteps step (fun s a => ¬ Touches s a) s as ∨
    ∃ before a after, as = before ++ a :: after ∧ Touches (run step s before) a ∧ Good (run step s before) a ∧
      AllSteps step (fun s a => ¬ Touches s a) (step (run step s before) a) after

variable {step Touches Good}

theorem lastTouchGood_cons {start : Prop} {s : S} {a : A} {as : List A} :
    LastTouchGood step Touches Good start s (a :: as) ↔
      LastTouchGood step Touches Good (Touches s a ∧ Good s a ∨ ¬ Touches s a ∧ start) (step s a) as := by
  constructor
  · rintro (⟨hstart, hkept, hrest⟩ | ⟨before, b, after, hsplit, htouch, hgood, hrest⟩)
    · exact .inl ⟨.inr ⟨hkept, hstart⟩, hrest⟩
    · cases before with
      | nil =>
        obtain ⟨rfl, rfl⟩ := List.cons.inj hsplit
        exact .inl ⟨.inl ⟨htouch, hgood⟩, hrest⟩
      | cons first before =>
        obtain ⟨rfl, rfl⟩ := List.cons.inj hsplit
        exact .inr ⟨before, b, after, rfl, htouch, hgood, hrest⟩
  · rintro (⟨⟨htouch, hgood⟩ | ⟨hkept, hstart⟩, hrest⟩ | ⟨before, b, after, rfl, htouch, hgood, hrest⟩)
    · exact .inr ⟨[], a, as, rfl, htouch, hgood, hrest⟩
    · exact .inl ⟨hstart, hkept, hrest⟩
    · exact .inr ⟨a :: before, b, after, rfl, htouch, hgood, hrest⟩

/-- Where a step that touches the place decides whether it is good, and any other leaves that as it is, the last one
that touches it decides for the run. -/
theorem final_iff_lastTouchGood {Q : S → Prop} {as : List A}
    (htouch : ∀ s, ∀ a ∈ as, Touches s a → (Q (step s a) ↔ Good s a))
    (hkeep : ∀ s, ∀ a ∈ as, ¬ Touches s a → (Q (step s a) ↔ Q s)) (s : S) :
    Q (run step s as) ↔ LastTouchGood step Touches Good (Q s) s as := by
  induction as generalizing s with
  | nil =>
    constructor
    · exact fun h => .inl ⟨h, trivial⟩
    · rintro (⟨h, -⟩ | ⟨before, a, after, hsplit, -⟩)
      · exact h
      · exact absurd hsplit.symm (List.append_ne_nil_of_right_ne_nil before (List.cons_ne_nil a after))
  | cons a as ih =>
    have hfirst : Q (step s a) ↔ Touches s a ∧ Good s a ∨ ¬ Touches s a ∧ Q s := by
      by_cases h : Touches s a
      · simp only [htouch s a List.mem_cons_self h, h, true_and, not_true_eq_false, false_and, or_false]
      · simp only [hkeep s a List.mem_cons_self h, h, false_and, not_false_eq_true, true_and, false_or]
    rw [lastTouchGood_cons, ← hfirst]
    exact ih (fun s b hb => htouch s b (List.mem_cons_of_mem a hb))
      (fun s b hb => hkeep s b (List.mem_cons_of_mem a hb))
      (step s a)

end LastTouch

end Runs

namespace Erasure

open Runs

variable {S A O : Type} (step : S → A → S) (observe : S → A → Option O)

def observations : S → List A → List O
  | _, [] => []
  | s, a :: as => (observe s a).toList ++ observations (step s a) as

variable {step observe}

/-- Where a hidden action shows nothing and leaves related states related, and a visible one shows the same in both, a
run shows what is left of it when its hidden actions are erased. -/
theorem observations_erase {hidden : A → Bool} {Rel : S → S → Prop} {P : S → A → Prop}
    (hhidden : ∀ s t a, Rel s t → P s a → hidden a = true → observe s a = none ∧ Rel (step s a) t)
    (hvisible : ∀ s t a, Rel s t → P s a → hidden a = false →
      observe s a = observe t a ∧ Rel (step s a) (step t a))
    {s t : S} {as : List A} (h : Rel s t) (hall : AllSteps step P s as) :
    observations step observe s as = observations step observe t (as.filter fun a => !hidden a) := by
  induction as generalizing s t with
  | nil => rfl
  | cons a as ih =>
    cases ha : hidden a with
    | true =>
      obtain ⟨hnothing, hrel⟩ := hhidden s t a h hall.1 ha
      rw [List.filter_cons_of_neg (by simp [ha]), observations, hnothing, ih hrel hall.2]
      rfl
    | false =>
      obtain ⟨hsame, hrel⟩ := hvisible s t a h hall.1 ha
      rw [List.filter_cons_of_pos (by simp [ha]), observations, observations, hsame, ih hrel hall.2]

end Erasure
