import Mathlib.Data.List.Induction

/-!
What a history of actions leaves in one place: the value written there last, unless an action after it dropped it.
-/

namespace Retention

variable {A V : Type} (writes : A → Option V) (drops : A → V → Prop)

def Retained (as : List A) (v : V) : Prop :=
  ∃ before a after, as = before ++ a :: after ∧ writes a = some v ∧ ∀ b ∈ after, writes b = none ∧ ¬ drops b v

def RetainedSince (as : List A) (n : ℕ) : Prop :=
  n < as.length ∧ (∀ v, ¬ Retained writes drops (as.take n) v) ∧
    ∀ m, n < m → m ≤ as.length → ∃ v, Retained writes drops (as.take m) v

variable {writes drops} {as : List A} {a : A} {v : V}

@[simp] theorem not_retained_nil : ¬ Retained writes drops [] v := by
  rintro ⟨before, a, after, heq, -⟩
  exact absurd heq (by simp)

theorem retained_concat : Retained writes drops (as ++ [a]) v ↔
    writes a = some v ∨ writes a = none ∧ Retained writes drops as v ∧ ¬ drops a v := by
  constructor
  · rintro ⟨before, b, after, heq, hwrites, hafter⟩
    obtain rfl | ⟨init, last, rfl⟩ := List.eq_nil_or_concat after
    · obtain ⟨-, hlast⟩ := List.append_inj' heq rfl
      obtain rfl := List.singleton_inj.mp hlast
      exact .inl hwrites
    · rw [List.concat_eq_append] at heq hafter
      rw [← List.cons_append, ← List.append_assoc] at heq
      obtain ⟨rfl, hlast⟩ := List.append_inj' heq rfl
      obtain rfl := List.singleton_inj.mp hlast
      obtain ⟨hnone, hdrops⟩ := hafter a (by simp)
      exact .inr ⟨hnone, ⟨before, b, init, rfl, hwrites, fun c hc => hafter c (by simp [hc])⟩, hdrops⟩
  · rintro (hwrites | ⟨hnone, ⟨before, b, after, rfl, hwrites, hafter⟩, hdrops⟩)
    · exact ⟨as, a, [], rfl, hwrites, by simp⟩
    · refine ⟨before, b, after ++ [a], by simp, hwrites, ?_⟩
      rw [List.forall_mem_append, List.forall_mem_singleton]
      exact ⟨hafter, hnone, hdrops⟩

/-- An action that neither writes in the place nor drops what is there can be left out. -/
theorem retained_skip {before after : List A} (hnone : writes a = none) (hkeep : ¬ drops a v) :
    Retained writes drops (before ++ a :: after) v ↔ Retained writes drops (before ++ after) v := by
  induction after using List.reverseRecOn with
  | nil =>
    rw [List.append_nil, retained_concat]
    simp [hnone, hkeep]
  | append_singleton after last ih =>
    rw [← List.cons_append, ← List.append_assoc, ← List.append_assoc, retained_concat, retained_concat, ih]

/-- An action that leaves a value in the place leaves it held since the same position. -/
theorem RetainedSince.concat {n : ℕ} (h : RetainedSince writes drops as n)
    (hv : Retained writes drops (as ++ [a]) v) : RetainedSince writes drops (as ++ [a]) n := by
  obtain ⟨hlt, hbefore, hafter⟩ := h
  refine ⟨by rw [List.length_append]; omega, ?_, fun m hnm hm => ?_⟩
  · rwa [List.take_append_of_le_length (Nat.le_of_lt hlt)]
  · rw [List.length_append, List.length_singleton] at hm
    by_cases hlast : m ≤ as.length
    · rw [List.take_append_of_le_length hlast]
      exact hafter m hnm hlast
    · rw [List.take_of_length_le (by rw [List.length_append, List.length_singleton]; omega)]
      exact ⟨v, hv⟩

theorem retainedSince_last (hnone : ∀ w, ¬ Retained writes drops as w) (hv : Retained writes drops (as ++ [a]) v) :
    RetainedSince writes drops (as ++ [a]) as.length := by
  refine ⟨by simp, ?_, fun m hnm hm => ?_⟩
  · rwa [List.take_left]
  · rw [List.take_of_length_le (by rw [List.length_append, List.length_singleton] at hm ⊢; omega)]
    exact ⟨v, hv⟩

theorem exists_retainedSince (h : Retained writes drops as v) : ∃ n, RetainedSince writes drops as n := by
  induction as using List.reverseRecOn generalizing v with
  | nil => exact absurd h not_retained_nil
  | append_singleton as a ih =>
    by_cases hheld : ∃ w, Retained writes drops as w
    · obtain ⟨w, hw⟩ := hheld
      obtain ⟨n, hn⟩ := ih hw
      exact ⟨n, hn.concat h⟩
    · exact ⟨as.length, retainedSince_last (not_exists.mp hheld) h⟩

end Retention
