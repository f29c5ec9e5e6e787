import Mathlib.Data.List.Perm.Basic
import Mathlib.Data.List.Pairwise

/-!
The first elements of a list in sorted order, and the position of a least element.
-/

namespace Selection

variable {α : Type} (le : α → α → Bool)

def smallest (n : ℕ) (l : List α) : List α := (l.mergeSort le).take n

variable {le}

theorem smallest_spec (htrans : ∀ a b c, le a b = true → le b c = true → le a c = true)
    (htotal : ∀ a b, (le a b || le b a) = true) (n : ℕ) (l : List α) :
    (smallest le n l).length = min n l.length ∧ (smallest le n l).Pairwise (fun a b => le a b = true) ∧
      ∃ rest, (smallest le n l ++ rest).Perm l ∧ ∀ a ∈ smallest le n l, ∀ b ∈ rest, le a b = true := by
  have hsorted := List.pairwise_mergeSort htrans htotal l
  have hcut := List.take_append_drop n (l.mergeSort le)
  rw [← hcut, List.pairwise_append] at hsorted
  refine ⟨?_, hsorted.1, (l.mergeSort le).drop n, ?_, hsorted.2.2⟩
  · rw [smallest, List.length_take, List.length_mergeSort]
  · rw [smallest, hcut]
    exact List.mergeSort_perm l le

def minElement (less : α → α → Bool) : List α → Option ℕ
  | [] => none
  | x :: xs => some ((xs.zipIdx 1).foldl (fun best next => if less next.1 best.1 then next else best) (x, 0)).2

theorem minElement_foldl {less : α → α → Bool} (htrans : ∀ a b c, less a b = true → less b c = true → less a c = true)
    (hirrefl : ∀ a, less a a = false) (rest done : List α) {best : α} {i : ℕ} (hbest : done[i]? = some best)
    (hleast : ∀ y ∈ done, less y best = false) :
    ∃ b j, (rest.zipIdx done.length).foldl (fun best next => if less next.1 best.1 then next else best) (best, i) =
        (b, j) ∧ (done ++ rest)[j]? = some b ∧ ∀ y ∈ done ++ rest, less y b = false := by
  induction rest generalizing done best i with
  | nil => exact ⟨best, i, rfl, by rwa [List.append_nil], by rwa [List.append_nil]⟩
  | cons z rest ih =>
    have hi : i < done.length := (List.getElem?_eq_some_iff.mp hbest).1
    rw [List.zipIdx_cons, List.foldl_cons, ← List.length_concat, List.concat_eq_append]
    have happend : done ++ z :: rest = (done ++ [z]) ++ rest := (List.append_cons done z rest)
    rw [happend]
    dsimp only
    split_ifs with hless
    · apply ih
      · rw [List.getElem?_append_right (Nat.le_refl _), Nat.sub_self, List.getElem?_cons_zero]
      · rw [List.forall_mem_append, List.forall_mem_singleton]
        refine ⟨fun y hy => ?_, hirrefl z⟩
        by_contra hyz
        have hsmaller := htrans y z best (Bool.not_eq_false _ ▸ hyz) hless
        rw [hleast y hy] at hsmaller
        cases hsmaller
    · apply ih
      · rw [List.getElem?_append_left hi, hbest]
      · rw [List.forall_mem_append, List.forall_mem_singleton]
        exact ⟨hleast, Bool.eq_false_iff.mpr hless⟩

/-- A list that is not empty has a least element at the position found. -/
theorem minElement_spec {less : α → α → Bool} (htrans : ∀ a b c, less a b = true → less b c = true → less a c = true)
    (hirrefl : ∀ a, less a a = false) {l : List α} (hne : l ≠ []) :
    ∃ i a, minElement less l = some i ∧ l[i]? = some a ∧ ∀ y ∈ l, less y a = false := by
  cases l with
  | nil => exact absurd rfl hne
  | cons x xs =>
    obtain ⟨a, i, hfold, ha, hleast⟩ := minElement_foldl htrans hirrefl xs [x] (i := 0) rfl
      (List.forall_mem_singleton.mpr (hirrefl x))
    rw [List.length_singleton] at hfold
    exact ⟨i, a, by rw [minElement, hfold], ha, hleast⟩

theorem perm_set {l : List α} {i : ℕ} (h : i < l.length) (a : α) : (l.set i a).Perm (a :: l.eraseIdx i) := by
  rw [List.set_eq_take_append_cons_drop, if_pos h, List.eraseIdx_eq_take_drop_succ]
  exact List.perm_middle

end Selection
