import Mathlib.Algebra.GroupWithZero.Nat
import Mathlib.Algebra.Order.BigOperators.Group.List
import Mathlib.Algebra.Order.Group.Nat
import Mathlib.Data.List.Count

/-!
Fields joined by a separator: the joined text tells the fields apart exactly when none of them holds the separator.
-/

namespace Separators

variable {α : Type} (sep : α)

def join : List (List α) → List α
  | [] => []
  | [x] => x
  | x :: y :: rest => x ++ sep :: join (y :: rest)

variable {sep}

theorem join_append (x y : List α) (rest : List (List α)) :
    join sep ((x ++ y) :: rest) = x ++ join sep (y :: rest) := by
  cases rest with
  | nil => rfl
  | cons z rest => rw [join, join, List.append_assoc]

theorem join_cons {x : List α} {rest : List (List α)} (h : rest ≠ []) :
    join sep (x :: rest) = x ++ sep :: join sep rest := by
  cases rest with
  | nil => exact absurd rfl h
  | cons y rest => rfl

theorem join_concat {xs : List (List α)} (h : xs ≠ []) (y : List α) :
    join sep (xs ++ [y]) = join sep xs ++ sep :: y := by
  induction xs with
  | nil => exact absurd rfl h
  | cons x rest ih =>
    cases rest with
    | nil => rfl
    | cons z rest =>
      have hrest : z :: rest ++ [y] ≠ [] := by simp
      rw [List.cons_append, join_cons hrest, ih (List.cons_ne_nil z rest), join_cons (List.cons_ne_nil z rest),
        List.append_assoc]
      rfl

theorem length_join (sep : α) {xs : List (List α)} (h : xs ≠ []) :
    (join sep xs).length + 1 = xs.length + (xs.map List.length).sum := by
  induction xs with
  | nil => exact absurd rfl h
  | cons x rest ih =>
    cases rest with
    | nil => simp [join, Nat.add_comm]
    | cons y rest =>
      have hrest := ih (List.cons_ne_nil y rest)
      rw [join, List.map_cons, List.sum_cons, List.length_append, List.length_cons, List.length_cons]
      omega

theorem prefix_unique {x y r s : List α} (hx : sep ∉ x) (hy : sep ∉ y) (h : x ++ sep :: r = y ++ sep :: s) :
    x = y ∧ r = s := by
  induction x generalizing y with
  | nil =>
    cases y with
    | nil => exact ⟨rfl, (List.cons.inj h).2⟩
    | cons c y =>
      have hc : sep = c := (List.cons.inj h).1
      exact absurd (hc ▸ List.mem_cons_self) hy
  | cons b x ih =>
    cases y with
    | nil =>
      have hb : b = sep := (List.cons.inj h).1
      exact absurd (hb ▸ List.mem_cons_self) hx
    | cons c y =>
      obtain ⟨rfl, htail⟩ := List.cons.inj h
      rw [List.mem_cons, not_or] at hx hy
      obtain ⟨rfl, hrest⟩ := ih hx.2 hy.2 htail
      exact ⟨rfl, hrest⟩

section Count

variable [DecidableEq α]

theorem count_join (sep : α) {xs : List (List α)} (h : xs ≠ []) :
    (join sep xs).count sep + 1 = xs.length + (xs.map (List.count sep)).sum := by
  induction xs with
  | nil => exact absurd rfl h
  | cons x rest ih =>
    cases rest with
    | nil => simp [join, Nat.add_comm]
    | cons y rest =>
      have hrest := ih (List.cons_ne_nil y rest)
      rw [join, List.map_cons, List.sum_cons, List.count_append, List.count_cons_self, List.length_cons]
      omega

theorem free_iff_count {xs : List (List α)} : (∀ x ∈ xs, sep ∉ x) ↔ (xs.map (List.count sep)).sum = 0 := by
  rw [List.sum_eq_zero_iff]
  simp [List.count_eq_zero]

end Count

theorem join_inj_of_free {xs ys : List (List α)} (hxs : ∀ x ∈ xs, sep ∉ x) (hys : ∀ y ∈ ys, sep ∉ y)
    (hlength : ys.length = xs.length) (h : join sep ys = join sep xs) : ys = xs := by
  induction xs generalizing ys with
  | nil => exact List.length_eq_zero_iff.mp hlength
  | cons x xs ih =>
    cases ys with
    | nil => cases hlength
    | cons y ys =>
      have htails : ys.length = xs.length := Nat.succ.inj hlength
      rw [List.forall_mem_cons] at hxs hys
      by_cases hnil : xs = []
      · subst hnil
        obtain rfl := List.length_eq_zero_iff.mp htails
        exact congrArg (· :: []) h
      · have hnil' : ys ≠ [] := fun heq => hnil (List.length_eq_zero_iff.mp (by rw [← htails, heq]; rfl))
        rw [join_cons hnil, join_cons hnil'] at h
        obtain ⟨rfl, hrest⟩ := prefix_unique hys.1 hxs.1 h
        rw [ih hxs.2 hys.2 htails hrest]

/-- A separator inside a field can be taken for the one between two fields. -/
theorem exists_same_join {xs : List (List α)} (htwo : 2 ≤ xs.length) {x : List α} (hx : x ∈ xs) (hsep : sep ∈ x) :
    ∃ ys, ys.length = xs.length ∧ join sep ys = join sep xs ∧ ys ≠ xs := by
  obtain ⟨p, q, rfl⟩ := List.append_of_mem hsep
  induction xs with
  | nil => cases hx
  | cons y rest ih =>
    cases rest with
    | nil => exact absurd (Nat.le_of_succ_le_succ htwo) (Nat.not_succ_le_zero 0)
    | cons z rest =>
      obtain rfl | hx := List.mem_cons.mp hx
      · refine ⟨p :: (q ++ sep :: z) :: rest, rfl, ?_, ?_⟩
        · have hmoved : join sep ((sep :: z) :: rest) = sep :: join sep (z :: rest) := join_append [sep] z rest
          rw [join, join_append, hmoved, join, List.append_assoc, List.cons_append]
        · intro heq
          have hp := congrArg List.length (List.cons.inj heq).1
          rw [List.length_append, List.length_cons] at hp
          omega
      · cases rest with
        | nil =>
          obtain rfl := List.mem_singleton.mp hx
          refine ⟨[y ++ sep :: p, q], rfl, ?_, ?_⟩
          · rw [join, join, join, join, List.append_assoc, List.cons_append]
          · intro heq
            have hy := congrArg List.length (List.cons.inj heq).1
            rw [List.length_append, List.length_cons] at hy
            omega
        | cons w rest =>
          obtain ⟨ys, hlength, hjoin, hne⟩ := ih (Nat.le_add_left 2 rest.length) hx
          have hys : ys ≠ [] := by
            rintro rfl
            cases hlength
          refine ⟨y :: ys, congrArg Nat.succ hlength, ?_, ?_⟩
          · rw [join_cons hys, hjoin, join_cons (List.cons_ne_nil z _)]
          · exact fun heq => hne (List.cons.inj heq).2

/-- The joined text is that of no other fields exactly when no field holds the separator. -/
theorem join_tells_apart_iff [DecidableEq α] {xs : List (List α)} (htwo : 2 ≤ xs.length) :
    (∀ ys : List (List α), ys.length = xs.length → join sep ys = join sep xs → ys = xs) ↔ ∀ x ∈ xs, sep ∉ x := by
  constructor
  · intro h x hx hsep
    obtain ⟨ys, hlength, hjoin, hne⟩ := exists_same_join htwo hx hsep
    exact hne (h ys hlength hjoin)
  · intro hfree ys hlength hjoin
    have hxs : xs ≠ [] := by
      rintro rfl
      cases htwo
    have hys : ys ≠ [] := by
      rintro rfl
      exact hxs (List.length_eq_zero_iff.mp hlength.symm)
    -- There are as many separators in the text as there are between the fields.
    have hcount : (ys.map (List.count sep)).sum = 0 := by
      have hcountX := count_join sep hxs
      have hcountY := count_join sep hys
      rw [free_iff_count.mp hfree] at hcountX
      rw [hjoin] at hcountY
      omega
    exact join_inj_of_free hfree (free_iff_count.mpr hcount) hlength hjoin

/-- Splitting at the separators gives the fields back. -/
theorem splitOn_join [DecidableEq α] {xs : List (List α)} (h : xs ≠ []) (hfree : ∀ x ∈ xs, sep ∉ x) :
    (join sep xs).splitOn sep = xs := by
  induction xs with
  | nil => exact absurd rfl h
  | cons x rest ih =>
    rw [List.forall_mem_cons] at hfree
    cases rest with
    | nil => exact List.splitOn_eq_singleton hfree.1
    | cons y rest =>
      rw [join, List.splitOn_append_cons_self_of_not_mem hfree.1, ih (List.cons_ne_nil y rest) hfree.2]

theorem notMem_of_mem_splitOn [DecidableEq α] {x text : List α} (h : x ∈ text.splitOn sep) : sep ∉ x := by
  induction text generalizing x with
  | nil =>
    rw [List.splitOn_nil, List.mem_singleton] at h
    rw [h]
    exact List.not_mem_nil
  | cons a text ih =>
    rw [List.splitOn_cons_eq_if_modifyHead] at h
    split_ifs at h with ha
    · obtain rfl | h := List.mem_cons.mp h
      · exact List.not_mem_nil
      · exact ih h
    · obtain ⟨first, rest, hsplit⟩ := List.exists_cons_of_ne_nil (List.splitOn_ne_nil sep text)
      rw [hsplit] at h ih
      obtain rfl | h := List.mem_cons.mp h
      · rw [List.mem_cons, not_or]
        exact ⟨fun heq => ha (beq_iff_eq.mpr heq.symm), ih List.mem_cons_self⟩
      · exact ih (List.mem_cons_of_mem _ h)

end Separators
