import Mathlib.Algebra.BigOperators.Field
import Mathlib.Algebra.Order.BigOperators.Group.Finset
import Mathlib.Algebra.Order.BigOperators.Group.List
import Mathlib.NumberTheory.Harmonic.Defs
import Mathlib.Tactic.FieldSimp
import Mathlib.Tactic.Linarith
import Mathlib.Tactic.Positivity
import Mathlib.Tactic.Ring

/-!
Shares handed out in rounds: in each round everyone earns their weight, and one with the most credit is served and
pays what all have earned.
-/

namespace CreditRounds

open Finset

variable {I : Type} [DecidableEq I] (members : Finset I) (weight : I → ℚ)

structure Round (credit : I → ℚ) (served : I) (credit' : I → ℚ) : Prop where
  mem : served ∈ members
  most : ∀ i ∈ members, credit i + weight i ≤ credit served + weight served
  next : ∀ i ∈ members, credit' i = credit i + weight i - if i = served then ∑ j ∈ members, weight j else 0

inductive Rounds : List I → (I → ℚ) → Prop
  | start {credit : I → ℚ} (h : ∀ i ∈ members, credit i = 0) : Rounds [] credit
  | round {served : List I} {credit credit' : I → ℚ} {i : I} (before : Rounds served credit)
      (h : Round members weight credit i credit') : Rounds (served ++ [i]) credit'

variable {members weight} {credit credit' : I → ℚ} {served : List I} {i : I}

theorem Round.sum_of_mem (h : Round members weight credit i credit') {part : Finset I} (hpart : part ⊆ members)
    (hi : i ∈ part) :
    ∑ j ∈ part, credit' j = ∑ j ∈ part, credit j + ∑ j ∈ part, weight j - ∑ j ∈ members, weight j := by
  rw [sum_congr rfl fun j hj => h.next j (hpart hj), sum_sub_distrib, sum_add_distrib, sum_ite_eq' part i,
    if_pos hi]

theorem Round.sum_of_notMem (h : Round members weight credit i credit') {part : Finset I} (hpart : part ⊆ members)
    (hi : i ∉ part) : ∑ j ∈ part, credit' j = ∑ j ∈ part, (credit j + weight j) := by
  rw [sum_congr rfl fun j hj => h.next j (hpart hj), sum_sub_distrib, sum_ite_eq' part i, if_neg hi, sub_zero]

/-- No credit is made or lost. -/
theorem Rounds.sum_eq_zero (h : Rounds members weight served credit) : ∑ j ∈ members, credit j = 0 := by
  induction h with
  | start h => exact Finset.sum_eq_zero h
  | round before h ih =>
    rw [h.sum_of_mem Subset.rfl h.mem, ih]
    ring

/-- What a member has earned and not yet been served for. -/
theorem Rounds.credit_eq (h : Rounds members weight served credit) (hi : i ∈ members) :
    credit i = served.length * weight i - served.count i * ∑ j ∈ members, weight j := by
  induction h with
  | start h => simp [h i hi]
  | @round served credit credit' j before h ih =>
    rw [h.next i hi, ih, List.length_append, List.count_append, List.length_singleton, List.count_singleton]
    by_cases hj : i = j
    · simp [hj]
      ring
    · simp [hj, Ne.symm hj]
      ring

section Positive

variable (hpos : ∀ j ∈ members, 0 < weight j)
include hpos

theorem Rounds.lower (h : Rounds members weight served credit) (hi : i ∈ members) :
    -∑ j ∈ members, weight j < credit i := by
  have htotal : ∀ {j}, j ∈ members → 0 < ∑ k ∈ members, weight k := fun hj => sum_pos hpos ⟨_, hj⟩
  induction h generalizing i with
  | start h =>
    rw [h i hi]
    linarith [htotal hi]
  | @round served credit credit' j before h ih =>
    rw [h.next i hi]
    split_ifs with heq
    · -- The one served had more than nothing, as all together had.
      subst heq
      have hsum : 0 < ∑ k ∈ members, (credit k + weight k) := by
        rw [sum_add_distrib, before.sum_eq_zero, zero_add]
        exact htotal hi
      have hsum' : ∑ k ∈ members, (0 : ℚ) < ∑ k ∈ members, (credit k + weight k) := by rwa [sum_const_zero]
      obtain ⟨k, hk, hgt⟩ := exists_lt_of_sum_lt hsum'
      linarith [h.most k hk]
    · linarith [ih hi, hpos i hi]

end Positive

def ceiling (members : Finset I) (weight : I → ℚ) (n : ℕ) : ℚ :=
  n * (∑ j ∈ members, weight j) * (harmonic members.card - harmonic n)

theorem harmonic_mono {m n : ℕ} (h : m ≤ n) : harmonic m ≤ harmonic n := by
  induction n, h using Nat.le_induction with
  | base => exact le_rfl
  | succ n hmn ih =>
    rw [harmonic_succ]
    have hinv : (0 : ℚ) ≤ (↑(n + 1))⁻¹ := by positivity
    linarith

omit [DecidableEq I] in
theorem ceiling_nonneg (hpos : ∀ j ∈ members, 0 < weight j) {n : ℕ} (h : n ≤ members.card) :
    0 ≤ ceiling members weight n := by
  have htotal : 0 ≤ ∑ j ∈ members, weight j := sum_nonneg fun j hj => (hpos j hj).le
  have hrest : 0 ≤ harmonic members.card - harmonic n := sub_nonneg.mpr (harmonic_mono h)
  unfold ceiling
  positivity

omit [DecidableEq I] in
theorem le_ceiling_of_succ {n : ℕ} (hn : 0 < n) {credits : ℚ}
    (h : credits + credits / n - ∑ j ∈ members, weight j ≤ ceiling members weight (n + 1)) :
    credits ≤ ceiling members weight n := by
  have hn' : (0 : ℚ) < n := Nat.cast_pos.mpr hn
  have hsucc : ceiling members weight (n + 1) =
      (n + 1) * (∑ j ∈ members, weight j) * (harmonic members.card - harmonic n) - ∑ j ∈ members, weight j := by
    rw [ceiling, harmonic_succ, Nat.cast_add, Nat.cast_one]
    field_simp
    ring
  have hscaled : credits + credits / n ≤
      (n + 1) * (∑ j ∈ members, weight j) * (harmonic members.card - harmonic n) := by linarith
  calc credits = (credits + credits / n) * (n / (n + 1)) := by field_simp
    _ ≤ (n + 1) * (∑ j ∈ members, weight j) * (harmonic members.card - harmonic n) * (n / (n + 1)) := by gcongr
    _ = ceiling members weight n := by
      rw [ceiling]
      field_simp

/-- Some of the members never have more between them than the ceiling for their number. -/
theorem Rounds.upper (hpos : ∀ j ∈ members, 0 < weight j) (h : Rounds members weight served credit) {part : Finset I}
    (hpart : part ⊆ members) : ∑ j ∈ part, credit j ≤ ceiling members weight part.card := by
  induction h generalizing part with
  | start h =>
    rw [Finset.sum_eq_zero fun j hj => h j (hpart hj)]
    exact ceiling_nonneg hpos (card_le_card hpart)
  | @round served credit credit' i before h ih =>
    have hmem : ∀ {part}, part ⊆ members → i ∈ part → ∑ j ∈ part, credit' j ≤ ceiling members weight part.card := by
      intro part hpart hi
      have hweights : ∑ j ∈ part, weight j ≤ ∑ j ∈ members, weight j :=
        sum_le_sum_of_subset_of_nonneg hpart fun j hj _ => (hpos j hj).le
      rw [h.sum_of_mem hpart hi]
      linarith [ih hpart]
    by_cases hi : i ∈ part
    · exact hmem hpart hi
    obtain rfl | hne := part.eq_empty_or_nonempty
    · simp [ceiling]
    -- The one served had at least the average of the part, so the bound for both together gives the one for the part.
    have hcard : 0 < part.card := hne.card_pos
    have haverage : (∑ j ∈ part, credit' j) / part.card ≤ credit i + weight i := by
      rw [h.sum_of_notMem hpart hi, div_le_iff₀ (Nat.cast_pos.mpr hcard), mul_comm, ← nsmul_eq_mul]
      exact sum_le_card_nsmul _ _ _ fun j hj => h.most j (hpart hj)
    have hboth := hmem (insert_subset h.mem hpart) (mem_insert_self i part)
    rw [sum_insert hi, card_insert_of_notMem hi, h.next i h.mem, if_pos rfl] at hboth
    exact le_ceiling_of_succ hcard (by linarith)

theorem Rounds.credit_le (hpos : ∀ j ∈ members, 0 < weight j) (h : Rounds members weight served credit)
    (hi : i ∈ members) : credit i ≤ (∑ j ∈ members, weight j) * (harmonic members.card - 1) := by
  have hsingle := h.upper hpos (singleton_subset_iff.mpr hi)
  rw [sum_singleton, card_singleton, ceiling, Nat.cast_one, one_mul] at hsingle
  have hone : harmonic 1 = 1 := by rw [harmonic_succ, harmonic_zero, zero_add, zero_add, Nat.cast_one, inv_one]
  rwa [hone] at hsingle

section Cycle

variable {shares : I → ℕ} (hshares : ∀ j ∈ members, weight j = shares j) (hpos : ∀ j ∈ members, 0 < shares j)
include hshares hpos

/-- Over as many rounds as there are shares everyone is served as often as they have shares. -/
theorem Rounds.count_eq (h : Rounds members weight served credit)
    (hlength : served.length = ∑ j ∈ members, shares j) (hi : i ∈ members) : served.count i = shares i := by
  have hweight : ∀ j ∈ members, 0 < weight j := by
    intro j hj
    rw [hshares j hj]
    exact Nat.cast_pos.mpr (hpos j hj)
  have htotal : 0 < ∑ j ∈ members, weight j := sum_pos hweight ⟨i, hi⟩
  have hlength' : (served.length : ℚ) = ∑ j ∈ members, weight j := by
    rw [hlength, sum_congr rfl hshares, Nat.cast_sum]
  have hle : ∀ j ∈ members, served.count j ≤ shares j := by
    intro j hj
    have hlower := h.lower hweight hj
    rw [h.credit_eq hj, hlength', hshares j hj] at hlower
    have hlt : (served.count j : ℚ) < shares j + 1 := by
      apply lt_of_mul_lt_mul_left _ htotal.le
      linarith
    exact Nat.lt_succ_iff.mp (by exact_mod_cast hlt)
  have hsum : ∑ j ∈ members, served.count j = ∑ j ∈ members, shares j := by
    have hzero := h.sum_eq_zero
    rw [sum_congr rfl fun j hj => h.credit_eq hj, sum_sub_distrib, ← mul_sum, ← sum_mul, ← sub_mul] at hzero
    have heq : (served.length : ℚ) = ∑ j ∈ members, (served.count j : ℚ) :=
      sub_eq_zero.mp ((mul_eq_zero.mp hzero).resolve_right htotal.ne')
    rw [← hlength]
    exact_mod_cast heq.symm
  exact (sum_eq_sum_iff_of_le hle).mp hsum i hi

theorem Rounds.cycle (h : Rounds members weight served credit)
    (hlength : served.length = ∑ j ∈ members, shares j) (hi : i ∈ members) : credit i = 0 := by
  rw [h.credit_eq hi, h.count_eq hshares hpos hlength hi, hlength, hshares i hi, sum_congr rfl hshares]
  push_cast
  ring

end Cycle

end CreditRounds
