import Mathlib.Algebra.Order.Group.Int
import Mathlib.Tactic.Ring
import Tightrope.Library.FlatMap

/-!
Tables whose keys follow one another: the rows `base`, `base + 1`, ... hold the values
of a list.
-/

namespace NumberedRows

variable {V : Type}

def numbered : ℤ → List V → List (ℤ × V)
  | _, [] => []
  | base, v :: vs => (base, v) :: numbered (base + 1) vs

theorem key_of_mem_numbered {base : ℤ} {vs : List V} {e : ℤ × V} (h : e ∈ numbered base vs) :
    base ≤ e.1 ∧ e.1 < base + vs.length := by
  induction vs generalizing base with
  | nil => cases h
  | cons v vs ih =>
    rw [List.length_cons]
    obtain rfl | h := List.mem_cons.mp h
    · simp
    · have hkey := ih h
      push_cast
      omega

theorem sorted_numbered (base : ℤ) (vs : List V) : (numbered base vs).Pairwise (fun a b => a.1 < b.1) := by
  induction vs generalizing base with
  | nil => exact .nil
  | cons v vs ih =>
    refine List.pairwise_cons.mpr ⟨?_, ih (base + 1)⟩
    intro e he
    have hkey := key_of_mem_numbered he
    simp only
    omega

theorem numbered_append (base : ℤ) (vs ws : List V) :
    numbered base (vs ++ ws) = numbered base vs ++ numbered (base + vs.length) ws := by
  induction vs generalizing base with
  | nil => simp [numbered]
  | cons v vs ih =>
    have hshift : base + ((v :: vs).length : ℤ) = base + 1 + vs.length := by
      rw [List.length_cons]
      push_cast
      ring
    rw [hshift, List.cons_append, numbered, numbered, ih (base + 1), List.cons_append]

theorem filter_eq_self_of_key {p : ℤ → Bool} {base : ℤ} {vs : List V}
    (h : ∀ key, base ≤ key → key < base + vs.length → p key = true) :
    (numbered base vs).filter (fun e => p e.1) = numbered base vs := by
  apply List.filter_eq_self.mpr
  intro e he
  obtain ⟨hge, hlt⟩ := key_of_mem_numbered he
  exact h e.1 hge hlt

theorem filter_eq_nil_of_key {p : ℤ → Bool} {base : ℤ} {vs : List V}
    (h : ∀ key, base ≤ key → key < base + vs.length → p key = false) :
    (numbered base vs).filter (fun e => p e.1) = [] := by
  apply List.filter_eq_nil_iff.mpr
  intro e he
  obtain ⟨hge, hlt⟩ := key_of_mem_numbered he
  simp [h e.1 hge hlt]

theorem findEntry_numbered (base key : ℤ) (vs : List V) :
    FlatMap.findEntry key (numbered base vs) = if base ≤ key then vs[(key - base).toNat]? else none := by
  induction vs generalizing base with
  | nil => simp [numbered, FlatMap.findEntry]
  | cons v vs ih =>
    rw [numbered, FlatMap.findEntry, ih (base + 1)]
    by_cases heq : base = key
    · simp [heq]
    · by_cases hle : base ≤ key
      · have hpos : (key - base).toNat = (key - (base + 1)).toNat + 1 := by omega
        rw [if_neg heq, if_pos hle, if_pos (by omega), hpos, List.getElem?_cons_succ]
      · rw [if_neg heq, if_neg hle, if_neg (by omega)]

def HoldsFrom (m : FlatMap ℤ V) (base : ℤ) (vs : List V) : Prop := m.entries = numbered base vs

namespace HoldsFrom

variable {m : FlatMap ℤ V} {base : ℤ} {vs : List V}

theorem entries_eq (h : HoldsFrom m base vs) : m.entries = numbered base vs := h

theorem find? (h : HoldsFrom m base vs) (key : ℤ) :
    m.find? key = if base ≤ key then vs[(key - base).toNat]? else none := by
  rw [FlatMap.find?, h.entries_eq, findEntry_numbered]

theorem of_find? (h : ∀ key, m.find? key = if base ≤ key then vs[(key - base).toNat]? else none) :
    HoldsFrom m base vs := by
  have heq : m = ⟨numbered base vs, sorted_numbered base vs⟩ := by
    apply FlatMap.ext_find?
    intro key
    rw [h, FlatMap.find?, findEntry_numbered]
  rw [HoldsFrom, heq]

theorem nil_iff : HoldsFrom m base [] ↔ m = .empty := by
  obtain ⟨es, hs⟩ := m
  simp [HoldsFrom, numbered, FlatMap.empty]

theorem isSome_find? (h : HoldsFrom m base vs) (key : ℤ) :
    (m.find? key).isSome ↔ base ≤ key ∧ key < base + vs.length := by
  rw [h.find?]
  by_cases hle : base ≤ key
  · rw [if_pos hle, isSome_getElem?]
    omega
  · rw [if_neg hle]
    simp [hle]

theorem firstKey? (h : HoldsFrom m base vs) (hne : vs ≠ []) : m.firstKey? = some base := by
  cases vs with
  | nil => exact absurd rfl hne
  | cons v vs =>
    rw [FlatMap.firstKey?, h.entries_eq, numbered]
    rfl

theorem lastKey? (h : HoldsFrom m base vs) (hne : vs ≠ []) : m.lastKey? = some (base + vs.length - 1) := by
  have hpos : 0 < vs.length := List.length_pos_of_ne_nil hne
  cases hlast : m.lastKey? with
  | none =>
    rw [FlatMap.lastKey?_eq_none] at hlast
    have hsome := (h.isSome_find? base).mpr (by omega)
    rw [hlast] at hsome
    cases hsome
  | some last =>
    obtain ⟨v, hv⟩ := FlatMap.find?_lastKey hlast
    obtain ⟨w, hw⟩ := Option.isSome_iff_exists.mp ((h.isSome_find? (base + vs.length - 1)).mpr (by omega))
    have hge := FlatMap.le_lastKey hlast hw
    have hlt := (h.isSome_find? last).mp (by rw [hv]; rfl)
    rw [show last = base + vs.length - 1 by omega]

theorem insert_next (h : HoldsFrom m base vs) (v : V) : HoldsFrom (m.insert (base + vs.length) v) base (vs ++ [v]) := by
  have hbelow : ∀ e ∈ m.entries, e.1 < base + vs.length := by
    intro e he
    rw [h.entries_eq] at he
    exact (key_of_mem_numbered he).2
  rw [HoldsFrom, FlatMap.entries_insert_last v hbelow, h.entries_eq, numbered_append]
  rfl

theorem split (h : HoldsFrom m base vs) {n : ℕ} (hn : n ≤ vs.length) :
    m.entries = numbered base (vs.take n) ++ numbered (base + n) (vs.drop n) := by
  have happend := numbered_append base (vs.take n) (vs.drop n)
  rw [List.take_append_drop, List.length_take_of_le hn] at happend
  rw [← happend, h.entries_eq]

theorem filter_below (h : HoldsFrom m base vs) {n : ℕ} (hn : n ≤ vs.length) {p : ℤ → Bool}
    (hp : ∀ key, base ≤ key → key < base + vs.length → (p key ↔ key < base + n)) :
    HoldsFrom (m.filter fun key _ => p key) base (vs.take n) := by
  rw [HoldsFrom, FlatMap.filter]
  simp only
  rw [h.split hn, List.filter_append, filter_eq_self_of_key, filter_eq_nil_of_key, List.append_nil]
  · intro key hge hlt
    rw [List.length_drop] at hlt
    have hkey := hp key (by omega) (by omega)
    rw [← Bool.not_eq_true, hkey]
    omega
  · intro key hge hlt
    rw [List.length_take_of_le hn] at hlt
    have hkey := hp key hge (by omega)
    rw [hkey]
    exact hlt

theorem filter_from (h : HoldsFrom m base vs) {n : ℕ} (hn : n ≤ vs.length) {p : ℤ → Bool}
    (hp : ∀ key, base ≤ key → key < base + vs.length → (p key ↔ base + n ≤ key)) :
    HoldsFrom (m.filter fun key _ => p key) (base + n) (vs.drop n) := by
  rw [HoldsFrom, FlatMap.filter]
  simp only
  rw [h.split hn, List.filter_append, filter_eq_nil_of_key, filter_eq_self_of_key, List.nil_append]
  · intro key hge hlt
    rw [List.length_drop] at hlt
    have hkey := hp key (by omega) (by omega)
    rw [hkey]
    exact hge
  · intro key hge hlt
    rw [List.length_take_of_le hn] at hlt
    have hkey := hp key hge (by omega)
    rw [← Bool.not_eq_true, hkey]
    omega

end HoldsFrom

/-- A stretch of the table that holds the values is read back as them, whatever lies around it. -/
theorem filter_window {m : FlatMap ℤ V} {base : ℤ} {vs : List V}
    (h : ∀ key, base ≤ key → key < base + vs.length → m.find? key = vs[(key - base).toNat]?) :
    m.entries.filter (fun e => base ≤ e.1 ∧ e.1 < base + vs.length) = numbered base vs := by
  have hwindow : HoldsFrom (m.filter fun key _ => base ≤ key ∧ key < base + vs.length) base vs := by
    apply HoldsFrom.of_find?
    intro key
    rw [FlatMap.find?_filter]
    by_cases hge : base ≤ key
    · by_cases hlt : key < base + vs.length
      · rw [h key hge hlt, if_pos hge]
        cases vs[(key - base).toNat]? <;> simp [hge, hlt]
      · rw [if_pos hge, List.getElem?_eq_none (by omega)]
        cases m.find? key <;> simp [hlt]
    · rw [if_neg hge]
      cases m.find? key <;> simp [hge]
  exact hwindow

end NumberedRows
