import Mathlib.Data.List.Basic

/-!
Reading a sequence page by page, each page from the cursor that the page before it left.
-/

namespace Paging

variable {C P E : Type} (page : C → P) (entries : P → List E) (next : P → C)

def pages : ℕ → C → Option (List P)
  | 0, _ => none
  | fuel + 1, c => if (entries (page c)).isEmpty then some [] else (pages fuel (next (page c))).map (page c :: ·)

def ReadsAll (c : C) (rest : List E) : Prop := ∃ fuel ps, pages page entries next fuel c = some ps ∧
    ps.flatMap entries = rest

variable {page entries next}

theorem readsAll_of_isEmpty {c : C} {rest : List E} (hempty : (entries (page c)).isEmpty) :
    ReadsAll page entries next c rest ↔ rest = [] := by
  constructor
  · rintro ⟨fuel, ps, hps, rfl⟩
    cases fuel with
    | zero => cases hps
    | succ fuel =>
      rw [pages, if_pos hempty] at hps
      cases hps
      rfl
  · rintro rfl
    exact ⟨1, [], by rw [pages, if_pos hempty], rfl⟩

theorem ReadsAll.cons {c : C} {rest : List E} (hne : ¬ (entries (page c)).isEmpty)
    (h : ReadsAll page entries next (next (page c)) rest) :
    ReadsAll page entries next c (entries (page c) ++ rest) := by
  obtain ⟨fuel, ps, hps, rfl⟩ := h
  refine ⟨fuel + 1, page c :: ps, ?_, List.flatMap_cons⟩
  rw [pages, if_neg hne, hps, Option.map_some]

/-- Where each page is the next part of what is left, and is empty only when nothing is left, paging reads it all. -/
theorem readsAll {Inv : C → Prop} {rest : C → List E}
    (hstep : ∀ c, Inv c → Inv (next (page c)) ∧ rest c = entries (page c) ++ rest (next (page c)))
    (hprogress : ∀ c, Inv c → (entries (page c)).isEmpty → rest c = []) {c : C} (hc : Inv c) :
    ReadsAll page entries next c (rest c) := by
  induction hlength : (rest c).length using Nat.strongRecOn generalizing c with
  | ind n ih =>
    by_cases hempty : (entries (page c)).isEmpty
    · exact (readsAll_of_isEmpty hempty).mpr (hprogress c hc hempty)
    · obtain ⟨hnext, hrest⟩ := hstep c hc
      have hpos : 0 < (entries (page c)).length := by
        apply List.length_pos_iff.mpr
        exact fun hnil => hempty (List.isEmpty_iff.mpr hnil)
      have hlt : (rest (next (page c))).length < n := by
        rw [← hlength, hrest, List.length_append]
        omega
      rw [hrest]
      exact (ih _ hlt hnext rfl).cons hempty

/-- Windows of one size, side by side, read a list from its start. -/
theorem flatMap_windows (l : List E) (size n : ℕ) :
    (List.range n).flatMap (fun i => (l.drop (i * size)).take size) = l.take (n * size) := by
  induction n with
  | zero => simp
  | succ n ih => rw [List.range_succ, List.flatMap_append, ih, List.flatMap_singleton, Nat.succ_mul, List.take_add]

end Paging
