import Mathlib.Data.List.Basic

/-!
A table as the list of its rows, in the order in which a query visits them.
-/

namespace RowTable

variable {R K : Type}

def setWhere (p : R → Bool) (f : R → R) (row : R) : R := if p row then f row else row

-- `UPDATE .. SET f WHERE p`
def updateWhere (p : R → Bool) (f : R → R) (rows : List R) : List R := rows.map (setWhere p f)

@[simp] theorem setWhere_of_pos {p : R → Bool} {f : R → R} {row : R} (h : p row = true) : setWhere p f row = f row :=
  if_pos h

@[simp] theorem setWhere_of_neg {p : R → Bool} {f : R → R} {row : R} (h : p row = false) : setWhere p f row = row :=
  if_neg (by simp [h])

theorem setWhere_field {α : Type} {g : R → α} {f : R → R} (hf : ∀ row, g (f row) = g row)
    (p : R → Bool) (row : R) : g (setWhere p f row) = g row := by
  unfold setWhere
  split_ifs
  · exact hf row
  · rfl

theorem map_field_updateWhere {α : Type} {g : R → α} {f : R → R} (hf : ∀ row, g (f row) = g row)
    (p : R → Bool) (rows : List R) : (updateWhere p f rows).map g = rows.map g := by
  rw [updateWhere, List.map_map]
  apply List.map_congr_left
  intro row _
  exact setWhere_field hf p row

@[simp] theorem updateWhere_id (p : R → Bool) (rows : List R) : updateWhere p (fun row => row) rows = rows := by
  have hrow : ∀ row ∈ rows, setWhere p (fun row => row) row = row := by
    intro row _
    unfold setWhere
    split_ifs <;> rfl
  rw [updateWhere, List.map_congr_left hrow, List.map_id']

theorem mem_updateWhere {p : R → Bool} {f : R → R} {rows : List R} {row : R} :
    row ∈ updateWhere p f rows ↔ ∃ old ∈ rows, setWhere p f old = row := List.mem_map

variable [DecidableEq K] (key : R → K)

def rowOf (k : K) (rows : List R) : Option R := rows.find? fun row => key row = k

theorem rowOf_map {f : R → R} (hf : ∀ row, key (f row) = key row) (k : K) (rows : List R) :
    rowOf key k (rows.map f) = (rowOf key k rows).map f := by
  rw [rowOf, List.find?_map, rowOf]
  simp only [Function.comp_def, hf]

theorem rowOf_updateWhere {f : R → R} (hf : ∀ row, key (f row) = key row) (p : R → Bool) (k : K) (rows : List R) :
    rowOf key k (updateWhere p f rows) = (rowOf key k rows).map (setWhere p f) :=
  rowOf_map key (setWhere_field hf p) k rows

/-- Two statements on the row of one key are one. -/
theorem updateWhere_updateWhere {f g : R → R} (hg : ∀ row, key (g row) = key row) (k : K) (rows : List R) :
    updateWhere (fun row => key row = k) f (updateWhere (fun row => key row = k) g rows) =
      updateWhere (fun row => key row = k) (fun row => f (g row)) rows := by
  rw [updateWhere, updateWhere, List.map_map]
  apply List.map_congr_left
  intro row _
  by_cases h : key row = k
  · simp [setWhere, h, hg]
  · simp [setWhere, h]

theorem rowOf_updateWhere_self {f : R → R} (hf : ∀ row, key (f row) = key row) (k : K) (rows : List R) :
    rowOf key k (updateWhere (fun row => key row = k) f rows) = (rowOf key k rows).map f := by
  rw [rowOf_updateWhere key hf]
  cases h : rowOf key k rows with
  | none => rfl
  | some row =>
    have hkey : key row = k := by simpa using List.find?_some h
    rw [Option.map_some, Option.map_some, setWhere_of_pos (by simp [hkey])]

theorem rowOf_updateWhere_ne {f : R → R} (hf : ∀ row, key (f row) = key row) {k k' : K} (hne : k' ≠ k)
    (rows : List R) : rowOf key k' (updateWhere (fun row => key row = k) f rows) = rowOf key k' rows := by
  rw [rowOf_updateWhere key hf]
  cases h : rowOf key k' rows with
  | none => rfl
  | some row =>
    have hkey : key row = k' := by simpa using List.find?_some h
    rw [Option.map_some, setWhere_of_neg (by simp [hkey, hne])]

theorem key_of_rowOf {k : K} {rows : List R} {row : R} (h : rowOf key k rows = some row) : key row = k := by
  simpa using List.find?_some h

theorem mem_of_rowOf {k : K} {rows : List R} {row : R} (h : rowOf key k rows = some row) : row ∈ rows :=
  List.mem_of_find?_eq_some h

/-- A row with a primary key is found under it. -/
theorem rowOf_of_mem {rows : List R} (hnodup : (rows.map key).Nodup) {row : R} (h : row ∈ rows) :
    rowOf key (key row) rows = some row := by
  induction rows with
  | nil => cases h
  | cons head rest ih =>
    rw [List.map_cons, List.nodup_cons] at hnodup
    obtain rfl | hmem := List.mem_cons.mp h
    · rw [rowOf, List.find?_cons_of_pos (by simp)]
    · have hne : key head ≠ key row := by
        intro heq
        exact hnodup.1 (heq ▸ List.mem_map_of_mem hmem)
      rw [rowOf, List.find?_cons_of_neg (by simp [hne])]
      exact ih hnodup.2 hmem

end RowTable
