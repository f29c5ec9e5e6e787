import Mathlib.Data.Prod.Lex
import Tightrope.Library.FlatMap

/-!
Tables under a composite primary key: the rows of one leading key, inserts that
refuse a taken key, and the replacement of all rows of one leading key.
-/

namespace KeyedTable

section Insert

variable {K V : Type} [LinearOrder K]

def insertNew (t : FlatMap K V) (k : K) (v : V) : Option (FlatMap K V) :=
  match t.find? k with
  | some _ => none
  | none => some (t.insert k v)

def insertAll (t : FlatMap K V) : List (K × V) → Option (FlatMap K V)
  | [] => some t
  | row :: rows => (insertNew t row.1 row.2).bind fun t' => insertAll t' rows

theorem insertNew_eq_some {t t' : FlatMap K V} {k : K} {v : V} (h : insertNew t k v = some t') :
    t.find? k = none ∧ t' = t.insert k v := by
  unfold insertNew at h
  split at h
  · cases h
  · exact ⟨‹_›, (Option.some.inj h).symm⟩

theorem find?_insertAll {t t' : FlatMap K V} {rows : List (K × V)} (h : insertAll t rows = some t') (k : K)
    (v : V) : t'.find? k = some v ↔ (k, v) ∈ rows ∨ t.find? k = some v := by
  induction rows generalizing t with
  | nil =>
    obtain rfl := Option.some.inj h
    simp
  | cons row rows ih =>
    obtain ⟨t₁, ht₁, h⟩ := Option.bind_eq_some_iff.mp h
    obtain ⟨hfree, rfl⟩ := insertNew_eq_some ht₁
    rw [ih h, FlatMap.find?_insert, List.mem_cons]
    obtain ⟨k', v'⟩ := row
    by_cases hk : k = k'
    · subst hk
      simp only [hfree, Prod.mk.injEq, true_and, ↓reduceIte, Option.some.injEq, reduceCtorEq, or_false]
      rw [or_comm, eq_comm]
    · simp [hk]

end Insert

section Slice

variable {K J V : Type} [LinearOrder K] [LinearOrder J]

theorem sorted_slice (t : FlatMap (K ×ₗ J) V) (key : K) :
    ((t.entries.filter (fun e => (ofLex e.1).1 = key)).map (fun e => ((ofLex e.1).2, e.2))).Pairwise
      (fun a b => a.1 < b.1) := by
  rw [List.pairwise_map]
  refine (t.sorted.filter _).imp_of_mem ?_
  intro a b ha hb hlt
  have hka : (ofLex a.1).1 = key := by simpa using (List.mem_filter.mp ha).2
  have hkb : (ofLex b.1).1 = key := by simpa using (List.mem_filter.mp hb).2
  rw [Prod.Lex.lt_iff, hka, hkb] at hlt
  simpa using hlt

def slice (t : FlatMap (K ×ₗ J) V) (key : K) : FlatMap J V :=
  ⟨(t.entries.filter (fun e => (ofLex e.1).1 = key)).map (fun e => ((ofLex e.1).2, e.2)), sorted_slice t key⟩

@[simp] theorem find?_slice (t : FlatMap (K ×ₗ J) V) (key : K) (j : J) :
    (slice t key).find? j = t.find? (toLex (key, j)) := by
  ext v
  rw [← FlatMap.mem_entries, ← FlatMap.mem_entries]
  simp only [slice, List.mem_map, List.mem_filter, decide_eq_true_eq, Prod.mk.injEq]
  constructor
  · rintro ⟨⟨k, w⟩, ⟨hm, hk⟩, hj, rfl⟩
    have heq : k = toLex (key, j) := by rw [← hk, ← hj]; rfl
    exact heq ▸ hm
  · intro hm
    exact ⟨(toLex (key, j), v), ⟨hm, rfl⟩, rfl, rfl⟩

def deleteKey (t : FlatMap (K ×ₗ J) V) (key : K) : FlatMap (K ×ₗ J) V := t.filter (fun k _ => (ofLex k).1 ≠ key)

def replaceKey (t : FlatMap (K ×ₗ J) V) (key : K) (rows : List (J × V)) : Option (FlatMap (K ×ₗ J) V) :=
  insertAll (deleteKey t key) (rows.map fun row => (toLex (key, row.1), row.2))

theorem find?_replaceKey {t t' : FlatMap (K ×ₗ J) V} {key : K} {rows : List (J × V)}
    (h : replaceKey t key rows = some t') (j : J) (v : V) :
    (slice t' key).find? j = some v ↔ (j, v) ∈ rows := by
  rw [find?_slice, find?_insertAll h, deleteKey, FlatMap.find?_filter]
  simp

end Slice

end KeyedTable
