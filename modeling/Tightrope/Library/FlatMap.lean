import Mathlib.Data.List.Perm.Basic
import Mathlib.Data.List.Perm.Lattice
import Mathlib.Order.CompleteLattice.Lemmas
import Mathlib.Order.ConditionallyCompleteLattice.Basic
import Mathlib.Data.List.Pairwise

/-!
Sorted vectors of key-value pairs with unique keys: the flat maps and flat sets of
the source, and the rows of a table under its primary key.
-/

structure FlatMap (K V : Type) [LinearOrder K] where
  entries : List (K × V)
  sorted : entries.Pairwise (fun a b => a.1 < b.1)

namespace FlatMap

variable {K V : Type} [LinearOrder K]

instance [DecidableEq V] : DecidableEq (FlatMap K V) := fun a b =>
  decidable_of_iff (a.entries = b.entries) ⟨fun h => by cases a; cases b; simpa using h, fun h => h ▸ rfl⟩

def empty : FlatMap K V := ⟨[], .nil⟩

instance : Inhabited (FlatMap K V) := ⟨empty⟩

def findEntry (k : K) : List (K × V) → Option V
  | [] => none
  | e :: es => if e.1 = k then some e.2 else findEntry k es

def find? (m : FlatMap K V) (k : K) : Option V := findEntry k m.entries

def size (m : FlatMap K V) : ℕ := m.entries.length

def lastKey? (m : FlatMap K V) : Option K := m.entries.getLast?.map Prod.fst

def firstKey? (m : FlatMap K V) : Option K := m.entries.head?.map Prod.fst

def insertEntry (k : K) (v : V) : List (K × V) → List (K × V)
  | [] => [(k, v)]
  | e :: es =>
    if k < e.1 then (k, v) :: e :: es
    else if k = e.1 then (k, v) :: es
    else e :: insertEntry k v es

theorem mem_insertEntry {k : K} {v : V} {es : List (K × V)} {e : K × V}
    (h : e ∈ insertEntry k v es) : e = (k, v) ∨ e ∈ es := by
  induction es with
  | nil => simpa [insertEntry] using h
  | cons d ds ih =>
    rw [insertEntry] at h
    split_ifs at h
    · simpa using h
    · rcases List.mem_cons.mp h with h | h
      · exact .inl h
      · exact .inr (List.mem_cons_of_mem _ h)
    · rcases List.mem_cons.mp h with h | h
      · exact .inr (h ▸ List.mem_cons_self)
      · exact (ih h).imp id (List.mem_cons_of_mem _)

theorem sorted_insertEntry (k : K) (v : V) {es : List (K × V)}
    (h : es.Pairwise (fun a b => a.1 < b.1)) :
    (insertEntry k v es).Pairwise (fun a b => a.1 < b.1) := by
  induction es with
  | nil => simp [insertEntry]
  | cons d ds ih =>
    obtain ⟨hd, hds⟩ := List.pairwise_cons.mp h
    rw [insertEntry]
    split_ifs with hlt heq
    · refine List.pairwise_cons.mpr ⟨fun e he => ?_, h⟩
      rcases List.mem_cons.mp he with rfl | he
      · exact hlt
      · exact hlt.trans (hd e he)
    · exact List.pairwise_cons.mpr ⟨fun e he => by rw [heq]; exact hd e he, hds⟩
    · refine List.pairwise_cons.mpr ⟨fun e he => ?_, ih hds⟩
      rcases mem_insertEntry he with rfl | he
      · exact lt_of_le_of_ne (not_lt.mp hlt) (Ne.symm heq)
      · exact hd e he

def insert (m : FlatMap K V) (k : K) (v : V) : FlatMap K V :=
  ⟨insertEntry k v m.entries, sorted_insertEntry k v m.sorted⟩

def update (m : FlatMap K V) (k : K) (f : Option V → V) : FlatMap K V := m.insert k (f (m.find? k))

def filter (m : FlatMap K V) (p : K → V → Bool) : FlatMap K V :=
  ⟨m.entries.filter (fun e => p e.1 e.2), m.sorted.filter _⟩

def erase (m : FlatMap K V) (k : K) : FlatMap K V := m.filter (fun k' _ => k' ≠ k)

def map {W : Type} (m : FlatMap K V) (f : K → V → W) : FlatMap K W :=
  ⟨m.entries.map (fun e => (e.1, f e.1 e.2)), List.pairwise_map.mpr m.sorted⟩

def mergeWith {W : Type} (f : Option V → W → V) (m : FlatMap K V) (n : FlatMap K W) : FlatMap K V :=
  n.entries.foldl (fun acc e => acc.update e.1 (fun old => f old e.2)) m

theorem nodup_entries (m : FlatMap K V) : m.entries.Nodup :=
  m.sorted.imp (fun h heq => absurd (heq ▸ h) (lt_irrefl _))

theorem findEntry_eq_none {k : K} {es : List (K × V)} (h : ∀ e ∈ es, e.1 ≠ k) : findEntry k es = none := by
  induction es with
  | nil => rfl
  | cons d ds ih =>
    rw [findEntry, if_neg (h d (by simp)), ih (fun e he => h e (List.mem_cons_of_mem _ he))]

theorem mem_entries {m : FlatMap K V} {k : K} {v : V} : (k, v) ∈ m.entries ↔ m.find? k = some v := by
  obtain ⟨es, hs⟩ := m
  simp only [find?]
  induction es with
  | nil => simp [findEntry]
  | cons d ds ih =>
    obtain ⟨hd, hds⟩ := List.pairwise_cons.mp hs
    rw [findEntry, List.mem_cons]
    split_ifs with hk
    · have hnot : (k, v) ∉ ds := fun hm => absurd (hd _ hm) (by simp [hk])
      simp [Prod.ext_iff, hnot, hk, eq_comm]
    · have hne : (k, v) ≠ d := fun h => hk (h ▸ rfl)
      simpa [hne] using ih hds

theorem ext_find? {m n : FlatMap K V} (h : ∀ k, m.find? k = n.find? k) : m = n := by
  have hmem : ∀ e, e ∈ m.entries ↔ e ∈ n.entries := by
    rintro ⟨k, v⟩
    rw [mem_entries, mem_entries, h]
  have hperm := (List.perm_ext_iff_of_nodup m.nodup_entries n.nodup_entries).mpr hmem
  have heq : m.entries = n.entries :=
    List.Perm.eq_of_pairwise (fun a b _ _ hab hba => absurd (hab.trans hba) (lt_irrefl _)) m.sorted n.sorted hperm
  cases m; cases n; simpa using heq

@[simp] theorem find?_empty (k : K) : (empty : FlatMap K V).find? k = none := rfl

theorem findEntry_insertEntry (es : List (K × V)) (k k' : K) (v : V) :
    findEntry k' (insertEntry k v es) = if k' = k then some v else findEntry k' es := by
  induction es with
  | nil => simp [insertEntry, findEntry, eq_comm]
  | cons d ds ih =>
    rw [insertEntry, findEntry]
    by_cases hlt : k < d.1
    · rw [if_pos hlt, findEntry, findEntry]
      simp [eq_comm]
    · by_cases heq : k = d.1
      · rw [if_neg hlt, if_pos heq, findEntry, ← heq]
        simp only [eq_comm]
        split_ifs <;> rfl
      · rw [if_neg hlt, if_neg heq, findEntry, ih]
        by_cases hd : d.1 = k'
        · have hk : k' ≠ k := fun h => heq (by rw [hd, h])
          simp [hd, hk]
        · simp [hd]

@[simp] theorem find?_insert (m : FlatMap K V) (k k' : K) (v : V) :
    (m.insert k v).find? k' = if k' = k then some v else m.find? k' := findEntry_insertEntry m.entries k k' v

theorem perm_insert {m : FlatMap K V} {k : K} (v : V) (h : m.find? k = none) :
    (m.insert k v).entries.Perm ((k, v) :: m.entries) := by
  obtain ⟨es, hs⟩ := m
  simp only [find?, insert] at h ⊢
  clear hs
  induction es with
  | nil => exact .refl _
  | cons d ds ih =>
    rw [findEntry] at h
    rw [insertEntry]
    split_ifs at h with hd
    split_ifs with hlt heq
    · exact .refl _
    · exact absurd heq.symm hd
    · exact ((ih h).cons d).trans (.swap _ _ _)

theorem find?_update (m : FlatMap K V) (k k' : K) (f : Option V → V) :
    (m.update k f).find? k' = if k' = k then some (f (m.find? k)) else m.find? k' :=
  find?_insert m k k' _

theorem find?_filter (m : FlatMap K V) (p : K → V → Bool) (k : K) :
    (m.filter p).find? k = (m.find? k).filter (p k) := by
  ext v
  rw [← mem_entries, Option.filter_eq_some_iff, ← mem_entries, filter, List.mem_filter]

@[simp] theorem find?_erase (m : FlatMap K V) (k k' : K) :
    (m.erase k).find? k' = if k' = k then none else m.find? k' := by
  rw [erase, find?_filter]
  by_cases h : k' = k <;> cases m.find? k' <;> simp [h]

theorem erase_insert (m : FlatMap K V) (k : K) (v : V) : (m.insert k v).erase k = m.erase k := by
  apply ext_find?
  intro k'
  rw [find?_erase, find?_erase, find?_insert]
  split_ifs <;> rfl

@[simp] theorem find?_map {W : Type} (m : FlatMap K V) (f : K → V → W) (k : K) :
    (m.map f).find? k = (m.find? k).map (f k) := by
  ext w
  rw [← mem_entries, Option.map_eq_some_iff, map, List.mem_map]
  constructor
  · rintro ⟨⟨k', v⟩, hm, he⟩
    obtain ⟨rfl, rfl⟩ := Prod.mk.inj he
    exact ⟨v, mem_entries.mp hm, rfl⟩
  · rintro ⟨v, hv, rfl⟩
    exact ⟨(k, v), mem_entries.mpr hv, rfl⟩

theorem find?_mergeWith {W : Type} (f : Option V → W → V) (m : FlatMap K V) (n : FlatMap K W) (k : K) :
    (mergeWith f m n).find? k = (n.find? k).elim (m.find? k) (fun w => some (f (m.find? k) w)) := by
  obtain ⟨es, hs⟩ := n
  change find? (es.foldl _ m) k = (findEntry k es).elim _ _
  induction es generalizing m with
  | nil => rfl
  | cons d ds ih =>
    obtain ⟨hd, hds⟩ := List.pairwise_cons.mp hs
    rw [List.foldl_cons, ih _ hds, find?_update, findEntry]
    by_cases hk : d.1 = k
    · have hnone : findEntry k ds = none :=
        findEntry_eq_none fun e he heq => absurd (hd e he) (by simp [hk, heq])
      simp [hk, hnone]
    · simp [hk, Ne.symm hk]

theorem lastKey?_eq_none {m : FlatMap K V} : m.lastKey? = none ↔ m = empty := by
  obtain ⟨es, hs⟩ := m
  simp [lastKey?, empty]

theorem le_lastKey {m : FlatMap K V} {k l : K} {v : V} (hl : m.lastKey? = some l)
    (hk : m.find? k = some v) : k ≤ l := by
  obtain ⟨⟨l', w⟩, he, rfl⟩ := Option.map_eq_some_iff.mp hl
  obtain ⟨init, heq⟩ := List.getLast?_eq_some_iff.mp he
  have hmem := mem_entries.mpr hk
  have hs := m.sorted
  rw [heq] at hmem hs
  rcases List.mem_append.mp hmem with hm | hm
  · exact ((List.pairwise_append.mp hs).2.2 _ hm _ (by simp)).le
  · simp only [List.mem_singleton, Prod.mk.injEq] at hm
    exact hm.1.le

theorem find?_lastKey {m : FlatMap K V} {l : K} (hl : m.lastKey? = some l) : ∃ v, m.find? l = some v := by
  obtain ⟨⟨l', w⟩, he, rfl⟩ := Option.map_eq_some_iff.mp hl
  exact ⟨w, mem_entries.mp (List.mem_of_getLast? he)⟩

theorem exists_lastKey?_insert (m : FlatMap K V) (k : K) (v : V) : ∃ l, (m.insert k v).lastKey? = some l := by
  apply Option.ne_none_iff_exists'.mp
  intro hnone
  have hsome := find?_insert m k k v
  rw [lastKey?_eq_none.mp hnone, find?_empty, if_pos rfl] at hsome
  cases hsome

theorem lastKey?_insert_eq_some {m : FlatMap K V} {k : K} {v : V} :
    (m.insert k v).lastKey? = some k ↔ ∀ e ∈ m.entries, e.1 ≤ k := by
  constructor
  · rintro h ⟨k', w⟩ he
    rw [mem_entries] at he
    by_cases hk : k' = k
    · exact hk.le
    · exact le_lastKey h (by rw [find?_insert, if_neg hk, he])
  · intro h
    obtain ⟨l, hlast⟩ := exists_lastKey?_insert m k v
    obtain ⟨w, hw⟩ := find?_lastKey hlast
    have hge : k ≤ l := le_lastKey hlast (by rw [find?_insert, if_pos rfl])
    have hle : l ≤ k := by
      rw [find?_insert] at hw
      split_ifs at hw with hl
      · exact hl.le
      · exact h (l, w) (mem_entries.mpr hw)
    rw [hlast, le_antisymm hle hge]

theorem entries_insert_last {m : FlatMap K V} {k : K} (v : V) (h : ∀ e ∈ m.entries, e.1 < k) :
    (m.insert k v).entries = m.entries ++ [(k, v)] := by
  obtain ⟨es, hs⟩ := m
  simp only [insert] at h ⊢
  clear hs
  induction es with
  | nil => rfl
  | cons d ds ih =>
    have hd := h d (by simp)
    rw [insertEntry, if_neg (not_lt.mpr hd.le), if_neg (ne_of_gt hd),
      ih (fun e he => h e (List.mem_cons_of_mem _ he)), List.cons_append]

section Join

variable [SemilatticeSup V]

def join (m n : FlatMap K V) : FlatMap K V := mergeWith (fun old v => old.elim v (· ⊔ v)) m n

theorem find?_join (m n : FlatMap K V) (k : K) :
    (join m n).find? k = (n.find? k).elim (m.find? k) (fun v => some ((m.find? k).elim v (· ⊔ v))) :=
  find?_mergeWith _ m n k

instance : SemilatticeSup (FlatMap K V) := @SemilatticeSup.mk' _ ⟨join⟩
  (fun m n => ext_find? fun k => by
    change (join m n).find? k = (join n m).find? k
    rw [find?_join, find?_join]
    cases m.find? k <;> cases n.find? k <;> simp [sup_comm])
  (fun m n o => ext_find? fun k => by
    change (join (join m n) o).find? k = (join m (join n o)).find? k
    simp only [find?_join]
    cases m.find? k <;> cases n.find? k <;> cases o.find? k <;> simp [sup_assoc])
  (fun m => ext_find? fun k => by
    change (join m m).find? k = m.find? k
    rw [find?_join]
    cases m.find? k <;> simp)

theorem find?_sup (m n : FlatMap K V) (k : K) :
    (m ⊔ n).find? k = (n.find? k).elim (m.find? k) (fun v => some ((m.find? k).elim v (· ⊔ v))) :=
  find?_join m n k

theorem le_iff {m n : FlatMap K V} :
    m ≤ n ↔ ∀ k v, m.find? k = some v → ∃ w, n.find? k = some w ∧ v ≤ w := by
  rw [← sup_eq_right]
  constructor
  · intro h k v hv
    have hk := congrArg (fun x => find? x k) h
    simp only [find?_sup, hv] at hk
    cases hn : n.find? k with
    | none => simp [hn] at hk
    | some w => exact ⟨w, rfl, by simpa [hn] using hk⟩
  · intro h
    refine ext_find? fun k => ?_
    rw [find?_sup]
    cases hm : m.find? k with
    | none => cases n.find? k <;> simp
    | some v =>
      obtain ⟨w, hw, hvw⟩ := h k v hm
      simp [hw, hvw]

@[simp] theorem empty_sup (m : FlatMap K V) : empty ⊔ m = m := by
  rw [sup_eq_right, le_iff]
  simp

end Join

end FlatMap

abbrev FlatSet (K : Type) [LinearOrder K] := FlatMap K Unit

namespace FlatSet

variable {K : Type} [LinearOrder K]

instance : Membership K (FlatSet K) := ⟨fun s k => s.find? k = some ()⟩

instance (s : FlatSet K) (k : K) : Decidable (k ∈ s) := inferInstanceAs (Decidable (s.find? k = some ()))

def insert (s : FlatSet K) (k : K) : FlatSet K := FlatMap.insert s k ()

theorem mem_iff {s : FlatSet K} {k : K} : k ∈ s ↔ s.find? k = some () := Iff.rfl

@[simp] theorem mem_insert {s : FlatSet K} {k k' : K} : k' ∈ s.insert k ↔ k' = k ∨ k' ∈ s := by
  rw [mem_iff, insert, FlatMap.find?_insert, mem_iff]
  split_ifs <;> simp [*]

@[simp] theorem not_mem_empty (k : K) : k ∉ (FlatMap.empty : FlatSet K) := by simp [mem_iff]

theorem mem_sup {s t : FlatSet K} {k : K} : k ∈ s ⊔ t ↔ k ∈ s ∨ k ∈ t := by
  rw [mem_iff, mem_iff, mem_iff, FlatMap.find?_sup]
  cases s.find? k <;> cases t.find? k <;> simp

theorem ext {s t : FlatSet K} (h : ∀ k, k ∈ s ↔ k ∈ t) : s = t :=
  FlatMap.ext_find? fun k => by
    have hk := h k
    rw [mem_iff, mem_iff] at hk
    cases hs : s.find? k <;> cases ht : t.find? k <;> simp_all

end FlatSet
