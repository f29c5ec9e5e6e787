import Mathlib.Data.Prod.Lex
import Tightrope.Library.Bytes
import Tightrope.Library.FlatMap

namespace Tightrope.Sync.Crdt

open MachineWords

structure ORSetTag where
  siteId : UInt32
  counter : UInt64
  deriving DecidableEq, Repr

namespace ORSetTag

def key (t : ORSetTag) : UInt32 ×ₗ UInt64 := toLex (t.siteId, t.counter)

theorem key_injective : Function.Injective key := by
  rintro ⟨s, c⟩ ⟨s', c'⟩ h
  simpa [key] using h

instance : LinearOrder ORSetTag := LinearOrder.lift' key key_injective

end ORSetTag

abbrev TagSet := FlatSet ORSetTag

structure ORSet where
  elements : FlatMap Bytes TagSet
  counters : FlatMap UInt32 UInt64
  deriving DecidableEq

namespace ORSet

def empty : ORSet := ⟨.empty, .empty⟩

def nextTag (s : ORSet) (siteId : UInt32) : ORSet × ORSetTag :=
  let counter := (s.counters.find? siteId).getD 0 + 1
  ({ s with counters := s.counters.insert siteId counter }, ⟨siteId, counter⟩)

def addTag (s : ORSet) (element : Bytes) (tag : ORSetTag) : ORSet :=
  { s with elements := s.elements.update element (fun own => (own.getD .empty).insert tag) }

def add (s : ORSet) (element : Bytes) (siteId : UInt32) : ORSet :=
  let (s', tag) := s.nextTag siteId
  s'.addTag element tag

def raiseCounter (own : Option UInt64) (counter : UInt64) : UInt64 :=
  let current := own.getD 0
  if counter > current then counter else current

def setCounter (s : ORSet) (siteId : UInt32) (counter : UInt64) : ORSet :=
  { s with counters := s.counters.update siteId (fun own => raiseCounter own counter) }

def remove (s : ORSet) (element : Bytes) : ORSet := { s with elements := s.elements.erase element }

def insertTags (own tags : TagSet) : TagSet := tags.entries.foldl (fun acc e => acc.insert e.1) own

def merge (s other : ORSet) : ORSet :=
  let s' := other.counters.entries.foldl (fun acc e => acc.setCounter e.1 e.2) s
  other.elements.entries.foldl (fun acc e =>
    { acc with elements := acc.elements.update e.1 (fun own => insertTags (own.getD .empty) e.2) }) s'

def contains (s : ORSet) (element : Bytes) : Bool :=
  match s.elements.find? element with
  | none => false
  | some tags => tags.entries ≠ []

def values (s : ORSet) : List Bytes :=
  s.elements.entries.filterMap (fun e => if e.2.entries ≠ [] then some e.1 else none)

def tags (s : ORSet) (element : Bytes) : TagSet := (s.elements.find? element).getD .empty

theorem insertTags_eq_sup (own tags : TagSet) : insertTags own tags = own ⊔ tags := by
  have h : insertTags own tags = own.mergeWith (fun _ _ => ()) tags := rfl
  rw [h]
  apply FlatMap.ext_find?
  intro k
  rw [FlatMap.find?_mergeWith, FlatMap.find?_sup]

theorem foldl_setCounter (s : ORSet) (es : List (UInt32 × UInt64)) :
    es.foldl (fun acc e => acc.setCounter e.1 e.2) s =
      ⟨s.elements, es.foldl (fun acc e => acc.update e.1 (fun own => raiseCounter own e.2)) s.counters⟩ := by
  induction es generalizing s with
  | nil => rfl
  | cons e es ih => rw [List.foldl_cons, ih]; rfl

theorem foldl_insertTags (s : ORSet) (es : List (Bytes × TagSet)) :
    es.foldl (fun acc e =>
        { acc with elements := acc.elements.update e.1 (fun own => insertTags (own.getD .empty) e.2) }) s =
      ⟨es.foldl (fun acc e => acc.update e.1 (fun own => insertTags (own.getD .empty) e.2)) s.elements,
        s.counters⟩ := by
  induction es generalizing s with
  | nil => rfl
  | cons e es ih => rw [List.foldl_cons, ih]; rfl

theorem counters_mergeWith (a b : FlatMap UInt32 UInt64) : a.mergeWith raiseCounter b = a ⊔ b := by
  apply FlatMap.ext_find?
  intro k
  rw [FlatMap.find?_mergeWith, FlatMap.find?_sup]
  have hraise : ∀ own c, raiseCounter own c = own.elim c (· ⊔ c) := by
    intro own c
    cases own with
    | none => simp only [raiseCounter, Option.getD_none, Option.elim_none]; grind
    | some o => simp only [raiseCounter, Option.getD_some, Option.elim_some]; grind
  simp only [hraise]

theorem elements_mergeWith (a b : FlatMap Bytes TagSet) :
    a.mergeWith (fun own tags => insertTags (own.getD .empty) tags) b = a ⊔ b := by
  apply FlatMap.ext_find?
  intro k
  rw [FlatMap.find?_mergeWith, FlatMap.find?_sup]
  cases a.find? k <;> simp [insertTags_eq_sup]

theorem merge_eq (s other : ORSet) :
    s.merge other = ⟨s.elements ⊔ other.elements, s.counters ⊔ other.counters⟩ := by
  rw [merge, foldl_setCounter, foldl_insertTags, ← elements_mergeWith, ← counters_mergeWith]
  rfl

theorem tags_merge (s other : ORSet) (element : Bytes) :
    (s.merge other).tags element = s.tags element ⊔ other.tags element := by
  apply FlatSet.ext
  intro tag
  rw [FlatSet.mem_sup, merge_eq]
  simp only [tags, FlatMap.find?_sup]
  cases s.elements.find? element <;> cases other.elements.find? element <;>
    simp [FlatSet.mem_sup]

theorem tags_remove (s : ORSet) (element element' : Bytes) :
    (s.remove element).tags element' = if element' = element then .empty else s.tags element' := by
  simp only [tags, remove, FlatMap.find?_erase]
  split_ifs <;> rfl

theorem tags_add_of_ne (s : ORSet) (siteId : UInt32) {element element' : Bytes} (h : element' ≠ element) :
    (s.add element siteId).tags element' = s.tags element' := by
  simp [tags, add, addTag, nextTag, FlatMap.find?_update, h]

theorem contains_iff (s : ORSet) (element : Bytes) : s.contains element = true ↔ ∃ tag, tag ∈ s.tags element := by
  simp only [contains, tags]
  cases h : s.elements.find? element with
  | none => simp
  | some ts =>
    simp only [Option.getD_some, decide_eq_true_eq, List.ne_nil_iff_exists_cons, FlatSet.mem_iff,
      ← FlatMap.mem_entries]
    constructor
    · rintro ⟨⟨tag, u⟩, rest, he⟩
      exact ⟨tag, he ▸ List.mem_cons_self⟩
    · rintro ⟨tag, hm⟩
      exact List.ne_nil_iff_exists_cons.mp (List.ne_nil_of_mem hm)

def toPair (s : ORSet) : FlatMap Bytes TagSet × FlatMap UInt32 UInt64 := (s.elements, s.counters)

theorem toPair_injective : Function.Injective toPair := by
  rintro ⟨e, c⟩ ⟨e', c'⟩ h
  simpa [toPair] using h

theorem toPair_merge (a b : ORSet) : (a.merge b).toPair = a.toPair ⊔ b.toPair := by
  rw [merge_eq]
  rfl

end ORSet

end Tightrope.Sync.Crdt
