import Tightrope.Library.Bytes
import Tightrope.Library.KeyedTable
import Tightrope.Sync.Crdt.LwwRegister
import Tightrope.Sync.Crdt.OrSet
import Tightrope.Sync.Crdt.PnCounter

namespace Tightrope.Sync.Crdt

open MachineWords KeyedTable Bytes

structure LwwRow where
  value : Bytes
  hlcWall : UInt64
  hlcCounter : UInt32
  hlcSiteId : UInt32
  siteId : UInt32
  deriving DecidableEq

abbrev TagKey := Bytes ×ₗ UInt32 ×ₗ UInt64

def tagKey (element : Bytes) (tag : ORSetTag) : TagKey := toLex (element, toLex (tag.siteId, tag.counter))

def keyElement (row : TagKey) : Bytes := (ofLex row).1

def keyTag (row : TagKey) : ORSetTag := ⟨(ofLex (ofLex row).2).1, (ofLex (ofLex row).2).2⟩

theorem eq_tagKey_iff {row : TagKey} {element : Bytes} {tag : ORSetTag} :
    tagKey element tag = row ↔ element = keyElement row ∧ tag = keyTag row :=
  ⟨fun h => h ▸ ⟨rfl, rfl⟩, fun ⟨he, ht⟩ => by rw [he, ht]; rfl⟩

structure CrdtTables where
  pnCounter : FlatMap (Bytes ×ₗ UInt32) (ℤ × ℤ)
  lww : FlatMap Bytes LwwRow
  orSetTags : FlatMap (Bytes ×ₗ TagKey) Unit
  orSetCounters : FlatMap (Bytes ×ₗ UInt32) UInt64
  deriving DecidableEq

namespace CrdtTables

def empty : CrdtTables := ⟨.empty, .empty, .empty, .empty⟩

def pnRows (counter : PNCounter) : FlatMap UInt32 (ℤ × ℤ) :=
  let rows := counter.positive.counts.entries.foldl (fun (acc : FlatMap UInt32 (ℤ × ℤ)) e =>
    acc.update e.1 (fun old => (e.2, (old.getD (0, 0)).2))) .empty
  counter.negative.counts.entries.foldl (fun acc e =>
    acc.update e.1 (fun old => ((old.getD (0, 0)).1, e.2))) rows

def savePnCounter (db : CrdtTables) (key : Bytes) (counter : PNCounter) : Option CrdtTables :=
  (replaceKey db.pnCounter (cstr key) (pnRows counter).entries).map fun t => { db with pnCounter := t }

def loadPnCounter (db : CrdtTables) (key : Bytes) : PNCounter :=
  (slice db.pnCounter (cstr key)).entries.foldl (fun out row => out.setSiteCounts row.1 row.2.1 row.2.2) .empty

def saveLwwString (db : CrdtTables) (key : Bytes) (reg : LWWRegister Bytes) : Option CrdtTables :=
  if !reg.initialized then some { db with lww := db.lww.erase (cstr key) }
  else
    let row : LwwRow :=
      ⟨cstr reg.value, reg.timestamp.wall, reg.timestamp.counter, reg.timestamp.siteId, reg.siteId⟩
    some { db with lww := db.lww.insert (cstr key) row }

def loadLwwString (db : CrdtTables) (key : Bytes) : LWWRegister Bytes :=
  match db.lww.find? (cstr key) with
  | none => .new
  | some row => .set (cstr row.value) ⟨row.hlcWall, row.hlcCounter, row.hlcSiteId⟩ row.siteId

def tagRows (set : ORSet) : List (TagKey × Unit) :=
  set.elements.entries.flatMap fun e =>
    e.2.entries.map fun tag => (tagKey (cstr e.1) tag.1, ())

def saveOrSet (db : CrdtTables) (key : Bytes) (set : ORSet) : Option CrdtTables :=
  (replaceKey db.orSetCounters (cstr key) set.counters.entries).bind fun counters =>
    (replaceKey db.orSetTags (cstr key) (tagRows set)).map fun tags =>
      { db with orSetCounters := counters, orSetTags := tags }

def loadOrSetCounters (db : CrdtTables) (key : Bytes) : ORSet :=
  (slice db.orSetCounters (cstr key)).entries.foldl (fun out row => out.setCounter row.1 row.2) .empty

def loadOrSetTags (db : CrdtTables) (key : Bytes) (out : ORSet) : ORSet :=
  (slice db.orSetTags (cstr key)).entries.foldl (fun out row =>
    out.addTag (cstr (keyElement row.1)) (keyTag row.1)) out

def loadOrSet (db : CrdtTables) (key : Bytes) : ORSet := loadOrSetTags db key (loadOrSetCounters db key)

theorem pnRows_eq (counter : PNCounter) :
    pnRows counter = FlatMap.mergeWith (fun old n => ((old.getD (0, 0)).1, n))
      (FlatMap.mergeWith (fun old p => (p, (old.getD (0, 0)).2)) .empty counter.positive.counts)
      counter.negative.counts := rfl

theorem foldl_setSiteCounts (rows : List (UInt32 × ℤ × ℤ)) (out : PNCounter) :
    let res := rows.foldl (fun out row => out.setSiteCounts row.1 row.2.1 row.2.2) out
    res.positive.counts = rows.foldl (fun acc e => acc.update e.1 (fun _ => max e.2.1 0)) out.positive.counts ∧
      res.negative.counts = rows.foldl (fun acc e => acc.update e.1 (fun _ => max e.2.2 0)) out.negative.counts := by
  induction rows generalizing out with
  | nil => exact ⟨rfl, rfl⟩
  | cons row rows ih => exact ih (out.setSiteCounts row.1 row.2.1 row.2.2)

theorem count_loadPnCounter (db : CrdtTables) (key : Bytes) (site : UInt32) :
    (loadPnCounter db key).positive.count site =
        ((slice db.pnCounter (cstr key)).find? site).elim 0 (fun row => max row.1 0) ∧
      (loadPnCounter db key).negative.count site =
        ((slice db.pnCounter (cstr key)).find? site).elim 0 (fun row => max row.2 0) := by
  obtain ⟨hp, hn⟩ := foldl_setSiteCounts (slice db.pnCounter (cstr key)).entries .empty
  have hp' : (loadPnCounter db key).positive.counts =
      FlatMap.mergeWith (fun _ row => max row.1 0) .empty (slice db.pnCounter (cstr key)) := hp
  have hn' : (loadPnCounter db key).negative.counts =
      FlatMap.mergeWith (fun _ row => max row.2 0) .empty (slice db.pnCounter (cstr key)) := hn
  simp only [GCounter.count, hp', hn', FlatMap.find?_mergeWith]
  cases (slice db.pnCounter (cstr key)).find? site <;> simp

theorem slice_savePnCounter {db db' : CrdtTables} {key : Bytes} {counter : PNCounter}
    (h : savePnCounter db key counter = some db') : slice db'.pnCounter (cstr key) = pnRows counter := by
  obtain ⟨t, ht, rfl⟩ := Option.map_eq_some_iff.mp h
  apply FlatMap.ext_find?
  intro site
  ext row
  rw [find?_replaceKey ht, FlatMap.mem_entries]

theorem count_load_savePnCounter {db db' : CrdtTables} {key : Bytes} {counter : PNCounter}
    (h : savePnCounter db key counter = some db') (site : UInt32) :
    (loadPnCounter db' key).positive.count site = counter.positive.count site ∧
      (loadPnCounter db' key).negative.count site = counter.negative.count site := by
  have hp := counter.positive.count_nonneg site
  have hn := counter.negative.count_nonneg site
  obtain ⟨hlp, hln⟩ := count_loadPnCounter db' key site
  rw [hlp, hln, slice_savePnCounter h, pnRows_eq, FlatMap.find?_mergeWith, FlatMap.find?_mergeWith]
  simp only [GCounter.count, FlatMap.find?_empty] at hp hn ⊢
  cases hcp : counter.positive.counts.find? site <;> cases hcn : counter.negative.counts.find? site <;>
    simp_all

theorem load_saveLwwString {db db' : CrdtTables} {key : Bytes} {reg : LWWRegister Bytes}
    (h : saveLwwString db key reg = some db') :
    loadLwwString db' key =
      if reg.initialized then .set (cstr reg.value) reg.timestamp reg.siteId else .new := by
  unfold saveLwwString at h
  cases hi : reg.initialized with
  | false =>
    simp only [hi, Bool.not_false, ↓reduceIte, Option.some.injEq] at h
    simp [← h, loadLwwString]
  | true =>
    simp only [hi, Bool.not_true, Bool.false_eq_true, ↓reduceIte, Option.some.injEq] at h
    simp [← h, loadLwwString]

theorem saveOrSet_eq_some {db db' : CrdtTables} {key : Bytes} {set : ORSet}
    (h : saveOrSet db key set = some db') :
    slice db'.orSetCounters (cstr key) = set.counters ∧
      ∀ row, (slice db'.orSetTags (cstr key)).find? row = some () ↔ (row, ()) ∈ tagRows set := by
  obtain ⟨counters, hc, h⟩ := Option.bind_eq_some_iff.mp h
  obtain ⟨tags, ht, rfl⟩ := Option.map_eq_some_iff.mp h
  refine ⟨FlatMap.ext_find? fun site => ?_, fun row => find?_replaceKey ht row ()⟩
  ext counter
  rw [find?_replaceKey hc, FlatMap.mem_entries]

theorem loadOrSetCounters_eq (db : CrdtTables) (key : Bytes) :
    loadOrSetCounters db key = ⟨.empty, slice db.orSetCounters (cstr key)⟩ := by
  have hmerge := ORSet.counters_mergeWith .empty (slice db.orSetCounters (cstr key))
  rw [FlatMap.empty_sup] at hmerge
  rw [loadOrSetCounters, ORSet.foldl_setCounter]
  exact congrArg (ORSet.mk .empty) hmerge

theorem counters_loadOrSetTags (db : CrdtTables) (key : Bytes) (out : ORSet) :
    (loadOrSetTags db key out).counters = out.counters := by
  rw [loadOrSetTags]
  induction (slice db.orSetTags (cstr key)).entries generalizing out with
  | nil => rfl
  | cons row rows ih => exact ih _

theorem mem_tags_addTag (s : ORSet) (element element' : Bytes) (tag tag' : ORSetTag) :
    tag' ∈ (s.addTag element tag).tags element' ↔ element' = element ∧ tag' = tag ∨ tag' ∈ s.tags element' := by
  simp only [ORSet.tags, ORSet.addTag, FlatMap.find?_update]
  split_ifs with h
  · subst h
    simp
  · simp [h]

theorem mem_tags_loadOrSetTags (db : CrdtTables) (key : Bytes) (out : ORSet) (element : Bytes) (tag : ORSetTag) :
    tag ∈ (loadOrSetTags db key out).tags element ↔ tag ∈ out.tags element ∨
      ∃ text, cstr text = element ∧ (slice db.orSetTags (cstr key)).find? (tagKey text tag) = some () := by
  simp only [← FlatMap.mem_entries, loadOrSetTags]
  induction (slice db.orSetTags (cstr key)).entries generalizing out with
  | nil => simp
  | cons row rows ih =>
    rw [List.foldl_cons, ih, mem_tags_addTag]
    have hrow : ∀ text, (tagKey text tag, ()) ∈ row :: rows ↔
        text = keyElement row.1 ∧ tag = keyTag row.1 ∨ (tagKey text tag, ()) ∈ rows := by
      intro text
      rw [List.mem_cons, Prod.ext_iff, eq_tagKey_iff]
      simp
    simp only [hrow]
    constructor
    · rintro ((⟨rfl, rfl⟩ | h) | ⟨text, rfl, h⟩)
      · exact .inr ⟨_, rfl, .inl ⟨rfl, rfl⟩⟩
      · exact .inl h
      · exact .inr ⟨text, rfl, .inr h⟩
    · rintro (h | ⟨text, rfl, ⟨rfl, rfl⟩ | h⟩)
      · exact .inl (.inr h)
      · exact .inl (.inl ⟨rfl, rfl⟩)
      · exact .inr ⟨text, rfl, h⟩

theorem mem_tagRows (set : ORSet) (text : Bytes) (tag : ORSetTag) :
    (tagKey text tag, ()) ∈ tagRows set ↔ ∃ element, cstr element = text ∧ tag ∈ set.tags element := by
  simp only [tagRows, List.mem_flatMap, List.mem_map, Prod.mk.injEq, and_true]
  constructor
  · rintro ⟨⟨element, tags⟩, he, ⟨tag', u⟩, ht, hkey⟩
    obtain ⟨htext, rfl⟩ := eq_tagKey_iff.mp hkey
    refine ⟨element, htext, ?_⟩
    rw [ORSet.tags, FlatMap.mem_entries.mp he]
    exact FlatMap.mem_entries.mp ht
  · rintro ⟨element, rfl, htag⟩
    rw [ORSet.tags] at htag
    cases he : set.elements.find? element with
    | none => simp [he] at htag
    | some tags =>
      rw [he] at htag
      exact ⟨(element, tags), FlatMap.mem_entries.mpr he, (tag, ()), FlatMap.mem_entries.mpr htag, rfl⟩

theorem counters_load_saveOrSet {db db' : CrdtTables} {key : Bytes} {set : ORSet}
    (h : saveOrSet db key set = some db') : (loadOrSetCounters db' key).counters = set.counters := by
  rw [loadOrSetCounters_eq, (saveOrSet_eq_some h).1]

theorem mem_tags_load_saveOrSet {db db' : CrdtTables} {key : Bytes} {set : ORSet}
    (h : saveOrSet db key set = some db') (out : ORSet) (element : Bytes) (tag : ORSetTag) :
    tag ∈ (loadOrSetTags db' key out).tags element ↔
      tag ∈ out.tags element ∨ ∃ text, cstr text = element ∧ tag ∈ set.tags text := by
  rw [mem_tags_loadOrSetTags]
  simp only [(saveOrSet_eq_some h).2, mem_tagRows]
  constructor
  · rintro (hout | ⟨text, rfl, element, rfl, htag⟩)
    · exact .inl hout
    · exact .inr ⟨element, by simp, htag⟩
  · rintro (hout | ⟨text, rfl, htag⟩)
    · exact .inl hout
    · exact .inr ⟨cstr text, by simp, text, rfl, htag⟩

theorem nulFree_of_mem_load {db : CrdtTables} {key element : Bytes} {tag : ORSetTag}
    (h : tag ∈ (loadOrSet db key).tags element) : NulFree element := by
  rw [loadOrSet, mem_tags_loadOrSetTags, loadOrSetCounters_eq] at h
  obtain h | ⟨text, rfl, -⟩ := h
  · simp [ORSet.tags] at h
  · exact nulFree_cstr text

end CrdtTables

end Tightrope.Sync.Crdt
