import Mathlib.Data.List.Nodup
import Tightrope.Library.FlatMap
import Tightrope.Library.Retention
import Tightrope.P2p.Dht.Message

namespace Tightrope.P2p.Dht

open Bytes Retention

structure StoredValue where
  key : Bytes
  value : Bytes
  publisherId : NodeId := .zero
  storedUnixMs : UInt64 := 0
  expiresUnixMs : UInt64 := 0

structure ValueStore where
  valuesByKey : FlatMap Bytes (List StoredValue) := .empty

abbrev Slot := Bytes × NodeId

namespace StoredValue

def slot (item : StoredValue) : Slot := (item.value, item.publisherId)

def record (item : StoredValue) : ValueRecord := ⟨item.value, item.expiresUnixMs⟩

end StoredValue

def expiresAt (nowUnixMs : UInt64) (ttlSeconds : UInt32) : UInt64 := nowUnixMs + ttlSeconds.toUInt64 * 1000

def putValue (stored : StoredValue) : List StoredValue → List StoredValue
  | [] => [stored]
  | item :: items =>
    if item.value = stored.value ∧ item.publisherId = stored.publisherId then
      { item with storedUnixMs := stored.storedUnixMs, expiresUnixMs := stored.expiresUnixMs } :: items
    else item :: putValue stored items

def collectLive (limit : ℕ) (nowUnixMs : UInt64) : List StoredValue → List ValueRecord → List ValueRecord
  | [], out => out
  | entry :: entries, out =>
    if entry.expiresUnixMs ≤ nowUnixMs then collectLive limit nowUnixMs entries out
    else
      if 0 < limit ∧ limit ≤ (out ++ [entry.record]).length then out ++ [entry.record]
      else collectLive limit nowUnixMs entries (out ++ [entry.record])

namespace ValueStore

def put (s : ValueStore) (key value : Bytes) (publisherId : NodeId) (nowUnixMs : UInt64) (ttlSeconds : UInt32) :
    ValueStore :=
  if key = [] ∨ value = [] ∨ ttlSeconds = 0 then s
  else
    { valuesByKey := s.valuesByKey.update key fun items =>
        putValue ⟨key, value, publisherId, nowUnixMs, expiresAt nowUnixMs ttlSeconds⟩ (items.getD []) }

def get (s : ValueStore) (key : Bytes) (limit : ℕ) (nowUnixMs : UInt64) : List ValueRecord :=
  match s.valuesByKey.find? key with
  | none => []
  | some items => collectLive limit nowUnixMs items []

def unexpired (nowUnixMs : UInt64) (entries : List StoredValue) : List StoredValue :=
  entries.filter fun entry => ¬ entry.expiresUnixMs ≤ nowUnixMs

def prune (s : ValueStore) (nowUnixMs : UInt64) : ValueStore × ℕ :=
  let kept := s.valuesByKey.map fun _ entries => unexpired nowUnixMs entries
  (⟨kept.filter fun _ entries => entries ≠ []⟩,
    (s.valuesByKey.entries.map fun e => e.2.length - (unexpired nowUnixMs e.2).length).sum)

def size (s : ValueStore) : ℕ := (s.valuesByKey.entries.map fun e => e.2.length).sum

inductive Call
  | put (key value : Bytes) (publisherId : NodeId) (nowUnixMs : UInt64) (ttlSeconds : UInt32)
  | prune (nowUnixMs : UInt64)
  deriving DecidableEq

def step (s : ValueStore) : Call → ValueStore
  | .put key value publisherId nowUnixMs ttlSeconds => s.put key value publisherId nowUnixMs ttlSeconds
  | .prune nowUnixMs => (s.prune nowUnixMs).1

def run (calls : List Call) : ValueStore := calls.foldl step {}

section Meaning

def stores (key : Bytes) (slot : Slot) : Call → Option ℕ
  | .put key' value publisherId nowUnixMs ttlSeconds =>
    if key' = key ∧ (value, publisherId) = slot ∧ key ≠ [] ∧ value ≠ [] ∧ 0 < ttlSeconds.toNat then
      some ((nowUnixMs.toNat + 1000 * ttlSeconds.toNat) % 2 ^ 64)
    else none
  | .prune _ => none

def removes (call : Call) (expires : ℕ) : Prop := ∃ nowUnixMs, call = .prune nowUnixMs ∧ expires ≤ nowUnixMs.toNat

/-- The latest put of the slot that counts gave this expiry, and no prune with a time at or after it ran since. -/
def LastStored (key : Bytes) (calls : List Call) (slot : Slot) (expires : ℕ) : Prop :=
  Retained (stores key slot) removes calls expires

def cut (limit : ℕ) (records : List ValueRecord) : List ValueRecord :=
  if 0 < limit then records.take limit else records

def StoredSince (key : Bytes) (calls : List Call) (slot : Slot) (position : ℕ) : Prop :=
  RetainedSince (stores key slot) removes calls position

end Meaning

section Items

def itemsFor (s : ValueStore) (key : Bytes) : List StoredValue := (s.valuesByKey.find? key).getD []

variable {s : ValueStore} {key : Bytes} {limit : ℕ} {nowUnixMs : UInt64}

theorem mem_unexpired {item : StoredValue} {items : List StoredValue} :
    item ∈ unexpired nowUnixMs items ↔ item ∈ items ∧ nowUnixMs < item.expiresUnixMs := by
  simp [unexpired]

theorem collectLive_eq (items : List StoredValue) (out : List ValueRecord) (hout : 0 < limit → out.length < limit) :
    collectLive limit nowUnixMs items out =
      if 0 < limit then (out ++ (unexpired nowUnixMs items).map StoredValue.record).take limit
      else out ++ (unexpired nowUnixMs items).map StoredValue.record := by
  induction items generalizing out with
  | nil =>
    split_ifs with hlimit
    · rw [List.take_of_length_le (by simpa [unexpired] using (hout hlimit).le)]
      simp [collectLive, unexpired]
    · simp [collectLive, unexpired]
  | cons entry entries ih =>
    rw [collectLive]
    by_cases hexpired : entry.expiresUnixMs ≤ nowUnixMs
    · have hdrop : unexpired nowUnixMs (entry :: entries) = unexpired nowUnixMs entries := by
        simp [unexpired, hexpired]
      rw [if_pos hexpired, ih out hout, hdrop]
    · have hkeep : unexpired nowUnixMs (entry :: entries) = entry :: unexpired nowUnixMs entries := by
        simp [unexpired, not_le.mp hexpired]
      have hsplit : out ++ (unexpired nowUnixMs (entry :: entries)).map StoredValue.record =
          out ++ [entry.record] ++ (unexpired nowUnixMs entries).map StoredValue.record := by
        rw [hkeep, List.map_cons, List.append_assoc, List.singleton_append]
      rw [if_neg hexpired, hsplit]
      by_cases hfull : 0 < limit ∧ limit ≤ (out ++ [entry.record]).length
      · have hlength := hout hfull.1
        have hlast : limit = (out ++ [entry.record]).length := by
          rw [List.length_append, List.length_singleton] at hfull ⊢
          omega
        rw [if_pos hfull, if_pos hfull.1, hlast, List.take_left]
      · rw [if_neg hfull, ih _ fun hlimit => by omega]

theorem get_eq (s : ValueStore) (key : Bytes) (limit : ℕ) (nowUnixMs : UInt64) : s.get key limit nowUnixMs =
    cut limit ((unexpired nowUnixMs (s.itemsFor key)).map StoredValue.record) := by
  rw [get, itemsFor, cut]
  cases s.valuesByKey.find? key with
  | none => simp [unexpired]
  | some items =>
    rw [Option.getD_some]
    exact collectLive_eq items [] id

theorem itemsFor_prune : (s.prune nowUnixMs).1.itemsFor key = unexpired nowUnixMs (s.itemsFor key) := by
  simp only [itemsFor, prune, FlatMap.find?_filter, FlatMap.find?_map]
  cases s.valuesByKey.find? key with
  | none => simp [unexpired]
  | some items =>
    rw [Option.map_some, Option.filter_some]
    split_ifs with hempty
    · rfl
    · rw [Option.getD_none, Option.getD_some]
      simpa using hempty

theorem itemsFor_put (s : ValueStore) (key key' value : Bytes) (publisherId : NodeId) (ttlSeconds : UInt32) :
    (s.put key' value publisherId nowUnixMs ttlSeconds).itemsFor key =
      if key' = key ∧ key ≠ [] ∧ value ≠ [] ∧ ttlSeconds ≠ 0 then
        putValue ⟨key, value, publisherId, nowUnixMs, expiresAt nowUnixMs ttlSeconds⟩ (s.itemsFor key)
      else s.itemsFor key := by
  unfold put
  by_cases hignored : key' = [] ∨ value = [] ∨ ttlSeconds = 0
  · rw [if_pos hignored, if_neg]
    rintro ⟨rfl, hkey, hvalue, httl⟩
    obtain hempty | hempty | hzero := hignored
    · exact hkey hempty
    · exact hvalue hempty
    · exact httl hzero
  · rw [not_or, not_or] at hignored
    rw [if_neg (by simpa [not_or] using hignored), itemsFor, FlatMap.find?_update]
    by_cases hkey : key = key'
    · subst hkey
      rw [if_pos rfl, if_pos ⟨rfl, hignored⟩, Option.getD_some, itemsFor]
    · rw [if_neg hkey, if_neg fun h => hkey h.1.symm, itemsFor]

theorem putValue_cases (stored : StoredValue) (items : List StoredValue) :
    (∃ before item after, items = before ++ item :: after ∧ item.slot = stored.slot ∧ putValue stored items =
      before ++ { item with storedUnixMs := stored.storedUnixMs, expiresUnixMs := stored.expiresUnixMs } :: after) ∨
    (∀ item ∈ items, item.slot ≠ stored.slot) ∧ putValue stored items = items ++ [stored] := by
  induction items with
  | nil => exact .inr ⟨by simp, rfl⟩
  | cons item items ih =>
    have hslot : item.slot = stored.slot ↔ item.value = stored.value ∧ item.publisherId = stored.publisherId :=
      Prod.ext_iff
    rw [putValue]
    split_ifs with hsame
    · exact .inl ⟨[], item, items, rfl, hslot.mpr hsame, rfl⟩
    · obtain ⟨before, found, after, rfl, hfound, heq⟩ | ⟨hnone, heq⟩ := ih
      · exact .inl ⟨item :: before, found, after, rfl, hfound, by rw [heq, List.cons_append]⟩
      · refine .inr ⟨?_, by rw [heq, List.cons_append]⟩
        rw [List.forall_mem_cons]
        exact ⟨fun h => hsame (hslot.mp h), hnone⟩

end Items

section Histories

variable {key : Bytes} {calls : List Call} {call : Call} {items : List StoredValue} {slot : Slot} {expires : ℕ}

def Holds (items : List StoredValue) (slot : Slot) (expires : ℕ) : Prop :=
  ∃ item ∈ items, item.slot = slot ∧ item.expiresUnixMs.toNat = expires

def HeldBefore (key : Bytes) (calls : List Call) (earlier later : Slot) : Prop :=
  ∃ m n, m < n ∧ StoredSince key calls earlier m ∧ StoredSince key calls later n

/-- The values under a key are what the calls so far make of it. -/
structure Reflects (key : Bytes) (calls : List Call) (items : List StoredValue) : Prop where
  distinct : (items.map StoredValue.slot).Nodup
  stored : ∀ slot expires, Holds items slot expires ↔ LastStored key calls slot expires
  ordered : (items.map StoredValue.slot).Pairwise (HeldBefore key calls)

theorem toNat_expiresAt (nowUnixMs : UInt64) (ttlSeconds : UInt32) : (expiresAt nowUnixMs ttlSeconds).toNat =
    (nowUnixMs.toNat + 1000 * ttlSeconds.toNat) % 2 ^ 64 := by
  have hlt := ttlSeconds.toNat_lt
  simp only [expiresAt, UInt64.toNat_add, UInt64.toNat_mul, UInt32.toNat_toUInt64, UInt64.reduceToNat]
  omega

theorem holds_unexpired {nowUnixMs : UInt64} : Holds (unexpired nowUnixMs items) slot expires ↔
    Holds items slot expires ∧ nowUnixMs.toNat < expires := by
  constructor
  · rintro ⟨item, hitem, rfl, rfl⟩
    obtain ⟨hitem, hlt⟩ := mem_unexpired.mp hitem
    exact ⟨⟨item, hitem, rfl, rfl⟩, hlt⟩
  · rintro ⟨⟨item, hitem, rfl, rfl⟩, hlt⟩
    exact ⟨item, mem_unexpired.mpr ⟨hitem, hlt⟩, rfl, rfl⟩

theorem holds_putValue {stored : StoredValue} (hdistinct : (items.map StoredValue.slot).Nodup) :
    Holds (putValue stored items) slot expires ↔ if stored.slot = slot then stored.expiresUnixMs.toNat = expires
      else Holds items slot expires := by
  obtain ⟨before, item, after, rfl, hitem, heq⟩ | ⟨hnone, heq⟩ := putValue_cases stored items
  · rw [heq]
    rw [List.map_append, List.map_cons, List.nodup_middle, List.nodup_cons, List.mem_append] at hdistinct
    obtain ⟨hnot, -⟩ := hdistinct
    split_ifs with hslot
    · constructor
      · rintro ⟨other, hother, hsame, rfl⟩
        rw [List.mem_append, List.mem_cons] at hother
        obtain hother | rfl | hother := hother
        · exact absurd (.inl (List.mem_map.mpr ⟨other, hother, by rw [hsame, hitem, hslot]⟩)) hnot
        · rfl
        · exact absurd (.inr (List.mem_map.mpr ⟨other, hother, by rw [hsame, hitem, hslot]⟩)) hnot
      · rintro rfl
        exact ⟨_, List.mem_append_right _ List.mem_cons_self, hitem.trans hslot, rfl⟩
    · have hne : item.slot ≠ slot := fun h => hslot (hitem.symm.trans h)
      simp only [Holds, List.mem_append, List.mem_cons]
      constructor
      · rintro ⟨other, hother | rfl | hother, hsame, rfl⟩
        · exact ⟨other, .inl hother, hsame, rfl⟩
        · exact absurd hsame hne
        · exact ⟨other, .inr (.inr hother), hsame, rfl⟩
      · rintro ⟨other, hother | rfl | hother, hsame, rfl⟩
        · exact ⟨other, .inl hother, hsame, rfl⟩
        · exact absurd hsame hne
        · exact ⟨other, .inr (.inr hother), hsame, rfl⟩
  · rw [heq]
    simp only [Holds, List.mem_append, List.mem_singleton]
    split_ifs with hslot
    · constructor
      · rintro ⟨other, hother | rfl, hsame, rfl⟩
        · exact absurd (hsame.trans hslot.symm) (hnone other hother)
        · rfl
      · rintro rfl
        exact ⟨stored, .inr rfl, hslot, rfl⟩
    · constructor
      · rintro ⟨other, hother | rfl, hsame, rfl⟩
        · exact ⟨other, hother, hsame, rfl⟩
        · exact absurd hsame hslot
      · rintro ⟨other, hother, hsame, rfl⟩
        exact ⟨other, .inl hother, hsame, rfl⟩

theorem map_slot_putValue (stored : StoredValue) (items : List StoredValue) :
    (putValue stored items).map StoredValue.slot = items.map StoredValue.slot ∨
    (∀ item ∈ items, item.slot ≠ stored.slot) ∧
      (putValue stored items).map StoredValue.slot = items.map StoredValue.slot ++ [stored.slot] := by
  obtain ⟨before, item, after, rfl, -, heq⟩ | ⟨hnone, heq⟩ := putValue_cases stored items
  · left
    rw [heq, List.map_append, List.map_append]
    rfl
  · right
    refine ⟨hnone, ?_⟩
    rw [heq, List.map_append]
    rfl

theorem holds_of_mem (h : slot ∈ items.map StoredValue.slot) : ∃ expires, Holds items slot expires := by
  obtain ⟨item, hitem, hslot⟩ := List.mem_map.mp h
  exact ⟨_, item, hitem, hslot, rfl⟩

theorem mem_of_holds (h : Holds items slot expires) : slot ∈ items.map StoredValue.slot := by
  obtain ⟨item, hitem, hslot, -⟩ := h
  exact List.mem_map.mpr ⟨item, hitem, hslot⟩

theorem HeldBefore.concat {slots : List Slot} (hordered : slots.Pairwise (HeldBefore key calls))
    (hheld : ∀ slot ∈ slots, ∃ expires, LastStored key (calls ++ [call]) slot expires) :
    slots.Pairwise (HeldBefore key (calls ++ [call])) := by
  refine hordered.imp_of_mem ?_
  rintro a b ha hb ⟨m, n, hlt, hm, hn⟩
  obtain ⟨e, he⟩ := hheld a ha
  obtain ⟨f, hf⟩ := hheld b hb
  exact ⟨m, n, hlt, hm.concat he, hn.concat hf⟩

theorem Reflects.prune {nowUnixMs : UInt64} (h : Reflects key calls items) :
    Reflects key (calls ++ [.prune nowUnixMs]) (unexpired nowUnixMs items) := by
  have hsub : ((unexpired nowUnixMs items).map StoredValue.slot).Sublist (items.map StoredValue.slot) :=
    List.filter_sublist.map _
  have hstored : ∀ slot expires, Holds (unexpired nowUnixMs items) slot expires ↔
      LastStored key (calls ++ [.prune nowUnixMs]) slot expires := by
    intro slot expires
    rw [holds_unexpired, h.stored, LastStored, LastStored, retained_concat]
    simp [stores, removes]
  refine ⟨h.distinct.sublist hsub, hstored, HeldBefore.concat (h.ordered.sublist hsub) fun slot hslot => ?_⟩
  obtain ⟨expires, hholds⟩ := holds_of_mem hslot
  exact ⟨expires, (hstored slot expires).mp hholds⟩

theorem Reflects.ignored (h : Reflects key calls items) (hstores : ∀ slot, stores key slot call = none)
    (hremoves : ∀ expires, ¬ removes call expires) : Reflects key (calls ++ [call]) items := by
  have hstored : ∀ slot expires, Holds items slot expires ↔ LastStored key (calls ++ [call]) slot expires := by
    intro slot expires
    rw [h.stored, LastStored, LastStored, retained_concat]
    simp [hstores, hremoves]
  refine ⟨h.distinct, hstored, HeldBefore.concat h.ordered fun slot hslot => ?_⟩
  obtain ⟨expires, hholds⟩ := holds_of_mem hslot
  exact ⟨expires, (hstored slot expires).mp hholds⟩

theorem Reflects.put {stored : StoredValue} (h : Reflects key calls items)
    (hstores : ∀ slot, stores key slot call = if stored.slot = slot then some stored.expiresUnixMs.toNat else none)
    (hremoves : ∀ expires, ¬ removes call expires) : Reflects key (calls ++ [call]) (putValue stored items) := by
  have hstored : ∀ slot expires, Holds (putValue stored items) slot expires ↔
      LastStored key (calls ++ [call]) slot expires := by
    intro slot expires
    rw [holds_putValue h.distinct, LastStored, retained_concat, hstores]
    split_ifs with hslot
    · simp
    · rw [h.stored]
      simp [LastStored, hremoves]
  have hheld : ∀ slot ∈ (putValue stored items).map StoredValue.slot,
      ∃ expires, LastStored key (calls ++ [call]) slot expires := by
    intro slot hslot
    obtain ⟨expires, hholds⟩ := holds_of_mem hslot
    exact ⟨expires, (hstored slot expires).mp hholds⟩
  obtain hslots | ⟨hnew, hslots⟩ := map_slot_putValue stored items
  · rw [hslots] at hheld
    refine ⟨by rw [hslots]; exact h.distinct, hstored, ?_⟩
    rw [hslots]
    exact HeldBefore.concat h.ordered hheld
  · have hfresh : stored.slot ∉ items.map StoredValue.slot := by
      simpa using fun item hitem => hnew item hitem
    rw [hslots] at hheld
    refine ⟨?_, hstored, ?_⟩
    · rw [hslots, List.nodup_append]
      refine ⟨h.distinct, List.nodup_singleton _, fun slot hslot other hother => ?_⟩
      rw [List.mem_singleton] at hother
      rintro rfl
      exact hfresh (hother ▸ hslot)
    · rw [hslots, List.pairwise_append]
      refine ⟨HeldBefore.concat h.ordered fun slot hslot => hheld slot (List.mem_append_left _ hslot),
        List.pairwise_singleton _ _, fun slot hslot other hother => ?_⟩
      obtain rfl := List.mem_singleton.mp hother
      obtain ⟨e, he⟩ := holds_of_mem hslot
      obtain ⟨m, hm⟩ := exists_retainedSince ((h.stored _ _).mp he)
      obtain ⟨f, hf⟩ := hheld slot (List.mem_append_left _ hslot)
      obtain ⟨g, hg⟩ := hheld stored.slot (List.mem_append_right _ hother)
      -- The new record comes after every call that the others have been held since.
      refine ⟨m, calls.length, hm.1, hm.concat hf, retainedSince_last (fun w hw => ?_) hg⟩
      exact hfresh (mem_of_holds ((h.stored _ _).mpr hw))

theorem stores_put (key key' value : Bytes) (publisherId : NodeId) (nowUnixMs : UInt64) (ttlSeconds : UInt32)
    (slot : Slot) : stores key slot (.put key' value publisherId nowUnixMs ttlSeconds) =
      if key' = key ∧ key ≠ [] ∧ value ≠ [] ∧ ttlSeconds ≠ 0 then
        if (value, publisherId) = slot then some (expiresAt nowUnixMs ttlSeconds).toNat else none
      else none := by
  have hpos : 0 < ttlSeconds.toNat ↔ ttlSeconds ≠ 0 := by
    rw [Nat.pos_iff_ne_zero, Ne, Ne, ← UInt32.toNat_inj, UInt32.toNat_zero]
  simp only [stores, toNat_expiresAt, hpos]
  split_ifs <;> simp_all

theorem reflects_step {s : ValueStore} (h : Reflects key calls (s.itemsFor key)) (call : Call) :
    Reflects key (calls ++ [call]) ((s.step call).itemsFor key) := by
  cases call with
  | put key' value publisherId nowUnixMs ttlSeconds =>
    rw [step, itemsFor_put]
    split_ifs with hcounts
    · refine h.put (fun slot => ?_) (by simp [removes])
      rw [stores_put, if_pos hcounts]
      rfl
    · refine h.ignored (fun slot => ?_) (by simp [removes])
      rw [stores_put, if_neg hcounts]
  | prune nowUnixMs =>
    rw [step, itemsFor_prune]
    exact h.prune

theorem reflects_run (key : Bytes) (calls : List Call) : Reflects key calls ((run calls).itemsFor key) := by
  induction calls using List.reverseRecOn with
  | nil =>
    refine ⟨List.nodup_nil, fun slot expires => ?_, List.Pairwise.nil⟩
    simp [Holds, LastStored, run, itemsFor]
  | append_singleton calls call ih =>
    rw [run, List.foldl_append]
    exact reflects_step ih call

end Histories

section Pruning

variable {key : Bytes} {items : List StoredValue} {gone : List Slot} {early nowUnixMs : UInt64}

def Thinned (gone : List Slot) (early : UInt64) (items thinned : List StoredValue) : Prop :=
  thinned = items.filter (fun item => item.slot ∉ gone) ∧
    ∀ item ∈ items, item.slot ∈ gone → item.expiresUnixMs ≤ early

theorem Thinned.unexpired {thinned : List StoredValue} (h : Thinned gone early items thinned) :
    Thinned gone early (unexpired nowUnixMs items) (ValueStore.unexpired nowUnixMs thinned) := by
  obtain ⟨rfl, hearly⟩ := h
  refine ⟨?_, fun item hitem => hearly item (mem_unexpired.mp hitem).1⟩
  rw [ValueStore.unexpired, ValueStore.unexpired, List.filter_comm]

theorem filter_putValue {stored : StoredValue} (h : stored.slot ∉ gone) (items : List StoredValue) :
    (putValue stored items).filter (fun item => item.slot ∉ gone) =
      putValue stored (items.filter fun item => item.slot ∉ gone) := by
  induction items with
  | nil => simpa [putValue] using h
  | cons item items ih =>
    have hslot : item.slot = stored.slot ↔ item.value = stored.value ∧ item.publisherId = stored.publisherId :=
      Prod.ext_iff
    rw [putValue]
    by_cases hsame : item.value = stored.value ∧ item.publisherId = stored.publisherId
    · have hkept : item.slot ∉ gone := by rwa [hslot.mpr hsame]
      have hstays : ∀ other : StoredValue, other.slot = item.slot →
          (other :: items).filter (fun item => item.slot ∉ gone) =
            other :: items.filter (fun item => item.slot ∉ gone) :=
        fun other hother => List.filter_cons_of_pos (by simpa [hother] using hkept)
      rw [if_pos hsame, hstays item rfl, putValue, if_pos hsame]
      exact hstays _ rfl
    · rw [if_neg hsame]
      by_cases hkept : item.slot ∈ gone
      · rw [List.filter_cons_of_neg (by simpa using hkept), List.filter_cons_of_neg (by simpa using hkept), ih]
      · rw [List.filter_cons_of_pos (by simpa using hkept), List.filter_cons_of_pos (by simpa using hkept),
          ih, putValue,
          if_neg hsame]

theorem Thinned.putValue {thinned : List StoredValue} {stored : StoredValue} (h : Thinned gone early items thinned)
    (hkept : stored.slot ∉ gone) : Thinned gone early (putValue stored items) (Dht.putValue stored thinned) := by
  obtain ⟨rfl, hearly⟩ := h
  refine ⟨(filter_putValue hkept items).symm, fun item hitem hgone => ?_⟩
  obtain ⟨before, known, after, rfl, hknown, heq⟩ | ⟨-, heq⟩ := putValue_cases stored items
  · rw [heq, List.mem_append, List.mem_cons] at hitem
    obtain hitem | rfl | hitem := hitem
    · exact hearly item (List.mem_append_left _ hitem) hgone
    · exact absurd (hknown ▸ hgone) hkept
    · exact hearly item (List.mem_append_right _ (List.mem_cons_of_mem _ hitem)) hgone
  · rw [heq, List.mem_append, List.mem_singleton] at hitem
    obtain hitem | rfl := hitem
    · exact hearly item hitem hgone
    · exact absurd hgone hkept

theorem Thinned.step {s t : ValueStore} {call : Call} (h : Thinned gone early (s.itemsFor key) (t.itemsFor key))
    (hcall : ∀ slot ∈ gone, stores key slot call = none) :
    Thinned gone early ((s.step call).itemsFor key) ((t.step call).itemsFor key) := by
  cases call with
  | put key' value publisherId nowUnixMs ttlSeconds =>
    simp only [ValueStore.step, itemsFor_put]
    split_ifs with hcounts
    · refine h.putValue fun hgone => ?_
      have hnone := hcall _ hgone
      rw [stores_put, if_pos hcounts] at hnone
      exact absurd hnone (by simp [StoredValue.slot])
    · exact h
  | prune nowUnixMs =>
    simp only [ValueStore.step, itemsFor_prune]
    exact h.unexpired

theorem Thinned.run {calls : List Call} {s t : ValueStore}
    (h : Thinned gone early (s.itemsFor key) (t.itemsFor key))
    (hcalls : ∀ call ∈ calls, ∀ slot ∈ gone, stores key slot call = none) :
    Thinned gone early ((calls.foldl ValueStore.step s).itemsFor key)
      ((calls.foldl ValueStore.step t).itemsFor key) := by
  induction calls generalizing s t with
  | nil => exact h
  | cons call calls ih =>
    exact ih (h.step (hcalls call List.mem_cons_self)) fun other hother => hcalls other (List.mem_cons_of_mem _ hother)

theorem Thinned.get {s t : ValueStore} (h : Thinned gone early (s.itemsFor key) (t.itemsFor key))
    (hearly : early ≤ nowUnixMs) (limit : ℕ) : t.get key limit nowUnixMs = s.get key limit nowUnixMs := by
  obtain ⟨hthinned, hgone⟩ := h
  have hlive : ValueStore.unexpired nowUnixMs (t.itemsFor key) = ValueStore.unexpired nowUnixMs (s.itemsFor key) := by
    rw [hthinned, ValueStore.unexpired, ValueStore.unexpired, List.filter_filter]
    apply List.filter_congr
    intro item hitem
    by_cases hslot : item.slot ∈ gone
    · simp [hslot, (hgone item hitem hslot).trans hearly]
    · simp [hslot]
  rw [get_eq, get_eq, hlive]

end Pruning

/-- The records of a key that a history leaves and that have not expired, in the order of the calls since which each
has been stored. -/
structure LiveRecords (key : Bytes) (calls : List Call) (nowUnixMs : UInt64) (live : List (Slot × UInt64)) : Prop where
  distinct : (live.map Prod.fst).Nodup
  stored : ∀ slot expires, (slot, expires) ∈ live ↔ LastStored key calls slot expires.toNat ∧ nowUnixMs < expires
  ordered : (live.map Prod.fst).Pairwise (HeldBefore key calls)

def recordOf (entry : Slot × UInt64) : ValueRecord := ⟨entry.1.1, entry.2⟩

section Results

variable {key : Bytes} {calls before after : List Call} {early nowUnixMs : UInt64}

theorem exists_liveRecords (key : Bytes) (calls : List Call) (nowUnixMs : UInt64) :
    ∃ live, LiveRecords key calls nowUnixMs live ∧
      ∀ limit, (run calls).get key limit nowUnixMs = cut limit (live.map recordOf) := by
  have h := reflects_run key calls
  let live := (unexpired nowUnixMs ((run calls).itemsFor key)).map fun item => (item.slot, item.expiresUnixMs)
  have hslots : live.map Prod.fst = (unexpired nowUnixMs ((run calls).itemsFor key)).map StoredValue.slot := by
    rw [List.map_map]
    rfl
  have hsub : (live.map Prod.fst).Sublist (((run calls).itemsFor key).map StoredValue.slot) :=
    hslots ▸ List.filter_sublist.map _
  refine ⟨live, ⟨h.distinct.sublist hsub, fun slot expires => ?_, h.ordered.sublist hsub⟩, fun limit => ?_⟩
  · have hmem : (slot, expires) ∈ live ↔ Holds (unexpired nowUnixMs ((run calls).itemsFor key)) slot expires.toNat := by
      simp [live, Holds, ← UInt64.toNat_inj]
    rw [hmem, holds_unexpired, h.stored, UInt64.lt_iff_toNat_lt]
  · rw [get_eq, List.map_map]
    rfl

theorem lastStored_prune {slot : Slot} {expires : ℕ} (hlive : early.toNat < expires) :
    LastStored key (before ++ .prune early :: after) slot expires ↔ LastStored key (before ++ after) slot expires := by
  apply retained_skip rfl
  rintro ⟨time, heq, hle⟩
  cases heq
  omega

theorem LiveRecords.perm {calls' : List Call} {live live' : List (Slot × UInt64)}
    (h : LiveRecords key calls nowUnixMs live) (h' : LiveRecords key calls' nowUnixMs live')
    (hsame : ∀ slot expires, nowUnixMs.toNat < expires →
      (LastStored key calls slot expires ↔ LastStored key calls' slot expires)) : live.Perm live' := by
  refine (List.perm_ext_iff_of_nodup (.of_map _ h.distinct) (.of_map _ h'.distinct)).mpr fun ⟨slot, expires⟩ => ?_
  rw [h.stored, h'.stored]
  exact and_congr_left fun hlt => hsame slot expires.toNat hlt

theorem length_cut_of_perm {records records' : List ValueRecord} (h : records.Perm records') (limit : ℕ) :
    (cut limit records).length = (cut limit records').length := by
  unfold cut
  split_ifs
  · rw [List.length_take, List.length_take, h.length_eq]
  · exact h.length_eq

theorem thinned_unexpired (early : UInt64) {items : List StoredValue} (hdistinct : (items.map StoredValue.slot).Nodup) :
    ∃ gone, Thinned gone early items (unexpired early items) ∧
      ∀ slot ∈ gone, ∃ expires ≤ early.toNat, Holds items slot expires := by
  have hgone : ∀ item ∈ items,
      (item.slot ∈ (items.filter fun item => item.expiresUnixMs ≤ early).map StoredValue.slot ↔
        item.expiresUnixMs ≤ early) := by
    intro item hitem
    rw [List.mem_map]
    constructor
    · rintro ⟨other, hother, hslot⟩
      obtain ⟨hother, hle⟩ := List.mem_filter.mp hother
      rw [← List.inj_on_of_nodup_map hdistinct hother hitem hslot]
      simpa using hle
    · intro hle
      exact ⟨item, List.mem_filter.mpr ⟨hitem, by simpa using hle⟩, rfl⟩
  refine ⟨(items.filter fun item => item.expiresUnixMs ≤ early).map StoredValue.slot, ⟨?_, ?_⟩, ?_⟩
  · apply List.filter_congr
    intro item hitem
    exact decide_eq_decide.mpr (not_congr (hgone item hitem)).symm
  · exact fun item hitem => (hgone item hitem).mp
  · intro slot hslot
    obtain ⟨item, hitem, rfl⟩ := List.mem_map.mp hslot
    obtain ⟨hitem, hle⟩ := List.mem_filter.mp hitem
    exact ⟨item.expiresUnixMs.toNat, UInt64.le_iff_toNat_le.mp (by simpa using hle), item, hitem, rfl, rfl⟩

theorem get_prune_early (hearly : early ≤ nowUnixMs)
    (hafter : ∀ slot expires, LastStored key before slot expires → expires ≤ early.toNat →
      ∀ call ∈ after, stores key slot call = none) (limit : ℕ) :
    (run (before ++ .prune early :: after)).get key limit nowUnixMs =
      (run (before ++ after)).get key limit nowUnixMs := by
  have hbefore := reflects_run key before
  obtain ⟨gone, hthinned, hgone⟩ := thinned_unexpired early hbefore.distinct
  rw [← itemsFor_prune] at hthinned
  have hcalls : ∀ call ∈ after, ∀ slot ∈ gone, stores key slot call = none := by
    intro call hcall slot hslot
    obtain ⟨expires, hle, hholds⟩ := hgone slot hslot
    exact hafter slot expires ((hbefore.stored slot expires).mp hholds) hle call hcall
  have hrun := hthinned.run hcalls
  rw [run, run, List.foldl_append, List.foldl_append, List.foldl_cons]
  exact hrun.get hearly limit

/-- What a history leaves under a key is what its latest puts ask for, and early prunes change no more than the order.
-/
theorem get_after_history (calls : List Call) (key : Bytes) (nowUnixMs : UInt64) :
    (∃ live, LiveRecords key calls nowUnixMs live ∧
      ∀ limit, (run calls).get key limit nowUnixMs = cut limit (live.map recordOf)) ∧
    ∀ before after early, calls = before ++ after → early ≤ nowUnixMs →
      ((run (before ++ .prune early :: after)).get key 0 nowUnixMs).Perm ((run calls).get key 0 nowUnixMs) ∧
      (∀ limit, ((run (before ++ .prune early :: after)).get key limit nowUnixMs).length =
        ((run calls).get key limit nowUnixMs).length) ∧
      ((∀ slot expires, LastStored key before slot expires → expires ≤ early.toNat →
          ∀ call ∈ after, stores key slot call = none) →
        ∀ limit, (run (before ++ .prune early :: after)).get key limit nowUnixMs =
          (run calls).get key limit nowUnixMs) := by
  refine ⟨exists_liveRecords key calls nowUnixMs, ?_⟩
  rintro before after early rfl hearly
  obtain ⟨live, hlive, hget⟩ := exists_liveRecords key (before ++ after) nowUnixMs
  obtain ⟨live', hlive', hget'⟩ := exists_liveRecords key (before ++ .prune early :: after) nowUnixMs
  have hperm : (live'.map recordOf).Perm (live.map recordOf) := by
    refine (hlive'.perm hlive fun slot expires hlt => lastStored_prune ?_).map _
    exact lt_of_le_of_lt (UInt64.le_iff_toNat_le.mp hearly) hlt
  refine ⟨?_, fun limit => ?_, fun hafter => get_prune_early hearly hafter⟩
  · rw [hget, hget']
    exact hperm
  · rw [hget, hget']
    exact length_cut_of_perm hperm limit

theorem early_prune_reorders :
    let a : List Call := [.put (ofString "k") (ofString "a") .zero 0 1, .put (ofString "k") (ofString "b") .zero 0 9]
    let b : List Call := [.put (ofString "k") (ofString "a") .zero 3000 9]
    (run (a ++ b)).get (ofString "k") 1 5000 = [⟨ofString "a", 12000⟩] ∧
    (run (a ++ .prune 2000 :: b)).get (ofString "k") 1 5000 = [⟨ofString "b", 9000⟩] ∧
    (run [.put (ofString "k") (ofString "a") .zero 18446744073709551615 1]).get (ofString "k") 0
      18446744073709551615 = [] := by
  decide

end Results

end ValueStore

end Tightrope.P2p.Dht
