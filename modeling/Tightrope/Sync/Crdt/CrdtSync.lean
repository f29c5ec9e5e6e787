import Tightrope.Library.Delivery
import Tightrope.Library.Interleaving
import Tightrope.Sync.Crdt.CrdtStore
import Tightrope.Sync.Crdt.LwwRegister
import Tightrope.Sync.Crdt.OrSet
import Tightrope.Sync.Crdt.PnCounter

namespace Tightrope.Sync.Crdt

open Delivery Interleaving Bytes CrdtTables

theorem PNCounter.joinLaws : JoinLaws PNCounter.merge := .of_injective counts_injective counts_merge

theorem ORSet.joinLaws : JoinLaws ORSet.merge := .of_injective toPair_injective toPair_merge

namespace LWWRegister

variable {T : Type} [Inhabited T]

theorem merge_eq : (merge : LWWRegister T → LWWRegister T → LWWRegister T) = keepLarger stamp := by
  funext a b
  exact merge_eq_keepLarger a b

theorem merge_assoc (a b c : LWWRegister T) : (a.merge b).merge c = a.merge (b.merge c) := by
  simp only [merge_eq]
  exact keepLarger_assoc stamp a b c

theorem merge_self (a : LWWRegister T) : a.merge a = a := by
  rw [merge_eq]
  exact keepLarger_self stamp a

theorem merge_comm {a b : LWWRegister T} (h : UniqueWrites [a, b]) : a.merge b = b.merge a := by
  simp only [merge_eq]
  apply keepLarger_comm
  exact h.stamp_injective a (by simp) b (by simp)

theorem foldl_merge_eq {s : LWWRegister T} {ds es : List (LWWRegister T)} (h : UniqueWrites (s :: ds))
    (hmem : ∀ d, d ∈ ds ↔ d ∈ es) : ds.foldl merge s = es.foldl merge s := by
  rw [merge_eq]
  exact foldl_keepLarger_eq stamp h.stamp_injective hmem

end LWWRegister

theorem deliveries_converge :
    (∀ (s : PNCounter) (ds es : List PNCounter), (∀ d, d ∈ ds ↔ d ∈ es) →
      ds.foldl PNCounter.merge s = es.foldl PNCounter.merge s) ∧
    (∀ (s : ORSet) (ds es : List ORSet), (∀ d, d ∈ ds ↔ d ∈ es) →
      ds.foldl ORSet.merge s = es.foldl ORSet.merge s) ∧
    (∀ (s : LWWRegister Bytes) (ds es : List (LWWRegister Bytes)), LWWRegister.UniqueWrites (s :: ds) →
      (∀ d, d ∈ ds ↔ d ∈ es) → ds.foldl LWWRegister.merge s = es.foldl LWWRegister.merge s) ∧
    JoinLaws PNCounter.merge ∧ JoinLaws ORSet.merge ∧
    (∀ a b c : LWWRegister Bytes, LWWRegister.UniqueWrites [a, b, c] →
      a.merge b = b.merge a ∧ (a.merge b).merge c = a.merge (b.merge c) ∧ a.merge a = a) := by
  refine ⟨fun s ds es h => PNCounter.joinLaws.foldl_eq h, fun s ds es h => ORSet.joinLaws.foldl_eq h,
    fun s ds es hu h => LWWRegister.foldl_merge_eq hu h, PNCounter.joinLaws, ORSet.joinLaws, ?_⟩
  intro a b c h
  exact ⟨LWWRegister.merge_comm (h.subset (by simp)), LWWRegister.merge_assoc a b c, LWWRegister.merge_self a⟩

theorem deliveries_converge_two_writes :
    let x : LWWRegister Bytes := .set [1] ⟨100, 1, 4⟩ 4
    let y : LWWRegister Bytes := .set [2] ⟨101, 0, 2⟩ 2
    [x, y, x].foldl LWWRegister.merge .new = [y, x].foldl LWWRegister.merge .new := by
  intro x y
  apply deliveries_converge.2.2.1
  · unfold LWWRegister.UniqueWrites
    decide
  · intro d
    simp only [List.mem_cons, List.not_mem_nil, or_false]
    tauto

section Sequential

variable (db : CrdtTables) (key : Bytes)

def mergeUsageCounter (remote : PNCounter) : Option (CrdtTables × PNCounter) :=
  let merged := (loadPnCounter db key).merge remote
  (savePnCounter db key merged).map fun db' => (db', merged)

def mergeStickySession (remote : LWWRegister Bytes) : Option (CrdtTables × LWWRegister Bytes) :=
  let merged := (loadLwwString db key).merge remote
  (saveLwwString db key merged).map fun db' => (db', merged)

def mergeIpAllowlist (remote : ORSet) : Option (CrdtTables × ORSet) :=
  let merged := (loadOrSet db key).merge remote
  (saveOrSet db key merged).map fun db' => (db', merged)

end Sequential

section Concurrent

variable (db : CrdtTables) (key : Bytes)

def usageCounterCalls (remote : Caller → PNCounter) (schedule : List Caller) : Option CrdtTables :=
  outcome (fun c db local' => savePnCounter db key (local'.merge (remote c)))
    (fun _ => [fun db _ => loadPnCounter db key]) .empty db schedule

def stickySessionCalls (remote : Caller → LWWRegister Bytes) (schedule : List Caller) : Option CrdtTables :=
  outcome (fun c db local' => saveLwwString db key (local'.merge (remote c)))
    (fun _ => [fun db _ => loadLwwString db key]) .new db schedule

def ipAllowlistCalls (remote : Caller → ORSet) (schedule : List Caller) : Option CrdtTables :=
  outcome (fun c db local' => saveOrSet db key (local'.merge (remote c)))
    (fun _ => [fun db _ => loadOrSetCounters db key, fun db out => loadOrSetTags db key out]) .empty db schedule

end Concurrent

section Serial

variable (db : CrdtTables) (key : Bytes)

theorem usageCounterCalls_serial (remote : Caller → PNCounter) :
    usageCounterCalls db key remote [.first, .first, .second, .second] =
      (mergeUsageCounter db key (remote .first)).bind fun r =>
        (mergeUsageCounter r.1 key (remote .second)).map Prod.fst := by
  refine (outcome_serial _ _ _ db).trans ?_
  simp [mergeUsageCounter, Option.bind_map, Function.comp_def, readAll]

theorem stickySessionCalls_serial (remote : Caller → LWWRegister Bytes) :
    stickySessionCalls db key remote [.first, .first, .second, .second] =
      (mergeStickySession db key (remote .first)).bind fun r =>
        (mergeStickySession r.1 key (remote .second)).map Prod.fst := by
  refine (outcome_serial _ _ _ db).trans ?_
  simp [mergeStickySession, Option.bind_map, Function.comp_def, readAll]

theorem ipAllowlistCalls_serial (remote : Caller → ORSet) :
    ipAllowlistCalls db key remote [.first, .first, .first, .second, .second, .second] =
      (mergeIpAllowlist db key (remote .first)).bind fun r =>
        (mergeIpAllowlist r.1 key (remote .second)).map Prod.fst := by
  refine (outcome_serial _ _ _ db).trans ?_
  simp [mergeIpAllowlist, Option.bind_map, Function.comp_def, readAll, loadOrSet]

end Serial

def SameCounts (a b : PNCounter) : Prop :=
  ∀ site, a.positive.count site = b.positive.count site ∧ a.negative.count site = b.negative.count site

def CountsCovered (remote a b : PNCounter) : Prop :=
  ∀ site, remote.positive.count site ≤ max (a.positive.count site) (b.positive.count site) ∧
    remote.negative.count site ≤ max (a.negative.count site) (b.negative.count site)

theorem merge_both_eq {α : Type} {merge : α → α → α} (h : Delivery.JoinLaws merge) (a : α) (remote : Caller → α)
    (last : Caller) :
    merge (merge a (remote .first)) (remote .second) = merge (merge a (remote last.other)) (remote last) := by
  cases last with
  | first => exact h.right_comm _ _ _
  | second => rfl

theorem sameCounts_merge_iff {a : PNCounter} {rf rl : PNCounter} :
    SameCounts (a.merge rl) ((a.merge rf).merge rl) ↔ CountsCovered rf a rl := by
  simp only [SameCounts, CountsCovered, PNCounter.merge, GCounter.count_merge]
  grind

theorem sameCounts_load_save {db db' : CrdtTables} {key : Bytes} {counter : PNCounter}
    (h : savePnCounter db key counter = some db') : SameCounts (loadPnCounter db' key) counter :=
  fun site => count_load_savePnCounter h site

theorem SameCounts.trans {a b c : PNCounter} (hab : SameCounts a b) (hbc : SameCounts b c) : SameCounts a c :=
  fun site => ⟨(hab site).1.trans (hbc site).1, (hab site).2.trans (hbc site).2⟩

theorem SameCounts.symm {a b : PNCounter} (h : SameCounts a b) : SameCounts b a :=
  fun site => ⟨(h site).1.symm, (h site).2.symm⟩

theorem SameCounts.merge {a b : PNCounter} (h : SameCounts a b) (r : PNCounter) :
    SameCounts (a.merge r) (b.merge r) := by
  intro site
  simp only [PNCounter.merge, GCounter.count_merge, h site, and_self]

def UsageHoldsBoth (db final : CrdtTables) (key : Bytes) (remote : Caller → PNCounter) : Prop :=
  SameCounts (loadPnCounter final key) (((loadPnCounter db key).merge (remote .first)).merge (remote .second))

def UsageNotLost (db : CrdtTables) (key : Bytes) (remote : Caller → PNCounter) (schedule : List Caller) : Prop :=
  ∃ last, EndsAlone schedule last 1 ∧ (EndsAlone schedule last 2 ∨
    CountsCovered (remote last.other) (loadPnCounter db key) (remote last))

theorem usageCounterCalls_iff {db final : CrdtTables} {key : Bytes} {remote : Caller → PNCounter}
    {schedule : List Caller} (h : usageCounterCalls db key remote schedule = some final) :
    UsageHoldsBoth db final key remote ↔ UsageNotLost db key remote schedule := by
  obtain ⟨last, early, late, middle, hreads, hends, hlate, hfirst, hlast⟩ := outcome_cases h
  simp only [UsageHoldsBoth, UsageNotLost, hends, exists_eq_left, hlate]
  rw [merge_both_eq PNCounter.joinLaws _ remote last]
  have hfinal := sameCounts_load_save hlast
  obtain ⟨rfl, rfl⟩ | ⟨rfl, rfl⟩ := List.append_eq_singleton_iff.mp hreads.symm
  · have hserial := hfinal.trans ((sameCounts_load_save hfirst).merge (remote last))
    exact iff_of_true hserial (.inl (by simp))
  · have hoverlap : ¬ 2 ≤ ([] : List (CrdtTables → PNCounter → PNCounter)).length + 1 := by simp
    rw [or_iff_right hoverlap, ← sameCounts_merge_iff]
    exact ⟨hfinal.symm.trans, hfinal.trans⟩

def storedText (r : LWWRegister Bytes) : LWWRegister Bytes :=
  if r.initialized then .set (cstr r.value) r.timestamp r.siteId else .new

theorem stamp_storedText (r : LWWRegister Bytes) : (storedText r).stamp = r.stamp := by
  unfold storedText
  cases hi : r.initialized with
  | false => rw [LWWRegister.eq_new hi]; rfl
  | true => simp [LWWRegister.stamp, hi, LWWRegister.set]

theorem storedText_storedText (r : LWWRegister Bytes) : storedText (storedText r) = storedText r := by
  unfold storedText
  cases hi : r.initialized with
  | false => rfl
  | true => simp [LWWRegister.set]

theorem storedText_merge (a b : LWWRegister Bytes) :
    storedText ((storedText a).merge b) = storedText (a.merge b) := by
  rw [LWWRegister.merge_eq]
  simp only [Delivery.keepLarger, stamp_storedText]
  split_ifs
  · rfl
  · exact storedText_storedText a

theorem merge_of_not_newer {a b : LWWRegister Bytes} (h : ¬ a.stamp < b.stamp) : a.merge b = a := by
  rw [LWWRegister.merge_eq]
  exact if_neg h

theorem stamp_merge (a b : LWWRegister Bytes) : (a.merge b).stamp = max a.stamp b.stamp := by
  rw [LWWRegister.merge_eq]
  exact Delivery.key_keepLarger _ a b

theorem stamp_merged_both {a rf rl r : LWWRegister Bytes} (h : r ∈ [(a.merge rf).merge rl, (a.merge rl).merge rf]) :
    r.stamp = max (max a.stamp rl.stamp) rf.stamp := by
  simp only [List.mem_cons, List.not_mem_nil, or_false] at h
  obtain rfl | rfl := h
  · rw [stamp_merge, stamp_merge, max_right_comm]
  · rw [stamp_merge, stamp_merge]

def SessionHoldsBoth (db final : CrdtTables) (key : Bytes) (remote : Caller → LWWRegister Bytes) : Prop :=
  loadLwwString final key ∈ [((loadLwwString db key).merge (remote .first)).merge (remote .second),
    ((loadLwwString db key).merge (remote .second)).merge (remote .first)]

def SessionNotLost (db : CrdtTables) (key : Bytes) (remote : Caller → LWWRegister Bytes)
    (schedule : List Caller) : Prop :=
  ∃ last, EndsAlone schedule last 1 ∧
    let firstThenLast := ((loadLwwString db key).merge (remote last.other)).merge (remote last)
    let lastThenFirst := ((loadLwwString db key).merge (remote last)).merge (remote last.other)
    if EndsAlone schedule last 2 then storedText firstThenLast ∈ [firstThenLast, lastThenFirst]
    else ¬ max (loadLwwString db key).stamp (remote last).stamp < (remote last.other).stamp ∧
      storedText lastThenFirst ∈ [firstThenLast, lastThenFirst]

theorem stickySessionCalls_iff {db final : CrdtTables} {key : Bytes} {remote : Caller → LWWRegister Bytes}
    {schedule : List Caller} (h : stickySessionCalls db key remote schedule = some final) :
    SessionHoldsBoth db final key remote ↔ SessionNotLost db key remote schedule := by
  obtain ⟨last, early, late, middle, hreads, hends, hlate, hfirst, hlast⟩ := outcome_cases h
  simp only [SessionHoldsBoth, SessionNotLost, hends, exists_eq_left, hlate]
  have horders : ∀ r, r ∈ [((loadLwwString db key).merge (remote .first)).merge (remote .second),
        ((loadLwwString db key).merge (remote .second)).merge (remote .first)] ↔
      r ∈ [((loadLwwString db key).merge (remote last.other)).merge (remote last),
        ((loadLwwString db key).merge (remote last)).merge (remote last.other)] := by
    intro r
    cases last <;> simp [Caller.other, or_comm]
  rw [horders]
  have hmiddle : loadLwwString middle key = storedText ((loadLwwString db key).merge (remote last.other)) :=
    load_saveLwwString hfirst
  have hfinal := load_saveLwwString hlast
  obtain ⟨rfl, rfl⟩ | ⟨rfl, rfl⟩ := List.append_eq_singleton_iff.mp hreads.symm
  · have hserial : loadLwwString final key =
        storedText (((loadLwwString db key).merge (remote last.other)).merge (remote last)) := by
      rw [← storedText_merge, ← hmiddle]
      exact hfinal
    rw [hserial, if_pos (by simp)]
  · have hoverlap : loadLwwString final key = storedText ((loadLwwString db key).merge (remote last)) := hfinal
    rw [hoverlap, if_neg (by simp)]
    by_cases hnewer : max (loadLwwString db key).stamp (remote last).stamp < (remote last.other).stamp
    · refine iff_of_false (fun hmem => ?_) (fun hcond => hcond.1 hnewer)
      have hstamp := stamp_merged_both hmem
      rw [stamp_storedText, stamp_merge, max_eq_right hnewer.le] at hstamp
      exact hnewer.ne hstamp
    · have hkept : ((loadLwwString db key).merge (remote last)).merge (remote last.other) =
          (loadLwwString db key).merge (remote last) := merge_of_not_newer (by rwa [stamp_merge])
      rw [hkept, and_iff_right hnewer]

def SameTags (a b : ORSet) : Prop := ∀ element, a.tags element = b.tags element

def NulFreeElements (s : ORSet) : Prop := ∀ element, ∀ tag ∈ s.tags element, NulFree element

def TagsCovered (remote a b : ORSet) : Prop :=
  ∀ element, ∀ tag ∈ remote.tags element, tag ∈ a.tags element ∨ tag ∈ b.tags element

theorem sameTags_iff {a b : ORSet} : SameTags a b ↔ ∀ element tag, tag ∈ a.tags element ↔ tag ∈ b.tags element :=
  ⟨fun h element tag => by rw [h element], fun h element => FlatSet.ext (h element)⟩

theorem mem_tags_merge {a b : ORSet} {element : Bytes} {tag : ORSetTag} :
    tag ∈ (a.merge b).tags element ↔ tag ∈ a.tags element ∨ tag ∈ b.tags element := by
  rw [ORSet.tags_merge, FlatSet.mem_sup]

theorem mem_tags_counters (db : CrdtTables) (key element : Bytes) (tag : ORSetTag) :
    tag ∉ (loadOrSetCounters db key).tags element := by
  simp [loadOrSetCounters_eq, ORSet.tags]

def StoredElements (x y : ORSet) : Prop :=
  ∀ element tag, tag ∈ x.tags element ↔ ∃ text, cstr text = element ∧ tag ∈ y.tags text

theorem storedElements_load_save {db db' : CrdtTables} (db₀ : CrdtTables) {key : Bytes} {set : ORSet}
    (h : saveOrSet db key set = some db') :
    StoredElements (loadOrSetTags db' key (loadOrSetCounters db₀ key)) set := by
  intro element tag
  rw [mem_tags_load_saveOrSet h, or_iff_right (mem_tags_counters db₀ key element tag)]

theorem NulFreeElements.merge_iff {a b : ORSet} :
    NulFreeElements (a.merge b) ↔ NulFreeElements a ∧ NulFreeElements b := by
  simp only [NulFreeElements, mem_tags_merge]
  exact ⟨fun h => ⟨fun e t ht => h e t (.inl ht), fun e t ht => h e t (.inr ht)⟩,
    fun ⟨ha, hb⟩ e t ht => ht.elim (ha e t) (hb e t)⟩

theorem sameTags_stored_iff {x y : ORSet} (h : StoredElements x y) : SameTags x y ↔ NulFreeElements y := by
  rw [sameTags_iff]
  constructor
  · intro hsame element tag htag
    obtain ⟨text, rfl, -⟩ := (h element tag).mp ((hsame element tag).mpr htag)
    exact nulFree_cstr text
  · intro hfree element tag
    rw [h]
    constructor
    · rintro ⟨text, rfl, htag⟩
      rwa [cstr_eq_self.mpr (hfree text tag htag)]
    · intro htag
      exact ⟨element, cstr_eq_self.mpr (hfree element tag htag), htag⟩

theorem StoredElements.merge {v x y z : ORSet} (hv : StoredElements v x) (hz : StoredElements z (v.merge y)) :
    StoredElements z (x.merge y) := by
  intro element tag
  simp only [hz element tag, mem_tags_merge, hv _ tag]
  constructor
  · rintro ⟨_, rfl, ⟨text, rfl, htag⟩ | htag⟩
    · exact ⟨text, by simp, .inl htag⟩
    · exact ⟨_, rfl, .inr htag⟩
  · rintro ⟨text, rfl, htag | htag⟩
    · exact ⟨cstr text, by simp, .inl ⟨text, rfl, htag⟩⟩
    · exact ⟨text, rfl, .inr htag⟩

theorem sameTags_unseen_iff {a rl final : ORSet} (rf : ORSet) (ha : NulFreeElements a)
    (h : StoredElements final (a.merge rl)) :
    SameTags final ((a.merge rf).merge rl) ↔
      (NulFreeElements rf ∧ NulFreeElements rl) ∧ TagsCovered rf a rl := by
  constructor
  · intro hsame
    have hfree : NulFreeElements ((a.merge rf).merge rl) := by
      intro element tag htag
      obtain ⟨text, rfl, -⟩ := (h element tag).mp ((sameTags_iff.mp hsame element tag).mpr htag)
      exact nulFree_cstr text
    rw [NulFreeElements.merge_iff, NulFreeElements.merge_iff] at hfree
    have hkept := (sameTags_stored_iff h).mpr (NulFreeElements.merge_iff.mpr ⟨ha, hfree.2⟩)
    refine ⟨⟨hfree.1.2, hfree.2⟩, fun element tag htag => ?_⟩
    have hboth : tag ∈ ((a.merge rf).merge rl).tags element := by
      simp only [mem_tags_merge]
      exact .inl (.inr htag)
    rwa [← hsame element, hkept element, mem_tags_merge] at hboth
  · rintro ⟨⟨-, hrl⟩, hcovered⟩
    have hkept := (sameTags_stored_iff h).mpr (NulFreeElements.merge_iff.mpr ⟨ha, hrl⟩)
    rw [sameTags_iff]
    intro element tag
    rw [hkept element, mem_tags_merge, mem_tags_merge, mem_tags_merge]
    have hcov := hcovered element tag
    tauto

theorem sup_unseen_iff {α : Type} [SemilatticeSup α] {a rf rl : α} : a ⊔ rl = a ⊔ rf ⊔ rl ↔ rf ≤ a ⊔ rl := by
  rw [sup_right_comm, eq_comm, sup_eq_left]

theorem sameTags_seen_iff {a rf rl held final : ORSet} (ha : NulFreeElements a)
    (hheld : StoredElements held (a.merge rf)) (h : StoredElements final (held.merge rl)) :
    SameTags final ((a.merge rf).merge rl) ↔ NulFreeElements rf ∧ NulFreeElements rl := by
  rw [sameTags_stored_iff (hheld.merge h), NulFreeElements.merge_iff, NulFreeElements.merge_iff, and_iff_right ha]

theorem counters_load_save {db db' : CrdtTables} (db₀ : CrdtTables) {key : Bytes} {set : ORSet}
    (h : saveOrSet db key set = some db') :
    (loadOrSetTags db₀ key (loadOrSetCounters db' key)).counters = set.counters := by
  rw [counters_loadOrSetTags, counters_load_saveOrSet h]

theorem counters_merge (a b : ORSet) : (a.merge b).counters = a.counters ⊔ b.counters := by
  rw [ORSet.merge_eq]

def AllowlistHoldsBoth (db final : CrdtTables) (key : Bytes) (remote : Caller → ORSet) : Prop :=
  SameTags (loadOrSet final key) (((loadOrSet db key).merge (remote .first)).merge (remote .second)) ∧
    (loadOrSet final key).counters = (((loadOrSet db key).merge (remote .first)).merge (remote .second)).counters

def AllowlistNotLost (db : CrdtTables) (key : Bytes) (remote : Caller → ORSet) (schedule : List Caller) : Prop :=
  ∃ last, EndsAlone schedule last 1 ∧ (NulFreeElements (remote last.other) ∧ NulFreeElements (remote last)) ∧
    (EndsAlone schedule last 2 ∨ TagsCovered (remote last.other) (loadOrSet db key) (remote last)) ∧
    (EndsAlone schedule last 3 ∨
      (remote last.other).counters ≤ (loadOrSet db key).counters ⊔ (remote last).counters)

theorem ipAllowlistCalls_iff {db final : CrdtTables} {key : Bytes} {remote : Caller → ORSet}
    {schedule : List Caller} (h : ipAllowlistCalls db key remote schedule = some final) :
    AllowlistHoldsBoth db final key remote ↔ AllowlistNotLost db key remote schedule := by
  obtain ⟨last, early, late, middle, hreads, hends, hlate, hfirst, hlast⟩ := outcome_cases h
  simp only [AllowlistHoldsBoth, AllowlistNotLost, hends, exists_eq_left, hlate]
  rw [merge_both_eq ORSet.joinLaws _ remote last]
  have hinit : NulFreeElements (loadOrSet db key) := fun _ _ => nulFree_of_mem_load
  have hmiddle : saveOrSet db key ((loadOrSet db key).merge (remote last.other)) = some middle := hfirst
  have htags : StoredElements (loadOrSet final key) _ := storedElements_load_save final hlast
  have hcounters : (loadOrSet final key).counters = _ := counters_load_save final hlast
  obtain _ | ⟨_, _ | ⟨_, _ | _⟩⟩ := early
  · obtain rfl : _ = late := hreads
    have hseen := sameTags_seen_iff hinit (storedElements_load_save middle hmiddle) htags
    have hheld : (loadOrSet middle key).counters = _ := counters_load_save middle hmiddle
    have hcount : (loadOrSet final key).counters =
        (((loadOrSet db key).merge (remote last.other)).merge (remote last)).counters := by
      rw [hcounters, counters_merge, counters_merge, ← hheld]
      rfl
    simp [hseen, hcount]
  · obtain ⟨rfl, rfl⟩ : _ = _ ∧ _ = late := by simpa using hreads
    have hseen := sameTags_seen_iff hinit (storedElements_load_save db hmiddle) htags
    have hheld : (loadOrSetTags middle key (loadOrSetCounters db key)).counters = (loadOrSet db key).counters := by
      rw [loadOrSet, counters_loadOrSetTags, counters_loadOrSetTags]
    have hcount : (loadOrSet final key).counters = (loadOrSet db key).counters ⊔ (remote last).counters := by
      rw [hcounters, counters_merge, ← hheld]
      rfl
    rw [hseen, hcount, counters_merge, counters_merge, sup_unseen_iff]
    simp
  · obtain ⟨rfl, rfl, rfl⟩ : _ = _ ∧ _ = _ ∧ late = _ := by simpa using hreads
    have hunseen := sameTags_unseen_iff (remote last.other) hinit htags
    have hcount : (loadOrSet final key).counters = (loadOrSet db key).counters ⊔ (remote last).counters := by
      rw [hcounters, counters_merge]
      rfl
    rw [hunseen, hcount, counters_merge, counters_merge, sup_unseen_iff]
    simp [and_assoc]
  · simp at hreads

theorem crdtSync_no_lost_update_iff (db final : CrdtTables) (key : Bytes) (schedule : List Caller) :
    (∀ remote : Caller → PNCounter, usageCounterCalls db key remote schedule = some final →
      (UsageHoldsBoth db final key remote ↔ UsageNotLost db key remote schedule)) ∧
    (∀ remote : Caller → LWWRegister Bytes, stickySessionCalls db key remote schedule = some final →
      (SessionHoldsBoth db final key remote ↔ SessionNotLost db key remote schedule)) ∧
    (∀ remote : Caller → ORSet, ipAllowlistCalls db key remote schedule = some final →
      (AllowlistHoldsBoth db final key remote ↔ AllowlistNotLost db key remote schedule)) :=
  ⟨fun _ => usageCounterCalls_iff, fun _ => stickySessionCalls_iff, fun _ => ipAllowlistCalls_iff⟩

def bothAdd : Caller → PNCounter
  | .first => PNCounter.empty.add 1 5
  | .second => PNCounter.empty.add 2 7

def bothAddFinal : CrdtTables :=
  ((savePnCounter .empty (ofString "usage") (bothAdd .first)).bind fun db =>
    savePnCounter db (ofString "usage") ((loadPnCounter db (ofString "usage")).merge (bothAdd .second))).getD .empty

theorem crdtSync_serial_usage :
    usageCounterCalls .empty (ofString "usage") bothAdd [.first, .first, .second, .second] = some bothAddFinal ∧
      UsageHoldsBoth .empty bothAddFinal (ofString "usage") bothAdd := by
  have hrun : usageCounterCalls .empty (ofString "usage") bothAdd [.first, .first, .second, .second] =
      some bothAddFinal := by decide
  refine ⟨hrun, ((crdtSync_no_lost_update_iff _ _ _ _).1 _ hrun).mpr ⟨.second, by decide, .inl (by decide)⟩⟩

theorem crdtSync_overlapping_usage_lost :
    ¬ ∀ final, usageCounterCalls .empty (ofString "usage") bothAdd [.first, .second, .first, .second] = some final →
      UsageHoldsBoth .empty final (ofString "usage") bothAdd := by
  intro h
  have hrun : usageCounterCalls .empty (ofString "usage") bothAdd [.first, .second, .first, .second] =
      savePnCounter .empty (ofString "usage") (bothAdd .second) := by decide
  have hcount := (h _ hrun 1).1
  exact absurd hcount (by decide)

end Tightrope.Sync.Crdt
