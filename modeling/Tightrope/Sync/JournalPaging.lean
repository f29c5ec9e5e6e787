import Tightrope.Library.Delivery
import Tightrope.Library.Paging
import Tightrope.Sync.CatchUp

namespace Tightrope.Sync

open MachineWords SyncEngine Delivery Paging

def journalEntries (t : JournalTable) : List JournalWireEntry := t.entries.map fun r => readWireEntry r.1 r.2

def frameAfter (t : JournalTable) (limit : ℕ) (afterSeq : UInt64) : JournalBatchFrame := buildBatch t afterSeq limit

def PagesThrough (t : JournalTable) (limit : ℕ) : Prop :=
  ReadsAll (frameAfter t limit) JournalBatchFrame.entries JournalBatchFrame.toSeq 0 (journalEntries t)

def remaining (t : JournalTable) (afterSeq : UInt64) : List JournalWireEntry :=
  (t.rowsAfter afterSeq).map fun r => readWireEntry r.1 r.2

variable {t : JournalTable} {limit : ℕ} {afterSeq : UInt64}

theorem remaining_zero (hpos : PositiveKeys t) : remaining t 0 = journalEntries t := by
  unfold remaining journalEntries
  congr 1
  apply List.filter_eq_self.mpr
  intro r hr
  simpa using hpos r.1 r.2 (FlatMap.mem_entries.mp hr)

theorem seq_journalEntries_lt (hpos : PositiveKeys t) :
    (journalEntries t).Pairwise fun a b => a.seq < b.seq := by
  apply List.pairwise_map.mpr
  apply t.sorted.imp_of_mem
  intro a b ha hb hlt
  have hrange : ∀ r ∈ t.entries, SignedRange r.1.toUInt64 := by
    intro r hr
    exact signedRange_toUInt64 (hpos r.1 r.2 (FlatMap.mem_entries.mp hr)).le
  apply (toInt64_lt_iff (iff_of_true (hrange a ha) (hrange b hb))).mp
  rwa [Int64.toInt64_toUInt64, Int64.toInt64_toUInt64]

theorem limitRows_prefix {α : Type} (limit : ℕ) (rows : List α) : ∃ rest, rows = limitRows limit rows ++ rest := by
  unfold limitRows
  split_ifs
  · exact ⟨[], (List.append_nil rows).symm⟩
  · exact ⟨_, (List.take_append_drop _ rows).symm⟩

theorem ofNat_eq_zero_iff (limit : ℕ) : Int32.ofNat limit = 0 ↔ limit % 2 ^ 32 = 0 := by
  rw [← Int32.toInt_inj, Int32.toInt_ofNat', Int32.toInt_zero, Int.bmod_def]
  have hsize : Int32.size = 2 ^ 32 := rfl
  rw [hsize]
  omega

theorem limitRows_eq_nil {α : Type} {limit : ℕ} {rows : List α} :
    limitRows limit rows = [] ↔ limit % 2 ^ 32 = 0 ∨ rows = [] := by
  rw [← ofNat_eq_zero_iff]
  unfold limitRows
  split_ifs with hneg
  · have hne : Int32.ofNat limit ≠ 0 := fun hzero => absurd (hzero ▸ hneg) (by decide)
    simp [hne]
  · rw [List.take_eq_nil_iff, Int.toNat_eq_zero, ← Int32.toInt_inj, Int32.toInt_zero]
    rw [Int32.lt_iff_toInt_lt, Int32.toInt_zero, not_lt] at hneg
    constructor
    · rintro (hle | hnil)
      · exact .inl (le_antisymm hle hneg)
      · exact .inr hnil
    · rintro (heq | hnil)
      · exact .inl heq.le
      · exact .inr hnil

theorem mem_rowsAfter {r : Int64 × JournalRow} :
    r ∈ t.rowsAfter afterSeq ↔ r ∈ t.entries ∧ afterSeq.toInt64 < r.1 := by
  simp [JournalTable.rowsAfter]

theorem toSeq_eq_foldl : (frameAfter t limit afterSeq).toSeq =
    ((frameAfter t limit afterSeq).entries.map JournalWireEntry.seq).foldl (· ⊔ ·) afterSeq := by
  rw [List.foldl_map]
  rfl

theorem rowsAfter_of_split {next : UInt64} {taken rest : List (Int64 × JournalRow)}
    (hrows : t.rowsAfter afterSeq = taken ++ rest) (hle : afterSeq.toInt64 ≤ next.toInt64)
    (htaken : ∀ r ∈ taken, r.1 ≤ next.toInt64) (hrest : ∀ r ∈ rest, next.toInt64 < r.1) :
    t.rowsAfter next = rest := by
  have hagain : t.rowsAfter next = (t.rowsAfter afterSeq).filter fun r => r.1 > next.toInt64 := by
    rw [JournalTable.rowsAfter, JournalTable.rowsAfter, List.filter_filter]
    apply List.filter_congr
    intro r _
    have hlt : next.toInt64 < r.1 → afterSeq.toInt64 < r.1 := hle.trans_lt
    simpa using hlt
  have hnone : taken.filter (fun r => r.1 > next.toInt64) = [] := by
    apply List.filter_eq_nil_iff.mpr
    intro r hr
    simpa using htaken r hr
  have hall : rest.filter (fun r => r.1 > next.toInt64) = rest := by
    apply List.filter_eq_self.mpr
    intro r hr
    simpa using hrest r hr
  rw [hagain, hrows, List.filter_append, hnone, hall, List.nil_append]

theorem remaining_step (limit : ℕ) (hrange : SignedRange afterSeq) (hpos : PositiveKeys t) :
    SignedRange (frameAfter t limit afterSeq).toSeq ∧ remaining t afterSeq =
      (frameAfter t limit afterSeq).entries ++ remaining t (frameAfter t limit afterSeq).toSeq := by
  obtain ⟨rest, hrows⟩ := limitRows_prefix limit (t.rowsAfter afterSeq)
  have hsorted : (limitRows limit (t.rowsAfter afterSeq) ++ rest).Pairwise fun a b => a.1 < b.1 := by
    rw [← hrows]
    exact t.sorted.filter _
  have hcross := (List.pairwise_append.mp hsorted).2.2
  have hkey : ∀ r ∈ t.rowsAfter afterSeq, SignedRange r.1.toUInt64 := by
    intro r hr
    exact signedRange_toUInt64 (hpos r.1 r.2 (FlatMap.mem_entries.mp (mem_rowsAfter.mp hr).1)).le
  have hseqs : (frameAfter t limit afterSeq).entries.map JournalWireEntry.seq =
      (limitRows limit (t.rowsAfter afterSeq)).map fun r => r.1.toUInt64 := by
    rw [frameAfter, buildBatch, List.map_map]
    rfl
  have hbound := (isLUB_foldl_sup afterSeq ((frameAfter t limit afterSeq).entries.map JournalWireEntry.seq)).1
  have hmem := foldl_sup_mem afterSeq ((frameAfter t limit afterSeq).entries.map JournalWireEntry.seq)
  rw [← toSeq_eq_foldl, hseqs] at hbound hmem
  have hsplit : remaining t afterSeq = (frameAfter t limit afterSeq).entries ++
      rest.map fun r => readWireEntry r.1 r.2 := by
    rw [remaining, frameAfter, buildBatch, ← List.map_append, ← hrows]
  generalize (frameAfter t limit afterSeq).toSeq = next at hbound hmem ⊢
  have htaken : ∀ r ∈ limitRows limit (t.rowsAfter afterSeq), r ∈ t.rowsAfter afterSeq := by
    intro r hr
    rw [hrows]
    exact List.mem_append_left rest hr
  have hnext : SignedRange next := by
    obtain rfl | hmem := hmem
    · exact hrange
    · obtain ⟨r, hr, rfl⟩ := List.mem_map.mp hmem
      exact hkey r (htaken r hr)
  refine ⟨hnext, ?_⟩
  rw [hsplit, remaining, rowsAfter_of_split hrows]
  · exact (toInt64_le_iff (iff_of_true hrange hnext)).mpr (hbound (Set.mem_insert _ _))
  · intro r hr
    have hmemSeq : r.1.toUInt64 ∈ (limitRows limit (t.rowsAfter afterSeq)).map fun r => r.1.toUInt64 :=
      List.mem_map_of_mem hr
    have hle := hbound (Set.mem_insert_of_mem afterSeq hmemSeq)
    rwa [← toInt64_le_iff (iff_of_true (hkey r (htaken r hr)) hnext), Int64.toInt64_toUInt64] at hle
  · intro r hr
    obtain rfl | hmem := hmem
    · have hafter : r ∈ t.rowsAfter next := by
        rw [hrows]
        exact List.mem_append_right _ hr
      exact (mem_rowsAfter.mp hafter).2
    · obtain ⟨last, hlast, rfl⟩ := List.mem_map.mp hmem
      rw [Int64.toInt64_toUInt64]
      exact hcross last hlast r hr

theorem isEmpty_frameAfter_iff : (frameAfter t limit afterSeq).entries.isEmpty ↔
    limit % 2 ^ 32 = 0 ∨ remaining t afterSeq = [] := by
  rw [List.isEmpty_iff, remaining, frameAfter, buildBatch, List.map_eq_nil_iff, List.map_eq_nil_iff, limitRows_eq_nil]

/-- Paging through a journal gives all of its rows in the order of their sequence numbers, unless the low 32 bits of
the limit are zero: then it gives none. -/
theorem journal_pages_complete_iff (hpos : PositiveKeys t) :
    (PagesThrough t limit ∧ (journalEntries t).Pairwise fun a b => a.seq < b.seq) ↔
      limit % 2 ^ 32 ≠ 0 ∨ t.entries = [] := by
  rw [and_iff_left (seq_journalEntries_lt hpos), PagesThrough, ← remaining_zero hpos]
  by_cases hcut : limit % 2 ^ 32 = 0
  · rw [readsAll_of_isEmpty (isEmpty_frameAfter_iff.mpr (.inl hcut)), remaining_zero hpos, journalEntries,
      List.map_eq_nil_iff]
    exact ⟨.inr, fun h => h.resolve_left fun hne => hne hcut⟩
  · have hprogress : ∀ c, SignedRange c → (frameAfter t limit c).entries.isEmpty → remaining t c = [] :=
      fun c _ hempty => (isEmpty_frameAfter_iff.mp hempty).resolve_left hcut
    have hstart : SignedRange 0 := by decide
    have hall : ReadsAll (frameAfter t limit) JournalBatchFrame.entries JournalBatchFrame.toSeq 0 (remaining t 0) := by
      apply readsAll _ hprogress hstart
      exact fun c hc => remaining_step limit hc hpos
    exact iff_of_true hall (.inl hcut)

theorem positiveKeys_sampleSource : PositiveKeys sampleSource := by
  have hkeys : ∀ r ∈ sampleSource.entries, 0 < r.1 := by decide
  exact fun key row hrow => hkeys (key, row) (FlatMap.mem_entries.mpr hrow)

theorem limit_two_pages_sampleSource :
    PositiveKeys sampleSource ∧
      PagesThrough sampleSource 2 ∧ (journalEntries sampleSource).Pairwise fun a b => a.seq < b.seq :=
  ⟨positiveKeys_sampleSource, (journal_pages_complete_iff positiveKeys_sampleSource).mpr (.inl (by decide))⟩

/-- The limit 2^32 is bound as 0: the first frame has no entries, and none of the three rows is ever read. -/
theorem limit_of_zero_low_bits_reads_nothing :
    PositiveKeys sampleSource ∧ 1 ≤ 2 ^ 32 ∧ 2 ^ 32 < 2 ^ 64 ∧ ¬ PagesThrough sampleSource (2 ^ 32) := by
  refine ⟨positiveKeys_sampleSource, by decide, by decide, ?_⟩
  rw [PagesThrough, readsAll_of_isEmpty (isEmpty_frameAfter_iff.mpr (.inl (by decide)))]
  decide

end Tightrope.Sync
