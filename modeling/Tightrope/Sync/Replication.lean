import Mathlib.Data.Set.Basic
import Tightrope.Sync.AutoCompaction
import Tightrope.Sync.RowVerification

namespace Tightrope.Sync

open Bytes MachineWords Runs SyncEngine PersistentJournal

def changes (t : JournalTable) : Set Change := {c | ∃ key row, t.find? key = some row ∧ rowChange row = c}

section Exchange

variable (lz4 : Lz4) (sha256 : Bytes → Bytes) (env : ApplyEnv) (appliedValue : Int32) (n : ℕ)

def afterApply (receiver sender : JournalTable) : JournalTable × ApplyBatchResult :=
  applyBatch sha256 env appliedValue receiver (buildBatch sender 0 n)

def receive (receiver sender : JournalTable) : Option JournalTable :=
  (decodeJournalBatch lz4 (encodeJournalBatch lz4 (buildBatch sender 0 n))).bind fun batch =>
    let applied := applyBatch sha256 env appliedValue receiver batch
    if applied.2.success then some applied.1 else none

def exchange (first second : JournalTable) : Option (JournalTable × JournalTable) :=
  (receive lz4 sha256 env appliedValue n first second).bind fun first' =>
    (receive lz4 sha256 env appliedValue n second first').map fun second' => (first', second')

def Converges (first second : JournalTable) : Prop :=
  ∃ first' second', exchange lz4 sha256 env appliedValue n first second = some (first', second') ∧
    changes first' = changes first ∪ changes second ∧ changes second' = changes first ∪ changes second

/-- Both batches are built before either is applied. -/
def ConvergesCrossing (first second : JournalTable) : Prop :=
  ∃ first' second', receive lz4 sha256 env appliedValue n first second = some first' ∧
    receive lz4 sha256 env appliedValue n second first = some second' ∧
    changes first' = changes first ∪ changes second ∧ changes second' = changes first ∪ changes second

end Exchange

def kUuidLength : ℕ := 36

def sentSize (t : JournalTable) : ℕ := (t.entries.map (fun r => (readWireEntry r.1 r.2).wireSize)).sum

/-- The limit covers the rows of both journals, and a batch of them all stays within the 32-bit sizes of
the wire format, whichever side generates the missing batch ids. -/
structure RoomFor (n : ℕ) (a b : JournalTable) : Prop where
  rows : Int32.ofNat n < 0 ∨ FlatMap.size a + FlatMap.size b ≤ (Int32.ofNat n).toInt.toNat
  bytes : 20 + sentSize a + sentSize b + kUuidLength * (FlatMap.size a + FlatMap.size b) < 2 ^ 32

structure Sendable (n : ℕ) (t : JournalTable) : Prop where
  covered : limitRows n t.entries = t.entries
  fits : (buildBatch t 0 n).FitsWire

def PositiveKeys (t : JournalTable) : Prop := ∀ key row, t.find? key = some row → 0 < key

def Presentable (sha256 : Bytes → Bytes) (row : JournalRow) : Prop :=
  isTableReplicated (cstr row.tableName) = true ∧ RowVerifies sha256 row

instance (sha256 : Bytes → Bytes) : DecidablePred (Presentable sha256) := fun row =>
  inferInstanceAs (Decidable (isTableReplicated (cstr row.tableName) = true ∧
    rowChecksum sha256 row = cstr row.checksum))

def AgreeOnShared (a b : JournalTable) : Prop :=
  ∀ key rowA rowB, a.find? key = some rowA → b.find? key = some rowB → cstr rowA.checksum = cstr rowB.checksum

def SameContent (r row : JournalRow) : Prop := rowChange r = rowChange row ∧ cstr r.checksum = cstr row.checksum

structure Merged (a b merged : JournalTable) : Prop where
  kept : ∀ key row, a.find? key = some row → merged.find? key = some row
  added : ∀ key row, a.find? key = none → b.find? key = some row → ∃ r, merged.find? key = some r ∧ SameContent r row
  only : ∀ key r, merged.find? key = some r →
    a.find? key = some r ∨ a.find? key = none ∧ ∃ row, b.find? key = some row ∧ SameContent r row

variable {lz4 : Lz4} {sha256 : Bytes → Bytes} {env : ApplyEnv} {appliedValue : Int32} {n : ℕ}

theorem presentable_iff_of_sameContent {r row : JournalRow} (h : SameContent r row) :
    Presentable sha256 r ↔ Presentable sha256 row := by
  obtain ⟨hchange, hsum⟩ := h
  simp only [rowChange, Change.mk.injEq] at hchange
  obtain ⟨-, htable, hpk, hop, hold, hnew⟩ := hchange
  simp only [Presentable, RowVerifies, rowChecksum, htable, hpk, hop, hold, hnew, hsum]

theorem sameContent_wireRow (appliedValue : Int32) (generatedId : Bytes) (key : Int64) (row : JournalRow) :
    SameContent (wireRow appliedValue generatedId (readWireEntry key row)) row := by
  simp [SameContent, rowChange, wireRow, readWireEntry]

theorem entries_buildBatch {t : JournalTable} (h : limitRows n t.entries = t.entries) (hpos : PositiveKeys t) :
    (buildBatch t 0 n).entries = t.entries.map (fun r => readWireEntry r.1 r.2) := by
  have hall : t.rowsAfter 0 = t.entries := by
    apply List.filter_eq_self.mpr
    intro r hr
    simpa using hpos r.1 r.2 (FlatMap.mem_entries.mp hr)
  simp only [buildBatch, hall, h]

theorem mem_entries_buildBatch {t : JournalTable} (h : Sendable n t) (hpos : PositiveKeys t) {e : JournalWireEntry} :
    e ∈ (buildBatch t 0 n).entries ↔ ∃ key row, t.find? key = some row ∧ readWireEntry key row = e := by
  rw [entries_buildBatch h.covered hpos, List.mem_map]
  constructor
  · rintro ⟨⟨key, row⟩, hmem, rfl⟩
    exact ⟨key, row, FlatMap.mem_entries.mp hmem, rfl⟩
  · rintro ⟨key, row, hrow, rfl⟩
    exact ⟨(key, row), FlatMap.mem_entries.mpr hrow, rfl⟩

@[simp] theorem seq_readWireEntry (key : Int64) (row : JournalRow) : (readWireEntry key row).seq.toInt64 = key :=
  Int64.toInt64_toUInt64 key

/-- SQLite reports no fault, and a generated batch id is a UUID in text form. -/
structure ApplyEnv.Quiet (env : ApplyEnv) : Prop where
  begins : env.beginError = none
  prepares : env.prepareError = none
  inserts : ∀ i, env.insertError i = none
  commits : env.commitError = none
  ids : ∀ i, (env.generateBatchId i).length = kUuidLength

theorem accepts_buildBatch_iff (sha256 : Bytes → Bytes) (henv : env.Quiet) (a : JournalTable)
    {b : JournalTable} (h : Sendable n b) (hpos : PositiveKeys b) :
    Accepts sha256 env a (buildBatch b 0 n) ↔
      (∀ key row, b.find? key = some row → Presentable sha256 row) ∧ AgreeOnShared a b := by
  constructor
  · rintro ⟨-, -, -, hbatch⟩
    constructor
    · intro key row hrow
      have he := (mem_entries_buildBatch h hpos).mpr ⟨key, row, hrow, rfl⟩
      exact ⟨hbatch.replicated _ he, hbatch.checksum _ he⟩
    · intro key rowA rowB hA hB
      have he := (mem_entries_buildBatch h hpos).mpr ⟨key, rowB, hB, rfl⟩
      exact hbatch.existing _ he rowA (by rwa [seq_readWireEntry])
  · rintro ⟨hrows, hshared⟩
    refine ⟨henv.begins, henv.prepares, henv.commits, ?_, ?_, fun i _ => henv.inserts _, ?_, ?_⟩
    · intro e he
      obtain ⟨key, row, hrow, rfl⟩ := (mem_entries_buildBatch h hpos).mp he
      exact (hrows key row hrow).1
    · intro e he
      obtain ⟨key, row, hrow, rfl⟩ := (mem_entries_buildBatch h hpos).mp he
      exact (hrows key row hrow).2
    · intro e he rowA hA
      obtain ⟨key, row, hrow, rfl⟩ := (mem_entries_buildBatch h hpos).mp he
      rw [seq_readWireEntry] at hA
      exact hshared key rowA row hA hrow
    · intro e he f hf hseq
      obtain ⟨key, row, hrow, rfl⟩ := (mem_entries_buildBatch h hpos).mp he
      obtain ⟨key', row', hrow', rfl⟩ := (mem_entries_buildBatch h hpos).mp hf
      obtain rfl : key = key' := by
        rw [← seq_readWireEntry key row, hseq, seq_readWireEntry]
      rw [hrow] at hrow'
      rw [Option.some.inj hrow']

theorem merged_afterApply (appliedValue : Int32) {a b : JournalTable} (h : Sendable n b) (hpos : PositiveKeys b)
    (haccepts : Accepts sha256 env a (buildBatch b 0 n)) :
    Merged a b (afterApply sha256 env appliedValue n a b).1 := by
  have hfind : ∀ key, (afterApply sha256 env appliedValue n a b).1.find? key = _ :=
    find?_applyBatch (applyBatch_success_iff.mpr haccepts)
  constructor
  · intro key row hrow
    rw [hfind, hrow, Option.some_or]
  · intro key row hnone hrow
    have he := (mem_entries_buildBatch h hpos).mpr ⟨key, row, hrow, rfl⟩
    obtain ⟨r, hr⟩ := insertedRow_isSome he
    rw [seq_readWireEntry] at hr
    obtain ⟨f, hf, hfkey, generatedId, rfl⟩ := insertedRow_eq_some hr
    obtain ⟨key', row', hrow', rfl⟩ := (mem_entries_buildBatch h hpos).mp hf
    rw [seq_readWireEntry] at hfkey
    subst hfkey
    rw [hrow] at hrow'
    obtain rfl := Option.some.inj hrow'
    exact ⟨_, by rw [hfind, hnone, Option.none_or, hr], sameContent_wireRow _ _ _ _⟩
  · intro key r hr
    rw [hfind] at hr
    obtain hold | ⟨hnone, hnew⟩ := Option.or_eq_some_iff.mp hr
    · exact .inl hold
    · obtain ⟨f, hf, hfkey, generatedId, rfl⟩ := insertedRow_eq_some hnew
      obtain ⟨key', row', hrow', rfl⟩ := (mem_entries_buildBatch h hpos).mp hf
      rw [seq_readWireEntry] at hfkey
      subst hfkey
      exact .inr ⟨hnone, row', hrow', sameContent_wireRow _ _ _ _⟩

section Room

def total (weight : JournalRow → ℕ) (t : JournalTable) : ℕ := (t.entries.map (fun r => weight r.2)).sum

theorem total_acceptEntry_le {weight : JournalRow → ℕ} {cost : JournalWireEntry → ℕ}
    (hcost : ∀ i e, weight (wireRow appliedValue (env.generateBatchId i) e) ≤ cost e) (index : ℕ) (s : ApplyProgress)
    (e : JournalWireEntry) :
    total weight (acceptEntry env appliedValue index s e).table ≤ total weight s.table + cost e := by
  unfold acceptEntry
  cases hrow : s.table.find? e.seq.toInt64 with
  | none =>
    have hperm := FlatMap.perm_insert (wireRow appliedValue (env.generateBatchId index) e) hrow
    have hsum := (hperm.map (fun r => weight r.2)).sum_eq
    have hle := hcost index e
    simp only [total, hsum, List.map_cons, List.sum_cons]
    omega
  | some row => exact Nat.le_add_right _ _

theorem total_applyEntries_le {weight : JournalRow → ℕ} {cost : JournalWireEntry → ℕ}
    (hcost : ∀ i e, weight (wireRow appliedValue (env.generateBatchId i) e) ≤ cost e) (sha256 : Bytes → Bytes)
    (index : ℕ) (s : ApplyProgress) (entries : List JournalWireEntry) :
    total weight (applyEntries sha256 env appliedValue index s entries).1.table ≤
      total weight s.table + (entries.map cost).sum := by
  induction entries generalizing index s with
  | nil => exact Nat.le_add_right _ _
  | cons e es ih =>
    by_cases h : EntryAccepted sha256 env s.table index e
    · have hrest := ih (index + 1) (acceptEntry env appliedValue index s e)
      have hentry := total_acceptEntry_le hcost index s e
      rw [applyEntries_cons_of_accepted appliedValue es h, List.map_cons, List.sum_cons]
      omega
    · obtain ⟨error, hrefused⟩ := applyEntries_cons_of_refused appliedValue es h
      rw [hrefused]
      exact Nat.le_add_right _ _

theorem total_applyBatch_le (sha256 : Bytes → Bytes) (env : ApplyEnv) (appliedValue : Int32) (weight : JournalRow → ℕ)
    (cost : JournalWireEntry → ℕ)
    (hcost : ∀ i e, weight (wireRow appliedValue (env.generateBatchId i) e) ≤ cost e) (t : JournalTable)
    (batch : JournalBatchFrame) :
    total weight (applyBatch sha256 env appliedValue t batch).1 ≤ total weight t + (batch.entries.map cost).sum := by
  obtain ⟨error, -, heq⟩ | ⟨error, -, -, -, heq⟩ | ⟨-, -, -, -, heq⟩ :=
    applyBatch_cases sha256 env appliedValue t batch
  · rw [heq]
    exact Nat.le_add_right _ _
  · rw [heq]
    exact Nat.le_add_right _ _
  · rw [heq]
    exact total_applyEntries_le hcost sha256 0 ⟨t, 0, 0⟩ batch.entries

theorem wireSize_wireRow_le (henv : env.Quiet) (appliedValue : Int32) (key : Int64) (i : ℕ) (e : JournalWireEntry) :
    (readWireEntry key (wireRow appliedValue (env.generateBatchId i) e)).wireSize ≤ e.wireSize + kUuidLength := by
  have hid := henv.ids i
  have htable := length_cstr_le e.tableName
  have hpk := length_cstr_le e.rowPk
  have hop := length_cstr_le e.op
  have hold := length_cstr_le e.oldValues
  have hnew := length_cstr_le e.newValues
  have hsum := length_cstr_le e.checksum
  have hbatch : (cstr (if e.batchId = [] then env.generateBatchId i else e.batchId)).length ≤
      e.batchId.length + kUuidLength := by
    have hle := length_cstr_le (if e.batchId = [] then env.generateBatchId i else e.batchId)
    split_ifs at hle ⊢ <;> omega
  simp only [readWireEntry, wireRow, cstr_cstr, JournalWireEntry.wireSize]
  omega

theorem sendable_of_size {t : JournalTable} (hpos : PositiveKeys t)
    (hrows : Int32.ofNat n < 0 ∨ FlatMap.size t ≤ (Int32.ofNat n).toInt.toNat) (hbytes : 20 + sentSize t < 2 ^ 32) :
    Sendable n t := by
  have hcovered : limitRows n t.entries = t.entries := by
    unfold limitRows
    split_ifs with hneg
    · rfl
    · exact List.take_of_length_le (hrows.resolve_left hneg)
  refine ⟨hcovered, fitsWire_of_wireSize ?_⟩
  rw [entries_buildBatch hcovered hpos, List.map_map]
  exact hbytes

theorem RoomFor.symm {a b : JournalTable} (h : RoomFor n a b) : RoomFor n b a where
  rows := by
    rw [Nat.add_comm]
    exact h.rows
  bytes := by
    have hbytes := h.bytes
    rw [Nat.add_comm (FlatMap.size b)]
    omega

theorem RoomFor.sendable {a b : JournalTable} (h : RoomFor n a b) (hpos : PositiveKeys b) : Sendable n b := by
  have hbytes := h.bytes
  apply sendable_of_size hpos
  · exact h.rows.imp id (by omega)
  · omega

theorem RoomFor.sendable_afterApply (sha256 : Bytes → Bytes) (appliedValue : Int32) (henv : env.Quiet)
    {a b : JournalTable} (h : RoomFor n a b) (hb : PositiveKeys b)
    (hpos : PositiveKeys (afterApply sha256 env appliedValue n a b).1) :
    Sendable n (afterApply sha256 env appliedValue n a b).1 := by
  have hbytes := h.bytes
  have hentries := entries_buildBatch (h.sendable hb).covered hb
  have hsize : FlatMap.size (afterApply sha256 env appliedValue n a b).1 ≤ FlatMap.size a + FlatMap.size b := by
    have hle := total_applyBatch_le sha256 env appliedValue (fun _ => 1) (fun _ => 1) (fun _ _ => le_refl 1) a
      (buildBatch b 0 n)
    simp only [total, List.map_const', List.sum_replicate_nat, Nat.mul_one, hentries, List.length_map] at hle
    exact hle
  have hsent : sentSize (afterApply sha256 env appliedValue n a b).1 ≤
      sentSize a + (sentSize b + kUuidLength * FlatMap.size b) := by
    have hle := total_applyBatch_le sha256 env appliedValue (fun row => (readWireEntry 0 row).wireSize)
      (fun e => e.wireSize + kUuidLength) (wireSize_wireRow_le henv appliedValue 0) a (buildBatch b 0 n)
    rw [List.sum_map_add, List.map_const', List.sum_replicate_nat, hentries, List.map_map, List.length_map,
      Nat.mul_comm] at hle
    exact hle
  apply sendable_of_size hpos
  · exact h.rows.imp id hsize.trans
  · rw [Nat.mul_add] at hbytes
    omega

end Room

theorem receive_eq_some_iff (hlz4 : lz4.RoundTrips) {a b merged : JournalTable} (h : Sendable n b) :
    receive lz4 sha256 env appliedValue n a b = some merged ↔
      Accepts sha256 env a (buildBatch b 0 n) ∧ (afterApply sha256 env appliedValue n a b).1 = merged := by
  have hsuccess := @applyBatch_success_iff sha256 env appliedValue a (buildBatch b 0 n)
  rw [receive, decode_encodeJournalBatch hlz4 h.fits, Option.bind_some, ← hsuccess, afterApply]
  by_cases hs : (applyBatch sha256 env appliedValue a (buildBatch b 0 n)).2.success = true
  · simp [hs]
  · simp [hs]

namespace Merged

variable {a b merged : JournalTable} (h : Merged a b merged)

include h

theorem positiveKeys (ha : PositiveKeys a) (hb : PositiveKeys b) : PositiveKeys merged := by
  intro key r hr
  obtain hold | ⟨-, row, hrow, -⟩ := h.only key r hr
  · exact ha key r hold
  · exact hb key row hrow

theorem presentable_iff (hb : ∀ key row, b.find? key = some row → Presentable sha256 row) :
    (∀ key row, merged.find? key = some row → Presentable sha256 row) ↔
      ∀ key row, a.find? key = some row → Presentable sha256 row := by
  constructor
  · intro hall key row hrow
    exact hall key row (h.kept key row hrow)
  · intro ha key r hr
    obtain hold | ⟨-, row, hrow, hsame⟩ := h.only key r hr
    · exact ha key r hold
    · exact (presentable_iff_of_sameContent hsame).mpr (hb key row hrow)

theorem agreeOnShared (hab : AgreeOnShared a b) : AgreeOnShared b merged := by
  intro key rowB r hB hr
  obtain hold | ⟨-, row, hrow, hsame⟩ := h.only key r hr
  · exact (hab key r rowB hold hB).symm
  · rw [hB] at hrow
    rw [Option.some.inj hrow]
    exact hsame.2.symm

theorem changes_subset : changes merged ⊆ changes a ∪ changes b := by
  rintro c ⟨key, r, hr, rfl⟩
  obtain hold | ⟨-, row, hrow, hsame⟩ := h.only key r hr
  · exact .inl ⟨key, r, hold, rfl⟩
  · exact .inr ⟨key, row, hrow, hsame.1.symm⟩

theorem changes_left : changes a ⊆ changes merged := by
  rintro c ⟨key, row, hrow, rfl⟩
  exact ⟨key, row, h.kept key row hrow, rfl⟩

theorem mem_changes_of_free {key : Int64} {row : JournalRow} (ha : a.find? key = none) (hb : b.find? key = some row) :
    rowChange row ∈ changes merged := by
  obtain ⟨r, hr, hsame⟩ := h.added key row ha hb
  exact ⟨key, r, hr, hsame.1⟩

theorem return_merge {returned : JournalTable} (hreturn : Merged b merged returned) : Merged b a returned where
  kept := hreturn.kept
  added key row hfree hrow := hreturn.added key row hfree (h.kept key row hrow)
  only key r hr := by
    obtain hold | ⟨hfree, row', hrow', hsame'⟩ := hreturn.only key r hr
    · exact .inl hold
    · obtain hold | ⟨-, row, hrow, -⟩ := h.only key row' hrow'
      · exact .inr ⟨hfree, row', hold, hsame'⟩
      · rw [hfree] at hrow
        cases hrow

end Merged

structure SiteJournal (site : UInt32) (t : JournalTable) : Prop where
  positive : PositiveKeys t
  site : ∀ key row, t.find? key = some row → row.siteId = site

def KeptElsewhere (own other : JournalTable) (row : JournalRow) : Prop :=
  ∃ key copy, own.find? key = some copy ∧ other.find? key = none ∧ rowChange copy = rowChange row

/-- The rows can be presented to a peer, and a seq taken on both sides stands for changes that
check out as equal and that each side also keeps under a seq the other has free. -/
structure Replicable (sha256 : Bytes → Bytes) (a b : JournalTable) : Prop where
  left : ∀ key row, a.find? key = some row → Presentable sha256 row
  right : ∀ key row, b.find? key = some row → Presentable sha256 row
  shared : ∀ key rowA rowB, a.find? key = some rowA → b.find? key = some rowB →
    cstr rowA.checksum = cstr rowB.checksum ∧ KeptElsewhere a b rowA ∧ KeptElsewhere b a rowB

theorem Replicable.symm {a b : JournalTable} (h : Replicable sha256 a b) : Replicable sha256 b a where
  left := h.right
  right := h.left
  shared key rowB rowA hB hA :=
    ⟨(h.shared key rowA rowB hA hB).1.symm, (h.shared key rowA rowB hA hB).2.2, (h.shared key rowA rowB hA hB).2.1⟩

theorem SiteJournal.rowChange_ne {siteA siteB : UInt32} (hsites : siteA ≠ siteB) {a b : JournalTable}
    (ha : SiteJournal siteA a) (hb : SiteJournal siteB b) {keyA keyB : Int64} {rowA rowB : JournalRow}
    (hA : a.find? keyA = some rowA) (hB : b.find? keyB = some rowB) : rowChange rowA ≠ rowChange rowB := by
  intro heq
  have hsite := congrArg (fun c => c.hlc.siteId) heq
  simp only [rowChange, ha.site keyA rowA hA, hb.site keyB rowB hB] at hsite
  exact hsites hsite

section Converge

variable {siteA siteB : UInt32} {a b : JournalTable}

theorem changes_merged_eq_iff (hsites : siteA ≠ siteB) (ha : SiteJournal siteA a) (hb : SiteJournal siteB b)
    {merged : JournalTable} (h : Merged a b merged) :
    changes merged = changes a ∪ changes b ↔
      ∀ key rowA rowB, a.find? key = some rowA → b.find? key = some rowB → KeptElsewhere b a rowB := by
  constructor
  · intro heq key rowA rowB hA hB
    have hmem : rowChange rowB ∈ changes merged := by
      rw [heq]
      exact .inr ⟨key, rowB, hB, rfl⟩
    obtain ⟨key', r, hr, hchange⟩ := hmem
    obtain hold | ⟨hfree, copy, hcopy, hsame⟩ := h.only key' r hr
    · exact absurd hchange (ha.rowChange_ne hsites hb hold hB)
    · exact ⟨key', copy, hcopy, hfree, hsame.1.symm.trans hchange⟩
  · intro hshared
    apply Set.Subset.antisymm h.changes_subset
    apply Set.union_subset h.changes_left
    rintro c ⟨key, rowB, hB, rfl⟩
    cases hA : a.find? key with
    | none => exact h.mem_changes_of_free hA hB
    | some rowA =>
      obtain ⟨key', copy, hcopy, hfree, hchange⟩ := hshared key rowA rowB hA hB
      rw [← hchange]
      exact h.mem_changes_of_free hfree hcopy

theorem converges_iff (hlz4 : lz4.RoundTrips) (henv : env.Quiet) (hsites : siteA ≠ siteB)
    (ha : SiteJournal siteA a) (hb : SiteJournal siteB b) (hroom : RoomFor n a b) :
    Converges lz4 sha256 env appliedValue n a b ↔ Replicable sha256 a b := by
  have hsend := hroom.sendable hb.positive
  have hfirst := accepts_buildBatch_iff sha256 henv a hsend hb.positive
  constructor
  · rintro ⟨a', b', hexchange, hchangesA, hchangesB⟩
    obtain ⟨m, hm, hexchange⟩ := Option.bind_eq_some_iff.mp hexchange
    obtain ⟨haccepts, rfl⟩ := (receive_eq_some_iff hlz4 hsend).mp hm
    obtain ⟨m', hm', hpair⟩ := Option.map_eq_some_iff.mp hexchange
    obtain ⟨rfl, rfl⟩ := Prod.mk.inj hpair
    have hmerged := merged_afterApply appliedValue hsend hb.positive haccepts
    have hpos := hmerged.positiveKeys ha.positive hb.positive
    have hreturn := hroom.sendable_afterApply sha256 appliedValue henv hb.positive hpos
    obtain ⟨haccepts', rfl⟩ := (receive_eq_some_iff hlz4 hreturn).mp hm'
    have hback := hmerged.return_merge (merged_afterApply appliedValue hreturn hpos haccepts')
    obtain ⟨hgoodB, hagree⟩ := hfirst.mp haccepts
    obtain ⟨hgood, -⟩ := (accepts_buildBatch_iff sha256 henv b hreturn hpos).mp haccepts'
    refine ⟨(hmerged.presentable_iff hgoodB).mp hgood, hgoodB, fun key rowA rowB hA hB => ?_⟩
    refine ⟨hagree key rowA rowB hA hB, ?_, ?_⟩
    · rw [Set.union_comm] at hchangesB
      exact (changes_merged_eq_iff hsites.symm hb ha hback).mp hchangesB key rowB rowA hB hA
    · exact (changes_merged_eq_iff hsites ha hb hmerged).mp hchangesA key rowA rowB hA hB
  · intro h
    have hagree : AgreeOnShared a b := fun key rowA rowB hA hB => (h.shared key rowA rowB hA hB).1
    have haccepts := hfirst.mpr ⟨h.right, hagree⟩
    have hmerged := merged_afterApply appliedValue hsend hb.positive haccepts
    have hpos := hmerged.positiveKeys ha.positive hb.positive
    have hreturn := hroom.sendable_afterApply sha256 appliedValue henv hb.positive hpos
    have haccepts' := (accepts_buildBatch_iff sha256 henv b hreturn hpos).mpr
      ⟨(hmerged.presentable_iff h.right).mpr h.left, hmerged.agreeOnShared hagree⟩
    have hback := hmerged.return_merge (merged_afterApply appliedValue hreturn hpos haccepts')
    refine ⟨(afterApply sha256 env appliedValue n a b).1,
      (afterApply sha256 env appliedValue n b (afterApply sha256 env appliedValue n a b).1).1, ?_, ?_, ?_⟩
    · rw [exchange, (receive_eq_some_iff hlz4 hsend).mpr ⟨haccepts, rfl⟩, Option.bind_some,
        (receive_eq_some_iff hlz4 hreturn).mpr ⟨haccepts', rfl⟩, Option.map_some]
    · exact (changes_merged_eq_iff hsites ha hb hmerged).mpr fun key rowA rowB hA hB =>
        (h.shared key rowA rowB hA hB).2.2
    · rw [Set.union_comm]
      exact (changes_merged_eq_iff hsites.symm hb ha hback).mpr fun key rowB rowA hB hA =>
        (h.shared key rowA rowB hA hB).2.1

theorem Replicable.convergesCrossing (hlz4 : lz4.RoundTrips) (henv : env.Quiet) (hsites : siteA ≠ siteB)
    (ha : SiteJournal siteA a) (hb : SiteJournal siteB b) (hroom : RoomFor n a b) (h : Replicable sha256 a b) :
    ConvergesCrossing lz4 sha256 env appliedValue n a b := by
  have hsendA := hroom.symm.sendable ha.positive
  have hsendB := hroom.sendable hb.positive
  have hacceptsA := (accepts_buildBatch_iff sha256 henv a hsendB hb.positive).mpr
    ⟨h.right, fun key rowA rowB hA hB => (h.shared key rowA rowB hA hB).1⟩
  have hacceptsB := (accepts_buildBatch_iff sha256 henv b hsendA ha.positive).mpr
    ⟨h.left, fun key rowB rowA hB hA => (h.symm.shared key rowB rowA hB hA).1⟩
  refine ⟨(afterApply sha256 env appliedValue n a b).1, (afterApply sha256 env appliedValue n b a).1, ?_, ?_, ?_, ?_⟩
  · exact (receive_eq_some_iff hlz4 hsendB).mpr ⟨hacceptsA, rfl⟩
  · exact (receive_eq_some_iff hlz4 hsendA).mpr ⟨hacceptsB, rfl⟩
  · have hmerged := merged_afterApply appliedValue hsendB hb.positive hacceptsA
    exact (changes_merged_eq_iff hsites ha hb hmerged).mpr fun key rowA rowB hA hB =>
      (h.shared key rowA rowB hA hB).2.2
  · have hmerged := merged_afterApply appliedValue hsendA ha.positive hacceptsB
    rw [Set.union_comm]
    exact (changes_merged_eq_iff hsites.symm hb ha hmerged).mpr fun key rowB rowA hB hA =>
      (h.symm.shared key rowB rowA hB hA).2.2

end Converge

section Fill

variable (sha256 : Bytes → Bytes)

def appendStep (t : JournalTable) (a : PendingJournalEntry × AppendEnv) : JournalTable := (append t sha256 a.1 a.2).1

def fill (appends : List (PendingJournalEntry × AppendEnv)) : JournalTable := run (appendStep sha256) .empty appends

def UnderSite (site : UInt32) (appends : List (PendingJournalEntry × AppendEnv)) : Prop :=
  ∀ a ∈ appends, a.1.hlc.siteId = site ∧ isTableReplicated a.1.tableName = true

instance (site : UInt32) : DecidablePred (UnderSite site) := fun appends =>
  inferInstanceAs (Decidable (∀ a ∈ appends, a.1.hlc.siteId = site ∧ isTableReplicated a.1.tableName = true))

theorem siteJournal_fill {site : UInt32} {appends : List (PendingJournalEntry × AppendEnv)}
    (h : UnderSite site appends) : SiteJournal site (fill sha256 appends) := by
  have hstep : ∀ (t : JournalTable) (a : PendingJournalEntry × AppendEnv), SiteJournal site t →
      a.1.hlc.siteId = site → SiteJournal site (appendStep sha256 t a) := by
    intro t a ht hsite
    constructor
    · intro key row hrow
      obtain hold | ⟨hid, -⟩ := find?_append hrow
      · exact ht.positive key row hold
      · exact JournalTable.nextRowid_pos (fun k r hr => (ht.positive k r hr).le) hid
    · intro key row hrow
      obtain hold | ⟨-, rfl⟩ := find?_append hrow
      · exact ht.site key row hold
      · exact hsite
  have hempty : SiteJournal site .empty := ⟨nofun, nofun⟩
  have hsteps : AllSteps (appendStep sha256) (fun _ a => a.1.hlc.siteId = site) .empty appends :=
    allSteps_of_forall _ fun a ha => (h a ha).1
  exact (allStates_of_step _ hstep hempty hsteps).final

end Fill

theorem bidirectional_replication_converges_iff (hlz4 : lz4.RoundTrips) (henv : env.Quiet) {siteA siteB : UInt32}
    (hsites : siteA ≠ siteB) {appendsA appendsB : List (PendingJournalEntry × AppendEnv)}
    (hA : UnderSite siteA appendsA) (hB : UnderSite siteB appendsB)
    (hroom : RoomFor n (fill sha256 appendsA) (fill sha256 appendsB)) :
    (Converges lz4 sha256 env appliedValue n (fill sha256 appendsA) (fill sha256 appendsB) ∧
        Converges lz4 sha256 env appliedValue n (fill sha256 appendsB) (fill sha256 appendsA) ∧
        ConvergesCrossing lz4 sha256 env appliedValue n (fill sha256 appendsA) (fill sha256 appendsB)) ↔
      Replicable sha256 (fill sha256 appendsA) (fill sha256 appendsB) := by
  have ha := siteJournal_fill sha256 hA
  have hb := siteJournal_fill sha256 hB
  rw [converges_iff hlz4 henv hsites ha hb hroom, converges_iff hlz4 henv hsites.symm hb ha hroom.symm]
  exact ⟨fun h => h.1, fun h => ⟨h, h.symm, h.convergesCrossing hlz4 henv hsites ha hb hroom⟩⟩

def lz4On (known : List (Bytes × Bytes)) : Lz4 where
  compress payload := known.lookup payload
  decompress compressed size := ((known.find? (fun k => k.2 = compressed)).map Prod.fst).filter (·.length = size)

theorem lz4On_roundTrips {known : List (Bytes × Bytes)} (hdistinct : (known.map Prod.snd).Nodup) :
    (lz4On known).RoundTrips := by
  intro payload compressed _ hcompress
  have hmem := mem_of_lookup hcompress
  have hfound : (known.find? (fun k => k.2 = compressed)).isSome := by
    rw [List.find?_isSome]
    exact ⟨_, hmem, by simp⟩
  obtain ⟨k, hk⟩ := Option.isSome_iff_exists.mp hfound
  have hsnd : k.2 = compressed := by simpa using List.find?_some hk
  have hpair := List.inj_on_of_nodup_map hdistinct (List.mem_of_find?_eq_some hk) hmem hsnd
  simp [lz4On, hk, hpair]

def southInsertDigest : Bytes :=
  [111, 185, 216, 54, 165, 94, 11, 122, 127, 198, 255, 83, 60, 248, 163, 231, 128, 1, 51, 149, 230, 7, 225, 233,
    88, 171, 128, 251, 109, 247, 26, 4]

def twoSitesSha256 : Bytes → Bytes :=
  sha256On [(journalPayload (ofString "accounts") (ofString "1") (ofString "INSERT") [] (ofString "\x7b\x7d"),
      accountInsertDigest),
    (journalPayload (ofString "accounts") (ofString "2") (ofString "INSERT") [] (ofString "\x7b\x7d"),
      southInsertDigest)]

def southInsert (wall : UInt64) (applied : Int32) : PendingJournalEntry :=
  ⟨⟨wall, 0, 9⟩, ofString "accounts", ofString "2", ofString "INSERT", [], ofString "\x7b\x7d", applied, ofString "s1"⟩

def uuidEnv : ApplyEnv where
  generateBatchId _ := ofString "7d444840-9dc0-11d1-b245-5ffdce74fad2"

def north : JournalTable := fill twoSitesSha256 [(accountInsert 100 "b1", ⟨[], none, {}⟩)]

def south : JournalTable := fill twoSitesSha256 [(southInsert 250 1, ⟨[], none, {}⟩)]

def compactedSouth : JournalTable :=
  fill twoSitesSha256 [(southInsert 250 2, eagerCompaction), (southInsert 1000 1, eagerCompaction)]

def northLz4 : Bytes :=
  [19, 0, 1, 0, 23, 1, 8, 0, 4, 12, 0, 19, 100, 20, 0, 0, 2, 0, 240, 1, 7, 0, 0, 0, 8, 0, 0, 0, 97, 99, 99, 111,
    117, 110, 116, 115, 36, 0, 176, 49, 6, 0, 0, 0, 73, 78, 83, 69, 82, 84, 35, 0, 240, 69, 2, 0, 0, 0, 123,
    125, 64, 0, 0, 0, 55, 56, 49, 100, 57, 102, 54, 48, 48, 55, 54, 49, 97, 54, 97, 51, 55, 99, 50, 99, 54, 101,
    99, 99, 99, 97, 99, 102, 49, 100, 98, 55, 98, 101, 97, 49, 55, 52, 54, 51, 53, 54, 51, 49, 49, 98, 48, 48,
    51, 97, 51, 99, 57, 56, 102, 51, 48, 101, 57, 54, 50, 57, 52, 53, 1, 0, 0, 0, 2, 0, 0, 0, 98, 49]

def southLz4 : Bytes :=
  [19, 0, 1, 0, 23, 1, 8, 0, 4, 12, 0, 19, 250, 20, 0, 0, 2, 0, 240, 1, 9, 0, 0, 0, 8, 0, 0, 0, 97, 99, 99, 111,
    117, 110, 116, 115, 36, 0, 176, 50, 6, 0, 0, 0, 73, 78, 83, 69, 82, 84, 35, 0, 240, 69, 2, 0, 0, 0, 123,
    125, 64, 0, 0, 0, 54, 102, 98, 57, 100, 56, 51, 54, 97, 53, 53, 101, 48, 98, 55, 97, 55, 102, 99, 54, 102,
    102, 53, 51, 51, 99, 102, 56, 97, 51, 101, 55, 56, 48, 48, 49, 51, 51, 57, 53, 101, 54, 48, 55, 101, 49,
    101, 57, 53, 56, 97, 98, 56, 48, 102, 98, 54, 100, 102, 55, 49, 97, 48, 52, 1, 0, 0, 0, 2, 0, 0, 0, 115, 49]

def compactedSouthLz4 : Bytes :=
  [19, 0, 1, 0, 19, 2, 8, 0, 23, 1, 12, 0, 35, 232, 3, 21, 0, 240, 4, 0, 0, 0, 9, 0, 0, 0, 8, 0, 0, 0, 97, 99,
    99, 111, 117, 110, 116, 115, 40, 0, 176, 50, 6, 0, 0, 0, 73, 78, 83, 69, 82, 84, 36, 0, 0, 67, 0, 240, 65,
    123, 125, 64, 0, 0, 0, 54, 102, 98, 57, 100, 56, 51, 54, 97, 53, 53, 101, 48, 98, 55, 97, 55, 102, 99, 54,
    102, 102, 53, 51, 51, 99, 102, 56, 97, 51, 101, 55, 56, 48, 48, 49, 51, 51, 57, 53, 101, 54, 48, 55, 101,
    49, 101, 57, 53, 56, 97, 98, 56, 48, 102, 98, 54, 100, 102, 55, 49, 97, 48, 52, 1, 0, 0, 0, 2, 0, 0, 0, 115,
    49]

def northMergedLz4 : Bytes :=
  [19, 0, 1, 0, 23, 2, 8, 0, 19, 1, 12, 0, 19, 100, 8, 0, 0, 2, 0, 240, 1, 7, 0, 0, 0, 8, 0, 0, 0, 97, 99, 99,
    111, 117, 110, 116, 115, 36, 0, 176, 49, 6, 0, 0, 0, 73, 78, 83, 69, 82, 84, 35, 0, 0, 67, 0, 240, 55, 123,
    125, 64, 0, 0, 0, 55, 56, 49, 100, 57, 102, 54, 48, 48, 55, 54, 49, 97, 54, 97, 51, 55, 99, 50, 99, 54, 101,
    99, 99, 99, 97, 99, 102, 49, 100, 98, 55, 98, 101, 97, 49, 55, 52, 54, 51, 53, 54, 51, 49, 49, 98, 48, 48,
    51, 97, 51, 99, 57, 56, 102, 51, 48, 101, 57, 54, 50, 57, 52, 53, 93, 0, 0, 78, 0, 32, 98, 49, 6, 0, 0, 2,
    0, 32, 232, 3, 6, 0, 2, 2, 0, 31, 9, 139, 0, 0, 31, 50, 139, 0, 5, 240, 59, 54, 102, 98, 57, 100, 56, 51,
    54, 97, 53, 53, 101, 48, 98, 55, 97, 55, 102, 99, 54, 102, 102, 53, 51, 51, 99, 102, 56, 97, 51, 101, 55,
    56, 48, 48, 49, 51, 51, 57, 53, 101, 54, 48, 55, 101, 49, 101, 57, 53, 56, 97, 98, 56, 48, 102, 98, 54, 100,
    102, 55, 49, 97, 48, 52, 2, 0, 0, 0, 2, 0, 0, 0, 115, 49]

def southMergedLz4 : Bytes :=
  [19, 0, 1, 0, 23, 2, 8, 0, 19, 1, 12, 0, 19, 100, 8, 0, 0, 2, 0, 240, 1, 7, 0, 0, 0, 8, 0, 0, 0, 97, 99, 99,
    111, 117, 110, 116, 115, 36, 0, 176, 49, 6, 0, 0, 0, 73, 78, 83, 69, 82, 84, 35, 0, 0, 67, 0, 240, 55, 123,
    125, 64, 0, 0, 0, 55, 56, 49, 100, 57, 102, 54, 48, 48, 55, 54, 49, 97, 54, 97, 51, 55, 99, 50, 99, 54, 101,
    99, 99, 99, 97, 99, 102, 49, 100, 98, 55, 98, 101, 97, 49, 55, 52, 54, 51, 53, 54, 51, 49, 49, 98, 48, 48,
    51, 97, 51, 99, 57, 56, 102, 51, 48, 101, 57, 54, 50, 57, 52, 53, 74, 0, 0, 4, 0, 32, 98, 49, 6, 0, 0, 2, 0,
    32, 232, 3, 6, 0, 2, 2, 0, 31, 9, 139, 0, 0, 31, 50, 139, 0, 5, 240, 59, 54, 102, 98, 57, 100, 56, 51, 54,
    97, 53, 53, 101, 48, 98, 55, 97, 55, 102, 99, 54, 102, 102, 53, 51, 51, 99, 102, 56, 97, 51, 101, 55, 56,
    48, 48, 49, 51, 51, 57, 53, 101, 54, 48, 55, 101, 49, 101, 57, 53, 56, 97, 98, 56, 48, 102, 98, 54, 100,
    102, 55, 49, 97, 48, 52, 1, 0, 0, 0, 2, 0, 0, 0, 115, 49]

def twoSitesLz4 : Lz4 :=
  lz4On [(batchPayload (buildBatch north 0 1000), northLz4),
    (batchPayload (buildBatch south 0 1000), southLz4),
    (batchPayload (buildBatch compactedSouth 0 1000), compactedSouthLz4),
    (batchPayload (buildBatch (afterApply twoSitesSha256 uuidEnv 2 1000 north compactedSouth).1 0 1000),
      northMergedLz4),
    (batchPayload (buildBatch (afterApply twoSitesSha256 uuidEnv 2 1000 compactedSouth north).1 0 1000),
      southMergedLz4)]

theorem twoSitesLz4_roundTrips : twoSitesLz4.RoundTrips := lz4On_roundTrips (by decide)

theorem uuidEnv_quiet : uuidEnv.Quiet := ⟨rfl, rfl, fun _ => rfl, rfl, fun _ => rfl⟩

theorem bidirectional_replication_converges_sample :
    Converges twoSitesLz4 twoSitesSha256 uuidEnv 2 1000 north compactedSouth ∧
      Converges twoSitesLz4 twoSitesSha256 uuidEnv 2 1000 compactedSouth north ∧
      ConvergesCrossing twoSitesLz4 twoSitesSha256 uuidEnv 2 1000 north compactedSouth := by
  have hnorth : ∀ r ∈ north.entries, r.1 = 1 ∧ Presentable twoSitesSha256 r.2 := by decide
  have hsouth : ∀ r ∈ compactedSouth.entries, r.1 = 2 ∧ Presentable twoSitesSha256 r.2 := by decide
  have hroom : RoomFor 1000 north compactedSouth := ⟨by decide, by decide⟩
  have hsites : (7 : UInt32) ≠ 9 := by decide
  apply (bidirectional_replication_converges_iff twoSitesLz4_roundTrips uuidEnv_quiet hsites (by decide) (by decide)
    hroom).mpr
  refine ⟨fun key row h => ?_, fun key row h => ?_, fun key rowA rowB hA hB => ?_⟩
  · exact (hnorth _ (FlatMap.mem_entries.mpr h)).2
  · exact (hsouth _ (FlatMap.mem_entries.mpr h)).2
  · have hone := (hnorth _ (FlatMap.mem_entries.mpr hA)).1
    have htwo := (hsouth _ (FlatMap.mem_entries.mpr hB)).1
    exact absurd (hone.symm.trans htwo) (by decide)

theorem independent_journals_collide :
    ¬ (Converges twoSitesLz4 twoSitesSha256 uuidEnv 2 1000 north south ∧
      Converges twoSitesLz4 twoSitesSha256 uuidEnv 2 1000 south north ∧
      ConvergesCrossing twoSitesLz4 twoSitesSha256 uuidEnv 2 1000 north south) := by
  rintro ⟨h, -, -⟩
  have ha : SiteJournal 7 north := siteJournal_fill _ (by decide)
  have hb : SiteJournal 9 south := siteJournal_fill _ (by decide)
  have hroom : RoomFor 1000 north south := ⟨by decide, by decide⟩
  have hreplicable := (converges_iff twoSitesLz4_roundTrips uuidEnv_quiet (by decide) ha hb hroom).mp h
  have hshared := hreplicable.shared 1 _ _ rfl rfl
  exact absurd hshared.1 (by decide)

end Tightrope.Sync
