import Tightrope.Library.Runs
import Tightrope.Sync.Hlc
import Tightrope.Sync.SyncEngine

namespace Tightrope.Sync

open Bytes MachineWords SyncEngine Runs PersistentJournal

structure Change where
  hlc : Hlc
  tableName : Bytes
  rowPk : Bytes
  op : Bytes
  oldValues : Bytes
  newValues : Bytes
  deriving DecidableEq

def rowChange (row : JournalRow) : Change :=
  ⟨⟨row.hlcWall.toUInt64, row.hlcCounter, row.siteId⟩, cstr row.tableName, cstr row.rowPk, cstr row.op,
    cstr row.oldValues, cstr row.newValues⟩

namespace JournalWireEntry

def change (e : JournalWireEntry) : Change :=
  ⟨⟨e.hlcWall, e.hlcCounter, e.siteId⟩, e.tableName, e.rowPk, e.op, e.oldValues, e.newValues⟩

structure NulFree (e : JournalWireEntry) : Prop where
  tableName : Bytes.NulFree e.tableName
  rowPk : Bytes.NulFree e.rowPk
  op : Bytes.NulFree e.op
  oldValues : Bytes.NulFree e.oldValues
  newValues : Bytes.NulFree e.newValues

instance (e : JournalWireEntry) : Decidable e.NulFree :=
  decidable_of_iff (Bytes.NulFree e.tableName ∧ Bytes.NulFree e.rowPk ∧ Bytes.NulFree e.op ∧
      Bytes.NulFree e.oldValues ∧ Bytes.NulFree e.newValues)
    ⟨fun ⟨h₁, h₂, h₃, h₄, h₅⟩ => ⟨h₁, h₂, h₃, h₄, h₅⟩, fun ⟨h₁, h₂, h₃, h₄, h₅⟩ => ⟨h₁, h₂, h₃, h₄, h₅⟩⟩

end JournalWireEntry

theorem rowChange_wireRow_eq_iff (appliedValue : Int32) (generatedId : Bytes) (e : JournalWireEntry) :
    rowChange (wireRow appliedValue generatedId e) = e.change ↔ e.NulFree := by
  simp only [rowChange, wireRow, JournalWireEntry.change, UInt64.toUInt64_toInt64, cstr_cstr, Change.mk.injEq,
    true_and, cstr_eq_self]
  exact ⟨fun ⟨h₁, h₂, h₃, h₄, h₅⟩ => ⟨h₁, h₂, h₃, h₄, h₅⟩, fun ⟨h₁, h₂, h₃, h₄, h₅⟩ => ⟨h₁, h₂, h₃, h₄, h₅⟩⟩

theorem nulFree_of_rowChange {row : JournalRow} {e : JournalWireEntry} (h : rowChange row = e.change) : e.NulFree := by
  simp only [rowChange, JournalWireEntry.change, Change.mk.injEq] at h
  obtain ⟨-, h₁, h₂, h₃, h₄, h₅⟩ := h
  exact ⟨h₁ ▸ nulFree_cstr _, h₂ ▸ nulFree_cstr _, h₃ ▸ nulFree_cstr _, h₄ ▸ nulFree_cstr _, h₅ ▸ nulFree_cstr _⟩

def CarriesEach (t : JournalTable) (entries : List JournalWireEntry) : Prop :=
  ∀ e ∈ entries, (t.find? e.seq.toInt64).map rowChange = some e.change

instance (t : JournalTable) (entries : List JournalWireEntry) : Decidable (CarriesEach t entries) :=
  inferInstanceAs (Decidable (∀ e ∈ entries, _))

/-- A stored seq already carries the entry; a new one is NUL-free and given to one change only. -/
def NothingToSwallow (t : JournalTable) (entries : List JournalWireEntry) : Prop :=
  ∀ e ∈ entries, match t.find? e.seq.toInt64 with
    | some row => rowChange row = e.change
    | none => e.NulFree ∧ ∀ f ∈ entries, f.seq = e.seq → f.change = e.change

theorem carriesEach_iff {env : ApplyEnv} {appliedValue : Int32} {t t' : JournalTable} {entries : List JournalWireEntry}
    (h : ∀ key, t'.find? key = (t.find? key).or (insertedRow env appliedValue 0 entries key)) :
    CarriesEach t' entries ↔ NothingToSwallow t entries := by
  constructor
  · intro hcarries e he
    cases hold : t.find? e.seq.toInt64 with
    | some row =>
      have hrow := hcarries e he
      rw [h, hold] at hrow
      exact Option.some.inj hrow
    | none =>
      obtain ⟨row, hrow⟩ := insertedRow_isSome he
      have hstored : t'.find? e.seq.toInt64 = some row := by rw [h, hold, Option.none_or, hrow]
      have hsame : ∀ f ∈ entries, f.seq = e.seq → rowChange row = f.change := by
        intro f hf hseq
        have hfrow := hcarries f hf
        rw [hseq, hstored] at hfrow
        exact Option.some.inj hfrow
      exact ⟨nulFree_of_rowChange (hsame e he rfl), fun f hf hseq => (hsame f hf hseq).symm.trans (hsame e he rfl)⟩
  · intro hnothing e he
    have hentry := hnothing e he
    cases hold : t.find? e.seq.toInt64 with
    | some row =>
      rw [hold] at hentry
      rw [h, hold, Option.some_or, Option.map_some, hentry]
    | none =>
      rw [hold] at hentry
      obtain ⟨row, hrow⟩ := insertedRow_isSome he
      obtain ⟨f, hf, hkey, generatedId, rfl⟩ := insertedRow_eq_some hrow
      have hfirst := hnothing f hf
      rw [hkey, hold] at hfirst
      rw [h, hold, Option.none_or, hrow, Option.map_some, ← hentry.2 f hf (toInt64_inj.mp hkey),
        (rowChange_wireRow_eq_iff appliedValue generatedId f).mpr hfirst.1]

theorem applyBatch_swallows_nothing_iff (sha256 : Bytes → Bytes) (env : ApplyEnv) (appliedValue : Int32)
    (t : JournalTable) (batch : JournalBatchFrame) :
    ((applyBatch sha256 env appliedValue t batch).2.success = true →
        CarriesEach (applyBatch sha256 env appliedValue t batch).1 batch.entries) ↔
      (Accepts sha256 env t batch → NothingToSwallow t batch.entries) := by
  rw [applyBatch_success_iff]
  refine forall_congr' fun haccepts => ?_
  exact carriesEach_iff (find?_applyBatch (applyBatch_success_iff.mpr haccepts))

def accountEntry (seq hlcWall : UInt64) (siteId : UInt32) : JournalWireEntry :=
  ⟨seq, hlcWall, 0, siteId, ofString "accounts", ofString "1", ofString "INSERT", [], ofString "\x7b\x7d",
    hexEncode accountInsertDigest, 1, ofString "b1"⟩

theorem second_site_change_is_swallowed :
    let batch : JournalBatchFrame := ⟨0, 1, [accountEntry 1 100 7, accountEntry 1 250 9]⟩
    let applied := applyBatch sampleSha256 ⟨none, none, fun _ => none, none, fun _ => []⟩ 2 .empty batch
    ¬ (applied.2.success = true → CarriesEach applied.1 batch.entries) := by
  decide

inductive JournalWrite where
  | append (entry : PendingJournalEntry) (env : AppendEnv)
  | applyBatch (batch : JournalBatchFrame) (appliedValue : Int32) (env : ApplyEnv)

section Verification

variable (sha256 : Bytes → Bytes)

def writeStep (t : JournalTable) : JournalWrite → JournalTable
  | .append entry env => (append t sha256 entry env).1
  | .applyBatch batch appliedValue env => (applyBatch sha256 env appliedValue t batch).1

def RowVerifies (row : JournalRow) : Prop := rowChecksum sha256 row = cstr row.checksum

def AllVerify (t : JournalTable) : Prop := ∀ key row, t.find? key = some row → RowVerifies sha256 row

def ListsLaterRows (t : JournalTable) : Prop :=
  ∀ (afterSeq : UInt64) (limit : ℕ), 0 < limit →
    (∃ key row, t.find? key = some row ∧ afterSeq < key.toUInt64) →
    entriesAfter t sha256 afterSeq limit true ≠ []

end Verification

/-- No text with a NUL byte, and no seq beyond the signed range, enters the journal. -/
def PlainWrite (t : JournalTable) : JournalWrite → Prop
  | .append entry _ => Bytes.NulFree entry.tableName ∧ Bytes.NulFree entry.rowPk ∧ Bytes.NulFree entry.op ∧
      Bytes.NulFree entry.oldValues ∧ Bytes.NulFree entry.newValues
  | .applyBatch batch _ _ => ∀ e ∈ batch.entries, t.find? e.seq.toInt64 = none → e.NulFree ∧ SignedRange e.seq

instance (t : JournalTable) : DecidablePred (PlainWrite t)
  | .append _ _ => inferInstanceAs (Decidable (_ ∧ _ ∧ _ ∧ _ ∧ _))
  | .applyBatch batch _ _ => inferInstanceAs (Decidable (∀ e ∈ batch.entries, _ → _ ∧ _))

structure SoundTable (sha256 : Bytes → Bytes) (t : JournalTable) : Prop where
  verifies : AllVerify sha256 t
  nonneg : ∀ key row, t.find? key = some row → 0 ≤ key

variable {sha256 : Bytes → Bytes}

theorem SoundTable.extend {t t' : JournalTable} (h : SoundTable sha256 t)
    (hnew : ∀ key row, t'.find? key = some row → t.find? key = some row ∨ RowVerifies sha256 row ∧ 0 ≤ key) :
    SoundTable sha256 t' := by
  constructor
  · intro key row hrow
    obtain hold | ⟨hverifies, -⟩ := hnew key row hrow
    · exact h.verifies key row hold
    · exact hverifies
  · intro key row hrow
    obtain hold | ⟨-, hnonneg⟩ := hnew key row hrow
    · exact h.nonneg key row hold
    · exact hnonneg

theorem rowVerifies_created (sha256 : Bytes → Bytes) (generateBatchId : Bytes) (seq : UInt64)
    {entry : PendingJournalEntry} {t : JournalTable} {env : AppendEnv} (h : PlainWrite t (.append entry env)) :
    RowVerifies sha256 (bindRow (Journal.created sha256 generateBatchId seq entry)) := by
  obtain ⟨htable, hpk, hop, hold, hnew⟩ := h
  simp only [RowVerifies, rowChecksum, bindRow, Journal.created, cstr_cstr, cstr_eq_self.mpr htable,
    cstr_eq_self.mpr hpk, cstr_eq_self.mpr hop, cstr_eq_self.mpr hold, cstr_eq_self.mpr hnew]
  exact (cstr_eq_self.mpr (nulFree_journalChecksum _ _ _ _ _ _)).symm

theorem rowVerifies_wireRow {appliedValue : Int32} {generatedId : Bytes} {e : JournalWireEntry} (h : e.NulFree)
    (hsum : journalChecksum sha256 e.tableName e.rowPk e.op e.oldValues e.newValues = e.checksum) :
    RowVerifies sha256 (wireRow appliedValue generatedId e) := by
  simp only [RowVerifies, rowChecksum, wireRow, cstr_cstr, cstr_eq_self.mpr h.tableName, cstr_eq_self.mpr h.rowPk,
    cstr_eq_self.mpr h.op, cstr_eq_self.mpr h.oldValues, cstr_eq_self.mpr h.newValues, hsum]
  rw [← hsum]
  exact (cstr_eq_self.mpr (nulFree_journalChecksum _ _ _ _ _ _)).symm

theorem soundTable_step {t : JournalTable} {op : JournalWrite} (h : SoundTable sha256 t) (hop : PlainWrite t op) :
    SoundTable sha256 (writeStep sha256 t op) := by
  cases op with
  | append entry env =>
    refine h.extend fun key row hrow => ?_
    obtain hold | ⟨hid, rfl⟩ := find?_append hrow
    · exact .inl hold
    · exact .inr ⟨rowVerifies_created sha256 _ _ hop, (JournalTable.nextRowid_pos h.nonneg hid).le⟩
  | applyBatch batch appliedValue env =>
    rw [writeStep]
    cases hs : (applyBatch sha256 env appliedValue t batch).2.success with
    | false => rwa [applyBatch_of_failed hs]
    | true =>
      obtain ⟨-, -, -, haccepted⟩ := applyBatch_success_iff.mp hs
      refine h.extend fun key row hrow => ?_
      rw [find?_applyBatch hs] at hrow
      obtain hold | ⟨hnone, hnew⟩ := Option.or_eq_some_iff.mp hrow
      · exact .inl hold
      · obtain ⟨e, he, rfl, generatedId, rfl⟩ := insertedRow_eq_some hnew
        obtain ⟨hfree, hrange⟩ := hop e he hnone
        refine .inr ⟨rowVerifies_wireRow hfree (haccepted.checksum e he), ?_⟩
        exact not_lt.mp fun hneg => toInt64_neg_iff.mp hneg hrange

theorem SoundTable.listsLaterRows {t : JournalTable} (h : SoundTable sha256 t) : ListsLaterRows sha256 t := by
  rintro afterSeq limit hlimit ⟨key, row, hrow, hlater⟩
  have hrange := signedRange_toUInt64 (h.nonneg key row hrow)
  have hafter : SignedRange afterSeq := (UInt64.lt_iff_toNat_lt.mp hlater).trans hrange
  have hkey : afterSeq.toInt64 < key := by
    rw [← Int64.toInt64_toUInt64 key]
    exact (toInt64_lt_iff (iff_of_true hafter hrange)).mpr hlater
  have hmem : (key, row) ∈ t.rowsAfter afterSeq :=
    List.mem_filter.mpr ⟨FlatMap.mem_entries.mpr hrow, by simpa using hkey⟩
  have hall : (((t.rowsAfter afterSeq).take (min limit kIntMax)).map (fun r => readEntry r.1 r.2)).all
      (PersistentJournal.verifies sha256) = true := by
    rw [List.all_eq_true]
    intro e he
    obtain ⟨r, hr, rfl⟩ := List.mem_map.mp he
    have hin := (List.mem_filter.mp (List.mem_of_mem_take hr)).1
    have hverifies := h.verifies r.1 r.2 (FlatMap.mem_entries.mp hin)
    exact decide_eq_true hverifies
  simp only [entriesAfter, hall, not_true_eq_false, and_false, ↓reduceIte]
  have hmin : min limit kIntMax ≠ 0 := by
    rw [kIntMax]
    omega
  simp only [ne_eq, List.map_eq_nil_iff, List.take_eq_nil_iff, hmin, false_or]
  exact List.ne_nil_of_mem hmem

theorem allVerify_recomputeChecksums (sha256 : Bytes → Bytes) (t : JournalTable) :
    AllVerify sha256 (recomputeChecksums sha256 t) := by
  intro key row hrow
  rw [recomputeChecksums, FlatMap.find?_map] at hrow
  obtain ⟨old, -, rfl⟩ := Option.map_eq_some_iff.mp hrow
  change rowChecksum sha256 old = cstr (cstr (rowChecksum sha256 old))
  rw [cstr_cstr]
  exact (cstr_eq_self.mpr (nulFree_journalChecksum _ _ _ _ _ _)).symm

theorem soundTable_empty : SoundTable sha256 .empty := ⟨nofun, nofun⟩

theorem journal_rows_verify (sha256 : Bytes → Bytes) (ops : List JournalWrite)
    (h : AllSteps (writeStep sha256) PlainWrite .empty ops) :
    AllStates (writeStep sha256) (fun t => AllVerify sha256 t ∧ ListsLaterRows sha256 t) .empty ops := by
  have hsound : AllStates (writeStep sha256) (SoundTable sha256) .empty ops :=
    allStates_of_step _ (fun t op hs hop => soundTable_step hs hop) soundTable_empty h
  exact hsound.mono _ fun t ht => ⟨ht.verifies, ht.listsLaterRows⟩

theorem journal_rows_verify_sample :
    let ops := [JournalWrite.append (accountInsert 100 "b1") ⟨[], none, {}⟩,
      .applyBatch ⟨0, 2, [accountEntry 1 100 7, accountEntry 2 250 9]⟩ 2 ⟨none, none, fun _ => none, none, fun _ => []⟩]
    AllStates (writeStep sampleSha256) (fun t => AllVerify sampleSha256 t ∧ ListsLaterRows sampleSha256 t) .empty
      ops := by
  intro ops
  apply journal_rows_verify sampleSha256 ops
  decide

def tornDigest : Bytes :=
  [244, 168, 195, 132, 181, 59, 34, 2, 82, 7, 85, 17, 249, 162, 117, 111, 237, 116, 101, 41, 130,
    234, 78, 237, 225, 128, 240, 151, 237, 58, 116, 109]

def tornSha256 : Bytes → Bytes :=
  sha256On [(journalPayload (ofString "accounts") [49, 0, 50] (ofString "INSERT") [] (ofString "\x7b\x7d"),
      tornDigest),
    (journalPayload (ofString "accounts") (ofString "1") (ofString "INSERT") [] (ofString "\x7b\x7d"),
      accountInsertDigest)]

theorem nul_byte_poisons_row :
    Function.Injective tornSha256 ∧
      ¬ AllStates (writeStep tornSha256) (fun t => AllVerify tornSha256 t ∧ ListsLaterRows tornSha256 t) .empty
        [.append { accountInsert 100 "b1" with rowPk := [49, 0, 50] } ⟨[], none, {}⟩] := by
  refine ⟨sha256On_injective (by decide) (by decide), fun h => ?_⟩
  have hlists := h.2.2 0 1000 (by decide)
    ⟨1, bindRow (Journal.created tornSha256 [] 1 { accountInsert 100 "b1" with rowPk := [49, 0, 50] }), by decide,
      by decide⟩
  exact hlists (by decide)

end Tightrope.Sync
