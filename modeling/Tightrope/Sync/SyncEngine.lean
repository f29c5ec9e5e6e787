import Tightrope.Sync.ConflictResolver
import Tightrope.Sync.PersistentJournal
import Tightrope.Sync.SyncProtocol

namespace Tightrope.Sync

open Bytes MachineWords

structure ApplyBatchResult where
  success : Bool
  appliedUpToSeq : UInt64
  appliedCount : ℕ
  error : Bytes
  deriving DecidableEq

-- What SQLite and the id generator do during one `apply_batch`: a failing BEGIN (or a null
-- handle), a failing prepare, a failing insert of the i-th entry, a failing COMMIT.
structure ApplyEnv where
  beginError : Option Bytes := none
  prepareError : Option Bytes := none
  insertError : ℕ → Option Bytes := fun _ => none
  commitError : Option Bytes := none
  generateBatchId : ℕ → Bytes

namespace SyncEngine

def readWireEntry (seq : Int64) (row : JournalRow) : JournalWireEntry where
  seq := seq.toUInt64
  hlcWall := row.hlcWall.toUInt64
  hlcCounter := row.hlcCounter
  siteId := row.siteId
  tableName := cstr row.tableName
  rowPk := cstr row.rowPk
  op := cstr row.op
  oldValues := cstr row.oldValues
  newValues := cstr row.newValues
  checksum := cstr row.checksum
  applied := row.applied
  batchId := cstr row.batchId

def limitRows {α : Type} (limit : ℕ) (rows : List α) : List α :=
  if Int32.ofNat limit < 0 then rows else rows.take (Int32.ofNat limit).toInt.toNat

def buildBatch (t : JournalTable) (afterSeq : UInt64) (limit : ℕ) : JournalBatchFrame :=
  let entries := (limitRows limit (t.rowsAfter afterSeq)).map (fun r => readWireEntry r.1 r.2)
  ⟨afterSeq, entries.foldl (fun m e => max m e.seq) afterSeq, entries⟩

def wireRow (appliedValue : Int32) (generatedId : Bytes) (e : JournalWireEntry) : JournalRow where
  hlcWall := e.hlcWall.toInt64
  hlcCounter := e.hlcCounter
  siteId := e.siteId
  tableName := cstr e.tableName
  rowPk := cstr e.rowPk
  op := cstr e.op
  oldValues := cstr e.oldValues
  newValues := cstr e.newValues
  checksum := cstr e.checksum
  applied := appliedValue
  batchId := cstr (if e.batchId = [] then generatedId else e.batchId)

section Recompute

variable (sha256 : Bytes → Bytes)

def rowChecksum (row : JournalRow) : Bytes :=
  journalChecksum sha256 (cstr row.tableName) (cstr row.rowPk) (cstr row.op) (cstr row.oldValues) (cstr row.newValues)

def recomputeChecksums (t : JournalTable) : JournalTable :=
  t.map (fun _ row => { row with checksum := cstr (rowChecksum sha256 row) })

end Recompute

structure ApplyProgress where
  table : JournalTable
  appliedCount : ℕ
  appliedUpToSeq : UInt64

section Apply

variable (sha256 : Bytes → Bytes) (env : ApplyEnv) (appliedValue : Int32)

def applyEntry (index : ℕ) (s : ApplyProgress) (e : JournalWireEntry) : Except Bytes ApplyProgress :=
  if ¬ isTableReplicated e.tableName then .error (ofString "table is not replicated: " ++ e.tableName)
  else if journalChecksum sha256 e.tableName e.rowPk e.op e.oldValues e.newValues ≠ e.checksum then
    .error (ofString "checksum mismatch for seq " ++ decimal e.seq.toNat)
  else match env.insertError index with
    | some error => .error error
    | none =>
      match s.table.find? e.seq.toInt64 with
      | none => .ok ⟨s.table.insert e.seq.toInt64 (wireRow appliedValue (env.generateBatchId index) e),
          s.appliedCount + 1, max s.appliedUpToSeq e.seq⟩
      | some existing =>
        if cstr existing.checksum ≠ e.checksum then
          .error (ofString "existing checksum mismatch for seq " ++ decimal e.seq.toNat)
        else .ok { s with appliedUpToSeq := max s.appliedUpToSeq e.seq }

def applyEntries (index : ℕ) (s : ApplyProgress) : List JournalWireEntry → ApplyProgress × Option Bytes
  | [] => (s, none)
  | e :: es =>
    match applyEntry sha256 env appliedValue index s e with
    | .error error => (s, some error)
    | .ok s' => applyEntries (index + 1) s' es

def applyBatch (t : JournalTable) (batch : JournalBatchFrame) : JournalTable × ApplyBatchResult :=
  match env.beginError with
  | some error => (t, ⟨false, 0, 0, error⟩)
  | none =>
    match env.prepareError with
    | some error => (t, ⟨false, 0, 0, error⟩)
    | none =>
      match applyEntries sha256 env appliedValue 0 ⟨t, 0, 0⟩ batch.entries with
      | (s, some error) => (t, ⟨false, s.appliedUpToSeq, s.appliedCount, error⟩)
      | (s, none) =>
        match env.commitError with
        | some error => (t, ⟨false, s.appliedUpToSeq, s.appliedCount, error⟩)
        | none => (s.table, ⟨true, s.appliedUpToSeq, s.appliedCount, []⟩)

end Apply

section Spec

variable (sha256 : Bytes → Bytes) (env : ApplyEnv)

structure EntryAccepted (t : JournalTable) (index : ℕ) (e : JournalWireEntry) : Prop where
  replicated : isTableReplicated e.tableName = true
  checksum : journalChecksum sha256 e.tableName e.rowPk e.op e.oldValues e.newValues = e.checksum
  inserts : env.insertError index = none
  existing : ∀ row, t.find? e.seq.toInt64 = some row → cstr row.checksum = e.checksum

variable (appliedValue : Int32)

def insertedRow (index : ℕ) (entries : List JournalWireEntry) (key : Int64) : Option JournalRow :=
  match entries with
  | [] => none
  | e :: es =>
    if e.seq.toInt64 = key then some (wireRow appliedValue (env.generateBatchId index) e)
    else insertedRow (index + 1) es key

def acceptEntry (index : ℕ) (s : ApplyProgress) (e : JournalWireEntry) : ApplyProgress :=
  match s.table.find? e.seq.toInt64 with
  | none => ⟨s.table.insert e.seq.toInt64 (wireRow appliedValue (env.generateBatchId index) e),
      s.appliedCount + 1, max s.appliedUpToSeq e.seq⟩
  | some _ => { s with appliedUpToSeq := max s.appliedUpToSeq e.seq }

variable {sha256 env appliedValue}

theorem applyEntry_of_accepted {index : ℕ} {s : ApplyProgress} {e : JournalWireEntry}
    (h : EntryAccepted sha256 env s.table index e) :
    applyEntry sha256 env appliedValue index s e = .ok (acceptEntry env appliedValue index s e) := by
  unfold applyEntry acceptEntry
  rw [if_neg (by simp [h.replicated]), if_neg (by simp [h.checksum]), h.inserts]
  cases hrow : s.table.find? e.seq.toInt64 with
  | none => rfl
  | some row => simp [h.existing row hrow]

theorem accepted_of_applyEntry {index : ℕ} {s s' : ApplyProgress} {e : JournalWireEntry}
    (h : applyEntry sha256 env appliedValue index s e = .ok s') : EntryAccepted sha256 env s.table index e := by
  unfold applyEntry at h
  split at h
  · cases h
  · rename_i hreplicated
    split at h
    · cases h
    · rename_i hchecksum
      cases hinsert : env.insertError index with
      | some error => simp [hinsert] at h
      | none =>
        refine ⟨by simpa using hreplicated, by simpa using hchecksum, hinsert, fun row hrow => ?_⟩
        by_contra hne
        simp [hinsert, hrow, hne] at h

theorem applyEntries_cons_of_accepted (appliedValue : Int32) {index : ℕ} {s : ApplyProgress} {e : JournalWireEntry}
    (es : List JournalWireEntry) (h : EntryAccepted sha256 env s.table index e) :
    applyEntries sha256 env appliedValue index s (e :: es) =
      applyEntries sha256 env appliedValue (index + 1) (acceptEntry env appliedValue index s e) es := by
  rw [applyEntries, applyEntry_of_accepted h]

theorem applyEntries_cons_of_refused (appliedValue : Int32) {index : ℕ} {s : ApplyProgress} {e : JournalWireEntry}
    (es : List JournalWireEntry) (h : ¬ EntryAccepted sha256 env s.table index e) :
    ∃ error, applyEntries sha256 env appliedValue index s (e :: es) = (s, some error) := by
  rw [applyEntries]
  split
  · exact ⟨_, rfl⟩
  · rename_i s' hs'
    exact absurd (accepted_of_applyEntry hs') h

theorem applyEntries_invariant {P : ApplyProgress → Prop} (sha256 : Bytes → Bytes) {entries : List JournalWireEntry}
    (hstep : ∀ i s, ∀ e ∈ entries, P s → P (acceptEntry env appliedValue i s e)) (index : ℕ) {s : ApplyProgress}
    (hs : P s) : P (applyEntries sha256 env appliedValue index s entries).1 := by
  induction entries generalizing index s with
  | nil => exact hs
  | cons e es ih =>
    by_cases h : EntryAccepted sha256 env s.table index e
    · rw [applyEntries_cons_of_accepted appliedValue es h]
      apply ih
      · exact fun i s' f hf => hstep i s' f (by simp [hf])
      · exact hstep index s e (by simp) hs
    · obtain ⟨error, hrefused⟩ := applyEntries_cons_of_refused appliedValue es h
      rw [hrefused]
      exact hs

theorem cstr_checksum {t : JournalTable} {index : ℕ} {e : JournalWireEntry}
    (h : EntryAccepted sha256 env t index e) : cstr e.checksum = e.checksum := by
  rw [cstr_eq_self, ← h.checksum]
  exact nulFree_journalChecksum _ _ _ _ _ _

theorem find?_acceptEntry (env : ApplyEnv) (appliedValue : Int32) (index : ℕ) (s : ApplyProgress)
    (e : JournalWireEntry) (key : Int64) :
    (acceptEntry env appliedValue index s e).table.find? key = (s.table.find? key).or
      (if e.seq.toInt64 = key then some (wireRow appliedValue (env.generateBatchId index) e) else none) := by
  unfold acceptEntry
  cases hrow : s.table.find? e.seq.toInt64 with
  | none =>
    by_cases hkey : e.seq.toInt64 = key
    · subst hkey
      simp [hrow]
    · simp [hkey, Ne.symm hkey]
  | some row =>
    by_cases hkey : e.seq.toInt64 = key
    · subst hkey
      simp [hrow]
    · simp [hkey]

theorem find?_applyEntries {index : ℕ} {s : ApplyProgress} {entries : List JournalWireEntry}
    (h : (applyEntries sha256 env appliedValue index s entries).2 = none) (key : Int64) :
    (applyEntries sha256 env appliedValue index s entries).1.table.find? key =
      (s.table.find? key).or (insertedRow env appliedValue index entries key) := by
  induction entries generalizing index s with
  | nil => simp [applyEntries, insertedRow]
  | cons e es ih =>
    by_cases haccepted : EntryAccepted sha256 env s.table index e
    · rw [applyEntries_cons_of_accepted appliedValue es haccepted] at h ⊢
      rw [ih h, find?_acceptEntry, Option.or_assoc, insertedRow]
      split_ifs <;> simp
    · obtain ⟨error, hrefused⟩ := applyEntries_cons_of_refused appliedValue es haccepted
      rw [hrefused] at h
      cases h

theorem insertedRow_eq_some {index : ℕ} {entries : List JournalWireEntry} {key : Int64} {row : JournalRow}
    (h : insertedRow env appliedValue index entries key = some row) :
    ∃ e ∈ entries, e.seq.toInt64 = key ∧ ∃ generatedId, row = wireRow appliedValue generatedId e := by
  induction entries generalizing index with
  | nil => cases h
  | cons e es ih =>
    rw [insertedRow] at h
    split_ifs at h with hkey
    · exact ⟨e, by simp, hkey, _, (Option.some.inj h).symm⟩
    · obtain ⟨f, hf, hfkey, hrow⟩ := ih h
      exact ⟨f, by simp [hf], hfkey, hrow⟩

theorem insertedRow_isSome {index : ℕ} {entries : List JournalWireEntry} {e : JournalWireEntry} (he : e ∈ entries) :
    ∃ row, insertedRow env appliedValue index entries e.seq.toInt64 = some row := by
  induction entries generalizing index with
  | nil => cases he
  | cons f fs ih =>
    rw [insertedRow]
    split_ifs with hkey
    · exact ⟨_, rfl⟩
    · obtain rfl | he := List.mem_cons.mp he
      · exact absurd rfl hkey
      · exact ih he

end Spec

section Accepted

variable (sha256 : Bytes → Bytes) (env : ApplyEnv)

structure BatchAccepted (index : ℕ) (t : JournalTable) (entries : List JournalWireEntry) : Prop where
  replicated : ∀ e ∈ entries, isTableReplicated e.tableName = true
  checksum : ∀ e ∈ entries, journalChecksum sha256 e.tableName e.rowPk e.op e.oldValues e.newValues = e.checksum
  inserts : ∀ i < entries.length, env.insertError (index + i) = none
  existing : ∀ e ∈ entries, ∀ row, t.find? e.seq.toInt64 = some row → cstr row.checksum = e.checksum
  repeated : ∀ e ∈ entries, ∀ f ∈ entries, e.seq = f.seq → e.checksum = f.checksum

variable {sha256 env} {appliedValue : Int32}

theorem find?_acceptEntry_checksum (appliedValue : Int32) {index : ℕ} {s : ApplyProgress} {e : JournalWireEntry}
    (h : EntryAccepted sha256 env s.table index e) :
    ∃ row, (acceptEntry env appliedValue index s e).table.find? e.seq.toInt64 = some row ∧
      cstr row.checksum = e.checksum := by
  rw [find?_acceptEntry, if_pos rfl]
  cases hrow : s.table.find? e.seq.toInt64 with
  | none => exact ⟨_, rfl, by simp [wireRow, cstr_checksum h]⟩
  | some row => exact ⟨row, rfl, h.existing row hrow⟩

theorem EntryAccepted.batchAccepted (appliedValue : Int32) {index : ℕ} {s : ApplyProgress} {e : JournalWireEntry}
    {es : List JournalWireEntry} (haccepted : EntryAccepted sha256 env s.table index e)
    (hes : BatchAccepted sha256 env (index + 1) (acceptEntry env appliedValue index s e).table es) :
    BatchAccepted sha256 env index s.table (e :: es) := by
  obtain ⟨row, hrow, hsum⟩ := find?_acceptEntry_checksum appliedValue haccepted
  have hsame : ∀ f ∈ es, e.seq = f.seq → e.checksum = f.checksum := by
    intro f hf hseq
    rw [← hsum]
    exact hes.existing f hf row (hseq ▸ hrow)
  refine ⟨?_, ?_, ?_, ?_, ?_⟩
  · exact List.forall_mem_cons.mpr ⟨haccepted.replicated, hes.replicated⟩
  · exact List.forall_mem_cons.mpr ⟨haccepted.checksum, hes.checksum⟩
  · rintro (_ | i) hi
    · exact haccepted.inserts
    · rw [← Nat.add_assoc, Nat.add_right_comm]
      exact hes.inserts i (by simpa using hi)
  · refine List.forall_mem_cons.mpr ⟨haccepted.existing, fun f hf row' hrow' => ?_⟩
    apply hes.existing f hf row'
    rw [find?_acceptEntry, hrow', Option.some_or]
  · refine List.forall_mem_cons.mpr ⟨List.forall_mem_cons.mpr ⟨fun _ => rfl, hsame⟩, fun f hf => ?_⟩
    exact List.forall_mem_cons.mpr ⟨fun hseq => (hsame f hf hseq.symm).symm, hes.repeated f hf⟩

theorem BatchAccepted.head {index : ℕ} {t : JournalTable} {e : JournalWireEntry} {es : List JournalWireEntry}
    (h : BatchAccepted sha256 env index t (e :: es)) : EntryAccepted sha256 env t index e :=
  ⟨h.replicated e (by simp), h.checksum e (by simp), h.inserts 0 (by simp), h.existing e (by simp)⟩

theorem BatchAccepted.tail (appliedValue : Int32) {index : ℕ} {s : ApplyProgress} {e : JournalWireEntry}
    {es : List JournalWireEntry} (h : BatchAccepted sha256 env index s.table (e :: es)) :
    BatchAccepted sha256 env (index + 1) (acceptEntry env appliedValue index s e).table es := by
  refine ⟨?_, ?_, ?_, ?_, ?_⟩
  · exact fun f hf => h.replicated f (by simp [hf])
  · exact fun f hf => h.checksum f (by simp [hf])
  · intro i hi
    rw [Nat.add_right_comm]
    exact h.inserts (i + 1) (by simpa using hi)
  · intro f hf row hrow
    rw [find?_acceptEntry] at hrow
    obtain hold | ⟨-, hnew⟩ := Option.or_eq_some_iff.mp hrow
    · exact h.existing f (by simp [hf]) row hold
    · split_ifs at hnew with hkey
      obtain rfl := Option.some.inj hnew
      rw [wireRow, cstr_cstr, cstr_checksum h.head]
      exact h.repeated e (by simp) f (by simp [hf]) (toInt64_inj.mp hkey)
  · exact fun f hf g hg => h.repeated f (by simp [hf]) g (by simp [hg])

theorem applyEntries_accepted_iff (appliedValue : Int32) {index : ℕ} {s : ApplyProgress}
    {entries : List JournalWireEntry} :
    (applyEntries sha256 env appliedValue index s entries).2 = none ↔
      BatchAccepted sha256 env index s.table entries := by
  induction entries generalizing index s with
  | nil => exact iff_of_true rfl ⟨by simp, by simp, by simp, by simp, by simp⟩
  | cons e es ih =>
    constructor
    · intro h
      by_cases haccepted : EntryAccepted sha256 env s.table index e
      · rw [applyEntries_cons_of_accepted appliedValue es haccepted] at h
        exact haccepted.batchAccepted appliedValue (ih.mp h)
      · obtain ⟨error, hrefused⟩ := applyEntries_cons_of_refused appliedValue es haccepted
        rw [hrefused] at h
        cases h
    · intro h
      rw [applyEntries_cons_of_accepted appliedValue es h.head]
      exact ih.mpr (h.tail appliedValue)

theorem applyBatch_cases (sha256 : Bytes → Bytes) (env : ApplyEnv) (appliedValue : Int32) (t : JournalTable)
    (batch : JournalBatchFrame) :
    let loop := applyEntries sha256 env appliedValue 0 ⟨t, 0, 0⟩ batch.entries
    (∃ error, (env.beginError.isSome ∨ env.prepareError.isSome) ∧
      applyBatch sha256 env appliedValue t batch = (t, ⟨false, 0, 0, error⟩)) ∨
    (∃ error, env.beginError = none ∧ env.prepareError = none ∧ ¬ (env.commitError = none ∧ loop.2 = none) ∧
      applyBatch sha256 env appliedValue t batch = (t, ⟨false, loop.1.appliedUpToSeq, loop.1.appliedCount, error⟩)) ∨
    env.beginError = none ∧ env.prepareError = none ∧ env.commitError = none ∧ loop.2 = none ∧
      applyBatch sha256 env appliedValue t batch =
        (loop.1.table, ⟨true, loop.1.appliedUpToSeq, loop.1.appliedCount, []⟩) := by
  unfold applyBatch
  cases hbegin : env.beginError with
  | some error => exact .inl ⟨error, .inl rfl, rfl⟩
  | none =>
    cases hprepare : env.prepareError with
    | some error => exact .inl ⟨error, .inr rfl, rfl⟩
    | none =>
      obtain ⟨s, outcome⟩ := applyEntries sha256 env appliedValue 0 ⟨t, 0, 0⟩ batch.entries
      cases outcome with
      | some error => exact .inr (.inl ⟨error, rfl, rfl, by simp, rfl⟩)
      | none =>
        cases hcommit : env.commitError with
        | some error => exact .inr (.inl ⟨error, rfl, rfl, by simp, rfl⟩)
        | none => exact .inr (.inr ⟨rfl, rfl, rfl, rfl, rfl⟩)

def Accepts (sha256 : Bytes → Bytes) (env : ApplyEnv) (t : JournalTable) (batch : JournalBatchFrame) : Prop :=
  env.beginError = none ∧ env.prepareError = none ∧ env.commitError = none ∧
    BatchAccepted sha256 env 0 t batch.entries

theorem applyBatch_success_iff {t : JournalTable} {batch : JournalBatchFrame} :
    (applyBatch sha256 env appliedValue t batch).2.success = true ↔ Accepts sha256 env t batch := by
  rw [Accepts, ← applyEntries_accepted_iff appliedValue (s := ⟨t, 0, 0⟩)]
  obtain ⟨error, hearly, heq⟩ | ⟨error, -, -, hfailed, heq⟩ | ⟨hbegin, hprepare, hcommit, hloop, heq⟩ :=
    applyBatch_cases sha256 env appliedValue t batch
  · refine iff_of_false (by simp [heq]) ?_
    rintro ⟨hbegin, hprepare, -⟩
    simp [hbegin, hprepare] at hearly
  · exact iff_of_false (by simp [heq]) fun h => hfailed h.2.2
  · exact iff_of_true (by rw [heq]) ⟨hbegin, hprepare, hcommit, hloop⟩

theorem find?_applyBatch {t : JournalTable} {batch : JournalBatchFrame}
    (h : (applyBatch sha256 env appliedValue t batch).2.success = true) (key : Int64) :
    (applyBatch sha256 env appliedValue t batch).1.find? key =
      (t.find? key).or (insertedRow env appliedValue 0 batch.entries key) := by
  obtain ⟨error, -, heq⟩ | ⟨error, -, -, -, heq⟩ | ⟨-, -, -, hloop, heq⟩ :=
    applyBatch_cases sha256 env appliedValue t batch
  · simp [heq] at h
  · simp [heq] at h
  · rw [heq, find?_applyEntries hloop]

theorem applyBatch_of_failed {t : JournalTable} {batch : JournalBatchFrame}
    (h : (applyBatch sha256 env appliedValue t batch).2.success = false) :
    (applyBatch sha256 env appliedValue t batch).1 = t := by
  obtain ⟨error, -, heq⟩ | ⟨error, -, -, -, heq⟩ | ⟨-, -, -, -, heq⟩ :=
    applyBatch_cases sha256 env appliedValue t batch
  · rw [heq]
  · rw [heq]
  · simp [heq] at h

end Accepted

end SyncEngine

end Tightrope.Sync
