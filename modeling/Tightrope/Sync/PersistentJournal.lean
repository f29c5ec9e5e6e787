import Mathlib.Data.FinEnum
import Mathlib.Data.List.Sort
import Tightrope.Library.FlatMap
import Tightrope.Sync.Checksum
import Tightrope.Sync.Hlc

namespace Tightrope.Sync

open MachineWords Bytes

structure PendingJournalEntry where
  hlc : Hlc
  tableName : Bytes
  rowPk : Bytes
  op : Bytes
  oldValues : Bytes
  newValues : Bytes
  applied : Int32 := 1
  batchId : Bytes
  deriving DecidableEq

def accountInsert (wall : UInt64) (batchId : String) : PendingJournalEntry :=
  ⟨⟨wall, 0, 7⟩, ofString "accounts", ofString "1", ofString "INSERT", [], ofString "\x7b\x7d", 1, ofString batchId⟩

structure JournalEntry where
  seq : UInt64
  hlc : Hlc
  tableName : Bytes
  rowPk : Bytes
  op : Bytes
  oldValues : Bytes
  newValues : Bytes
  checksum : Bytes
  applied : Int32
  batchId : Bytes
  deriving DecidableEq

def sortBySeqDesc (entries : List JournalEntry) : List JournalEntry :=
  entries.insertionSort (fun lhs rhs => lhs.seq ≥ rhs.seq)

structure Journal where
  nextSeq : UInt64
  entries : List JournalEntry

namespace Journal

def new : Journal := ⟨1, []⟩

section Append

variable (sha256 : Bytes → Bytes) (generateBatchId : Bytes)

def created (seq : UInt64) (entry : PendingJournalEntry) : JournalEntry where
  seq := seq
  hlc := entry.hlc
  tableName := entry.tableName
  rowPk := entry.rowPk
  op := entry.op
  oldValues := entry.oldValues
  newValues := entry.newValues
  checksum := journalChecksum sha256 entry.tableName entry.rowPk entry.op entry.oldValues entry.newValues
  applied := entry.applied
  batchId := if entry.batchId = [] then generateBatchId else entry.batchId

def append (j : Journal) (entry : PendingJournalEntry) : Journal × JournalEntry :=
  let e := created sha256 generateBatchId j.nextSeq entry
  (⟨j.nextSeq + 1, j.entries ++ [e]⟩, e)

end Append

def entriesAfter (j : Journal) (seq : UInt64) : List JournalEntry := j.entries.filter (fun e => e.seq > seq)

def rollbackBatch (j : Journal) (batchId : Bytes) : Journal × List JournalEntry :=
  ({ j with entries := j.entries.filter (fun e => e.batchId ≠ batchId) },
    sortBySeqDesc (j.entries.filter (fun e => e.batchId = batchId)))

def markFirst (seq : UInt64) (appliedValue : Int32) : List JournalEntry → List JournalEntry
  | [] => []
  | e :: es => if e.seq = seq then { e with applied := appliedValue } :: es else e :: markFirst seq appliedValue es

def markApplied (j : Journal) (seq : UInt64) (appliedValue : Int32) : Journal × Bool :=
  ({ j with entries := markFirst seq appliedValue j.entries }, j.entries.any (fun e => e.seq = seq))

def compact (j : Journal) (cutoffWall maxAckSeq : UInt64) : Journal × ℕ :=
  let kept := j.entries.filter (fun e => ¬ (e.hlc.wall < cutoffWall ∧ e.seq ≤ maxAckSeq))
  ({ j with entries := kept }, j.entries.length - kept.length)

def size (j : Journal) : ℕ := j.entries.length

end Journal

structure AutoCompactConfig where
  minEntries : ℕ := 10000
  checkIntervalEntries : UInt64 := 256
  retentionMs : UInt64 := 300000
  minAppliedValue : Int32 := 2
  enabled : Bool := true

section Environment

def parseDigits (text : Bytes) : Option ℕ :=
  if text ≠ [] ∧ ∀ c ∈ text, 48 ≤ c ∧ c ≤ 57 then some (text.foldl (fun n c => 10 * n + (c.toNat - 48)) 0)
  else none

def parseEnvU64 (raw : Option Bytes) : Option UInt64 :=
  (raw.bind parseDigits).bind fun n => if n < 2 ^ 64 then some (UInt64.ofNat n) else none

def parseEnvInt (raw : Option Bytes) : Option Int32 :=
  raw.bind fun text =>
    if text.head? = some 45 then
      (parseDigits text.tail).bind fun n => if n ≤ 2 ^ 31 then some (Int32.ofInt (-n)) else none
    else (parseDigits text).bind fun n => if n < 2 ^ 31 then some (Int32.ofInt n) else none

variable (getenv : Bytes → Option Bytes)

def loadAutoCompactConfig (retentionOverride : Option UInt64) : AutoCompactConfig where
  minEntries := ((parseEnvU64 (getenv (ofString "TIGHTROPE_SYNC_JOURNAL_AUTO_COMPACT_MIN_ENTRIES"))).map
    fun n => max n.toNat 1).getD 10000
  checkIntervalEntries := ((parseEnvU64 (getenv (ofString "TIGHTROPE_SYNC_JOURNAL_AUTO_COMPACT_INTERVAL"))).map
    fun n => max n 1).getD 256
  retentionMs := retentionOverride.getD
    ((parseEnvU64 (getenv (ofString "TIGHTROPE_SYNC_JOURNAL_AUTO_COMPACT_RETENTION_MS"))).getD 300000)
  minAppliedValue := ((parseEnvInt (getenv (ofString "TIGHTROPE_SYNC_JOURNAL_AUTO_COMPACT_MIN_APPLIED"))).map
    fun n => max n 0).getD 2
  enabled := ((parseEnvU64 (getenv (ofString "TIGHTROPE_SYNC_JOURNAL_AUTO_COMPACT_ENABLED"))).map
    fun n => n != 0).getD true

def shouldVerifyChecksumOnRead : Bool :=
  ((parseEnvU64 (getenv (ofString "TIGHTROPE_SYNC_JOURNAL_VERIFY_CHECKSUM_ON_READ"))).map fun n => n != 0).getD true

end Environment

structure JournalRow where
  hlcWall : Int64
  hlcCounter : UInt32
  siteId : UInt32
  tableName : Bytes
  rowPk : Bytes
  op : Bytes
  oldValues : Bytes
  newValues : Bytes
  checksum : Bytes
  applied : Int32
  batchId : Bytes
  deriving DecidableEq

abbrev JournalTable := FlatMap Int64 JournalRow

def bindRow (e : JournalEntry) : JournalRow where
  hlcWall := e.hlc.wall.toInt64
  hlcCounter := e.hlc.counter
  siteId := e.hlc.siteId
  tableName := cstr e.tableName
  rowPk := cstr e.rowPk
  op := cstr e.op
  oldValues := cstr e.oldValues
  newValues := cstr e.newValues
  checksum := cstr e.checksum
  applied := e.applied
  batchId := cstr e.batchId

def readEntry (seq : Int64) (row : JournalRow) : JournalEntry where
  seq := seq.toUInt64
  hlc := ⟨row.hlcWall.toUInt64, row.hlcCounter, row.siteId⟩
  tableName := cstr row.tableName
  rowPk := cstr row.rowPk
  op := cstr row.op
  oldValues := cstr row.oldValues
  newValues := cstr row.newValues
  checksum := cstr row.checksum
  applied := row.applied
  batchId := cstr row.batchId

namespace JournalTable

def nextRowid (t : JournalTable) (randomRowid : Option Int64) : Option Int64 :=
  match t.lastKey? with
  | none => some 1
  | some key => if key < Int64.maxValue then some (key + 1) else randomRowid.filter (fun r => 0 < r ∧ t.find? r = none)

theorem nextRowid_pos {t : JournalTable} (h : ∀ key row, t.find? key = some row → 0 ≤ key)
    {randomRowid : Option Int64} {rowid : Int64} (hid : t.nextRowid randomRowid = some rowid) : 0 < rowid := by
  unfold nextRowid at hid
  cases hlast : t.lastKey? with
  | none =>
    simp only [hlast, Option.some.injEq] at hid
    rw [← hid]
    decide
  | some key =>
    obtain ⟨row, hrow⟩ := FlatMap.find?_lastKey hlast
    have hkey := h key row hrow
    simp only [hlast] at hid
    split_ifs at hid with hmax
    · rw [← Option.some.inj hid]
      exact add_one_pos hkey hmax
    · obtain ⟨-, hfilter⟩ := Option.filter_eq_some_iff.mp hid
      exact (of_decide_eq_true hfilter).1

def rowsAfter (t : JournalTable) (afterSeq : UInt64) : List (Int64 × JournalRow) :=
  t.entries.filter (fun e => e.1 > afterSeq.toInt64)

end JournalTable

def kIntMax : ℕ := 2 ^ 31 - 1

structure AppendEnv where
  generateBatchId : Bytes
  randomRowid : Option Int64
  autoCompact : AutoCompactConfig

namespace PersistentJournal

section Operations

variable (t : JournalTable)

def size : ℕ := FlatMap.size t

def maxAcknowledgedSeq (minAppliedValue : Int32) : UInt64 :=
  ((t.filter (fun _ row => row.applied ≥ minAppliedValue)).lastKey?.getD 0).toUInt64

def compact (cutoffWall maxAckSeq : UInt64) : JournalTable × ℕ :=
  let kept := t.filter (fun seq row => ¬ (row.hlcWall < cutoffWall.toInt64 ∧ seq ≤ maxAckSeq.toInt64))
  (kept, FlatMap.size t - FlatMap.size kept)

def cutoffWall (config : AutoCompactConfig) (created : JournalEntry) : UInt64 :=
  if created.hlc.wall > config.retentionMs then created.hlc.wall - config.retentionMs else 0

def autoCompact (config : AutoCompactConfig) (created : JournalEntry) : JournalTable :=
  if config.enabled ∧ config.checkIntervalEntries > 0 ∧ created.seq % config.checkIntervalEntries = 0 then
    if size t ≥ config.minEntries then
      let ackSeq := maxAcknowledgedSeq t config.minAppliedValue
      if ackSeq > 0 then (compact t (cutoffWall config created) ackSeq).1 else t
    else t
  else t

variable (sha256 : Bytes → Bytes)

def insertPending (entry : PendingJournalEntry) (env : AppendEnv) : Option (JournalTable × JournalEntry) :=
  (t.nextRowid env.randomRowid).map fun rowid =>
    let created := Journal.created sha256 env.generateBatchId rowid.toUInt64 entry
    (t.insert rowid (bindRow created), created)

def append (entry : PendingJournalEntry) (env : AppendEnv) : JournalTable × Option JournalEntry :=
  match insertPending t sha256 entry env with
  | none => (t, none)
  | some (inserted, created) => (autoCompact inserted env.autoCompact created, some created)

def verifies (e : JournalEntry) : Bool :=
  journalChecksum sha256 e.tableName e.rowPk e.op e.oldValues e.newValues = e.checksum

def entriesAfter (afterSeq : UInt64) (limit : ℕ) (verifyChecksum : Bool) : List JournalEntry :=
  let entries := ((t.rowsAfter afterSeq).take (min limit kIntMax)).map (fun e => readEntry e.1 e.2)
  if verifyChecksum ∧ ¬ entries.all (verifies sha256) then [] else entries

def rollbackBatch (batchId : Bytes) : JournalTable × List JournalEntry :=
  (t.filter (fun _ row => row.batchId ≠ cstr batchId),
    sortBySeqDesc (((t.filter (fun _ row => row.batchId = cstr batchId)).entries).map (fun e => readEntry e.1 e.2)))

def markApplied (seq : UInt64) (appliedValue : Int32) : JournalTable × Bool :=
  (t.map (fun key row => if key = seq.toInt64 then { row with applied := appliedValue } else row),
    (t.find? seq.toInt64).isSome)

end Operations

theorem find?_autoCompact {t : JournalTable} {config : AutoCompactConfig} {created : JournalEntry} {key : Int64}
    {row : JournalRow} (h : (autoCompact t config created).find? key = some row) : t.find? key = some row := by
  simp only [autoCompact, compact] at h
  split_ifs at h
  · rw [FlatMap.find?_filter, Option.filter_eq_some_iff] at h
    exact h.1
  all_goals exact h

theorem find?_append {t : JournalTable} {sha256 : Bytes → Bytes} {entry : PendingJournalEntry} {env : AppendEnv}
    {key : Int64} {row : JournalRow} (h : (append t sha256 entry env).1.find? key = some row) :
    t.find? key = some row ∨ t.nextRowid env.randomRowid = some key ∧
      row = bindRow (Journal.created sha256 env.generateBatchId key.toUInt64 entry) := by
  simp only [append, insertPending] at h
  cases hid : t.nextRowid env.randomRowid with
  | none =>
    rw [hid] at h
    exact .inl h
  | some rowid =>
    rw [hid] at h
    have hrow := find?_autoCompact h
    rw [FlatMap.find?_insert] at hrow
    split_ifs at hrow with hkey
    · rw [hkey]
      exact .inr ⟨rfl, (Option.some.inj hrow).symm⟩
    · exact .inl hrow

end PersistentJournal

inductive JournalOp where
  | append (entry : PendingJournalEntry) (env : AppendEnv)
  | rollbackBatch (batchId : Bytes)
  | markApplied (seq : UInt64) (appliedValue : Int32)
  | compact (cutoffWall maxAckSeq : UInt64)
  | entriesAfter (afterSeq : UInt64) (limit : ℕ) (verifyChecksum : Bool)

inductive JournalReply where
  | appended (created : Option JournalEntry)
  | entries (listed : List JournalEntry)
  | updated (found : Bool)
  | deleted (count : ℕ)
  deriving DecidableEq

section Perform

variable (sha256 : Bytes → Bytes)

def Journal.perform (j : Journal) : JournalOp → Journal × JournalReply
  | .append entry env =>
    let r := j.append sha256 env.generateBatchId entry
    (r.1, .appended (some r.2))
  | .rollbackBatch batchId => ((j.rollbackBatch batchId).1, .entries (j.rollbackBatch batchId).2)
  | .markApplied seq value => ((j.markApplied seq value).1, .updated (j.markApplied seq value).2)
  | .compact cutoff ack => ((j.compact cutoff ack).1, .deleted (j.compact cutoff ack).2)
  | .entriesAfter seq _ _ => (j, .entries (j.entriesAfter seq))

def PersistentJournal.perform (t : JournalTable) : JournalOp → JournalTable × JournalReply
  | .append entry env => ((append t sha256 entry env).1, .appended (append t sha256 entry env).2)
  | .rollbackBatch batchId => ((rollbackBatch t batchId).1, .entries (rollbackBatch t batchId).2)
  | .markApplied seq value => ((markApplied t seq value).1, .updated (markApplied t seq value).2)
  | .compact cutoff ack => ((compact t cutoff ack).1, .deleted (compact t cutoff ack).2)
  | .entriesAfter seq limit verify => (t, .entries (entriesAfter t sha256 seq limit verify))

end Perform

end Tightrope.Sync
