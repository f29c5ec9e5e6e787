import Tightrope.Library.FlatMap
import Tightrope.Library.WireCodec

namespace Tightrope.Sync.Consensus

open MachineWords WireCodec

structure LogEntry where
  term : UInt64
  valType : UInt8
  payload : Bytes
  deriving DecidableEq

structure RaftRow where
  term : ℤ
  payload : Bytes
  deriving DecidableEq

structure RaftLibraries where
  serialize : LogEntry → Bytes
  deserialize : Bytes → Option LogEntry
  maxBufferBytes : ℕ
  rowFits : RaftRow → Bool
  payloadFits : Bytes → Bool

structure RaftLibraries.Documented (lib : RaftLibraries) : Prop where
  restores : ∀ entry, lib.deserialize (lib.serialize entry) = some entry
  nonempty : ∀ entry, lib.serialize entry ≠ []
  bufferBytes : lib.maxBufferBytes < 2 ^ 31

def nuraftAndSqlite : RaftLibraries where
  serialize entry := writeU64 entry.term ++ (writeU8 entry.valType ++ entry.payload)
  deserialize bytes := (readU64 bytes).bind fun (term, rest) =>
    (readU8 rest).map fun (valType, payload) => ⟨term, valType, payload⟩
  maxBufferBytes := 2 ^ 31 - 1
  rowFits row := row.payload.length ≤ 1000000000
  payloadFits payload := payload.length ≤ 1000000000

theorem nuraftAndSqlite_documented : nuraftAndSqlite.Documented where
  restores entry := by
    rw [nuraftAndSqlite]
    simp only
    rw [reads_u64, Option.bind_some, reads_u8]
    rfl
  nonempty entry := by
    apply List.ne_nil_of_length_pos
    rw [nuraftAndSqlite]
    simp [writeU8]
  bufferBytes := by decide

def rowKey (index : UInt64) : ℤ := index.toInt64.toInt

def rowIndex (key : ℤ) : UInt64 := UInt64.ofInt key

structure SqliteRaftStorage where
  log : FlatMap ℤ RaftRow := .empty
  metaLogStartIndex : Option UInt64 := some 1
  committed : FlatMap Int64 Bytes := .empty

structure StorageFaults where
  beginFails : Bool := false
  statementFails : Bool := false
  metaFails : Bool := false
  commitFails : Bool := false
  deriving DecidableEq

namespace SqliteRaftStorage

section Log

variable (lib : RaftLibraries) (faults : StorageFaults) (s : SqliteRaftStorage)

def startIndex : UInt64 :=
  match s.metaLogStartIndex with
  | some start => if start > 0 then start else 1
  | none => 1

def readMaxLogIndex : Option UInt64 := s.log.lastKey?.map rowIndex

def readMinLogIndex : Option UInt64 := s.log.firstKey?.map rowIndex

def nextSlot : UInt64 :=
  match s.readMaxLogIndex with
  | some maxIndex => maxIndex + 1
  | none => s.startIndex

def rowOf (entry : LogEntry) : RaftRow := ⟨entry.term.toInt64.toInt, lib.serialize entry⟩

def upsertLog (index : UInt64) (entry : LogEntry) : Option SqliteRaftStorage :=
  if faults.statementFails ∨ ¬ lib.rowFits (rowOf lib entry) then none
  else some { s with log := s.log.insert (rowKey index) (rowOf lib entry) }

def append (entry : LogEntry) : Option (SqliteRaftStorage × UInt64) :=
  (upsertLog lib faults s s.nextSlot entry).map fun t => (t, s.nextSlot)

def writeAt (index : UInt64) (entry : LogEntry) : Option SqliteRaftStorage :=
  if faults.beginFails then none
  else
    let removed := { s with log := s.log.filter (fun key _ => ¬ key ≥ rowKey index) }
    (upsertLog lib faults removed index entry).bind fun t =>
      if index < t.startIndex ∧ faults.metaFails then none
      else if faults.commitFails then none
      else some (if index < t.startIndex then { t with metaLogStartIndex := some index } else t)

def compact (lastLogIndex : UInt64) : Option SqliteRaftStorage :=
  if faults.beginFails ∨ faults.statementFails then none
  else
    let nextStart := if s.startIndex ≤ lastLogIndex then lastLogIndex + 1 else s.startIndex
    if faults.metaFails ∨ faults.commitFails then none
    else some { s with
      log := s.log.filter (fun key _ => ¬ key ≤ rowKey lastLogIndex)
      metaLogStartIndex := some nextStart }

def readPackEntry : Reader LogEntry := fun bytes =>
  (readI32 bytes).bind fun (size, rest) =>
    if size < 0 ∨ size.toInt > lib.maxBufferBytes then none
    else (readRaw size.toInt.toNat rest).bind fun (raw, rest) =>
      (lib.deserialize raw).map fun entry => (entry, rest)

def upsertPacked : ℕ → UInt64 → Bytes → SqliteRaftStorage → Option (SqliteRaftStorage × Bool)
  | 0, _, _, s => some (s, true)
  | n + 1, current, bytes, s =>
    (readPackEntry lib bytes).bind fun (entry, rest) =>
      match upsertLog lib faults s current entry with
      | none => some (s, false)
      | some t => upsertPacked n (current + 1) rest t

def applyPack (index : UInt64) (pack : Bytes) : Option SqliteRaftStorage :=
  if faults.beginFails then none
  else (readI32 pack).bind fun (count, rest) =>
    (upsertPacked lib faults count.toInt.toNat index rest s).bind fun (t, ok) =>
      if ¬ ok then none
      else
        let start := match t.readMinLogIndex with
          | some minIndex => if minIndex > 0 then minIndex else 1
          | none => 1
        if faults.metaFails ∨ faults.commitFails then none else some { t with metaLogStartIndex := some start }

def readRows (batchSizeHint : Int64) : UInt64 → ℕ → List (ℤ × RaftRow) → Option (List LogEntry × UInt64 × Bool)
  | expected, _, [] => some ([], expected, false)
  | expected, totalSize, (key, row) :: rows =>
    if rowIndex key ≠ expected ∨ row.payload = [] then none
    else (lib.deserialize row.payload).bind fun entry =>
      let totalSize := totalSize + row.payload.length
      if batchSizeHint > 0 ∧ totalSize ≥ batchSizeHint.toInt.toNat then some ([entry], expected + 1, true)
      else (readRows batchSizeHint (expected + 1) totalSize rows).map fun r => (entry :: r.1, r.2)

def logEntries (start end_ : UInt64) (batchSizeHint : Int64) : Option (List LogEntry) :=
  let rows := s.log.entries.filter (fun e => e.1 ≥ rowKey start ∧ e.1 < rowKey end_)
  (readRows lib batchSizeHint start 0 rows).bind fun (entries, expected, reachedSizeLimit) =>
    if ¬ reachedSizeLimit ∧ expected ≠ end_ then none else some entries

def packBytes (entries : List LogEntry) : Bytes :=
  writeI32 (Int32.ofNat entries.length) ++
    (entries.map lib.serialize).flatMap fun serialized => writeI32 (Int32.ofNat serialized.length) ++ serialized

def pack (index : UInt64) (cnt : Int32) : Option Bytes :=
  (logEntries lib s index (index + UInt64.ofInt cnt.toInt) 0).bind fun logs =>
    if Int32.ofNat logs.length ≠ cnt then none
    else if 4 + 4 * logs.length + (logs.map fun entry => (lib.serialize entry).length).sum > lib.maxBufferBytes
    then none
    else some (packBytes lib logs)

end Log

section Committed

variable (lib : RaftLibraries) (faults : StorageFaults) (s : SqliteRaftStorage)

def appendCommitted (logIdx : UInt64) (data : Bytes) : Option SqliteRaftStorage :=
  if faults.statementFails ∨ ¬ lib.payloadFits data then none
  else some { s with committed := s.committed.insert logIdx.toInt64 data }

def loadAllCommitted : List Bytes := (s.committed.entries.map Prod.snd).filter (· ≠ [])

def maxCommittedIndex : Option UInt64 := s.committed.lastKey?.map Int64.toUInt64

end Committed

end SqliteRaftStorage

end Tightrope.Sync.Consensus
