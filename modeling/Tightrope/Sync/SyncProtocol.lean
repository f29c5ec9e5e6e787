import Mathlib.Algebra.Order.BigOperators.Group.List
import Tightrope.Library.WireCodec
import Tightrope.Sync.Checksum

namespace Tightrope.Sync

open Bytes MachineWords WireCodec

structure JournalWireEntry where
  seq : UInt64
  hlcWall : UInt64
  hlcCounter : UInt32
  siteId : UInt32
  tableName : Bytes
  rowPk : Bytes
  op : Bytes
  oldValues : Bytes
  newValues : Bytes
  checksum : Bytes
  applied : Int32 := 1
  batchId : Bytes
  deriving DecidableEq

structure JournalBatchFrame where
  fromSeq : UInt64
  toSeq : UInt64
  entries : List JournalWireEntry
  deriving DecidableEq

/-- `compress_lz4` and `decompress_lz4` with the library calls inside them; both return nothing on failure. -/
structure Lz4 where
  compress : Bytes → Option Bytes
  decompress : Bytes → ℕ → Option Bytes

/-- `LZ4_decompress_safe` restores what `LZ4_compress_default` wrote, given the original size. -/
def Lz4.RoundTrips (lz4 : Lz4) : Prop :=
  ∀ payload compressed, payload.length < 2 ^ 32 → lz4.compress payload = some compressed →
    lz4.decompress compressed payload.length = some payload

/-- `LZ4_compressBound`, `LZ4_compress_default` and `LZ4_decompress_safe` with their `int` sizes; the last two
return the bytes they wrote, nothing when their result is negative or no block was written. -/
structure Lz4Library where
  compressBound : Int32 → Int32
  compressDefault : (src : Bytes) → (srcSize dstCapacity : Int32) → Option Bytes
  decompressSafe : (src : Bytes) → (compressedSize dstCapacity : Int32) → Option Bytes

def kLz4MaxInputSize : ℕ := 0x7E000000

structure Lz4Library.Documented (lib : Lz4Library) : Prop where
  bound_incorrect : ∀ size : Int32, size < 0 ∨ Int32.ofNat kLz4MaxInputSize < size → lib.compressBound size = 0
  restores : ∀ src dstCapacity block, src.length ≤ kLz4MaxInputSize →
    lib.compressDefault src (Int32.ofNat src.length) dstCapacity = some block →
      lib.decompressSafe block (Int32.ofNat block.length) (Int32.ofNat src.length) = some src

def compressLz4 (lib : Lz4Library) (payload : Bytes) : Option Bytes :=
  let maxSize := lib.compressBound (Int32.ofNat payload.length)
  if maxSize ≤ 0 then none else lib.compressDefault payload (Int32.ofNat payload.length) maxSize

def decompressLz4 (lib : Lz4Library) (payload : Bytes) (uncompressedSize : ℕ) : Option Bytes :=
  (lib.decompressSafe payload (Int32.ofNat payload.length) (Int32.ofNat uncompressedSize)).filter
    (fun out => out.length = uncompressedSize)

def Lz4Library.lz4 (lib : Lz4Library) : Lz4 := ⟨compressLz4 lib, decompressLz4 lib⟩

theorem length_le_of_compressLz4 {lib : Lz4Library} (hlib : lib.Documented) {payload compressed : Bytes}
    (hsize : payload.length < 2 ^ 32) (h : compressLz4 lib payload = some compressed) :
    payload.length ≤ kLz4MaxInputSize := by
  by_contra hgt
  have hbound : lib.compressBound (Int32.ofNat payload.length) = 0 := by
    apply hlib.bound_incorrect
    by_cases hneg : payload.length < 2 ^ 31
    · right
      rw [Int32.lt_iff_toInt_lt, Int32.toInt_ofNat_of_lt hneg, Int32.toInt_ofNat_of_lt (by decide)]
      omega
    · left
      rw [Int32.lt_iff_toInt_lt, Int32.toInt_ofNat', Int.bmod_def]
      have hsigned : Int32.size = 2 ^ 32 := rfl
      rw [hsigned, Int32.toInt_zero]
      omega
  simp [compressLz4, hbound] at h

theorem Lz4Library.Documented.roundTrips {lib : Lz4Library} (hlib : lib.Documented) : lib.lz4.RoundTrips := by
  intro payload compressed hsize hcompress
  have hmax := length_le_of_compressLz4 hlib hsize hcompress
  have hdefault : lib.compressDefault payload (Int32.ofNat payload.length)
      (lib.compressBound (Int32.ofNat payload.length)) = some compressed := by
    simp only [Lz4Library.lz4, compressLz4, Option.ite_none_left_eq_some] at hcompress
    exact hcompress.2
  simp [Lz4Library.lz4, decompressLz4, hlib.restores _ _ _ hmax hdefault]

def writeEntry (e : JournalWireEntry) : Bytes :=
  writeU64 e.seq ++ (writeU64 e.hlcWall ++ (writeU32 e.hlcCounter ++ (writeU32 e.siteId ++
    (writeString e.tableName ++ (writeString e.rowPk ++ (writeString e.op ++ (writeString e.oldValues ++
      (writeString e.newValues ++ (writeString e.checksum ++ (writeI32 e.applied ++ writeString e.batchId))))))))))

def batchPayload (frame : JournalBatchFrame) : Bytes :=
  writeU64 frame.fromSeq ++ (writeU64 frame.toSeq ++ (writeU32 (UInt32.ofNat frame.entries.length) ++
    frame.entries.flatMap writeEntry))

def kCompressedFlag : UInt8 := 1

def readEntryFields : Reader JournalWireEntry :=
  readU64.andThen fun seq => readU64.andThen fun hlcWall => readU32.andThen fun hlcCounter =>
  readU32.andThen fun siteId => readString.andThen fun tableName => readString.andThen fun rowPk =>
  readString.andThen fun op => readString.andThen fun oldValues => readString.andThen fun newValues =>
  readString.andThen fun checksum => readI32.andThen fun applied => readString.map fun batchId =>
    ⟨seq, hlcWall, hlcCounter, siteId, tableName, rowPk, op, oldValues, newValues, checksum, applied, batchId⟩

def readFrame : Reader JournalBatchFrame :=
  readU64.andThen fun fromSeq => readU64.andThen fun toSeq => readU32.andThen fun count =>
  (readMany readEntryFields count.toNat).map fun entries => ⟨fromSeq, toSeq, entries⟩

def parseBatchPayload (payload : Bytes) : Option JournalBatchFrame :=
  (readFrame payload).bind fun r => if r.2 = [] then some r.1 else none

structure BatchHeader where
  flags : UInt8
  uncompressedSize : UInt32
  payloadSize : UInt32

def writeHeader (h : BatchHeader) : Bytes :=
  writeU8 h.flags ++ (writeU32 h.uncompressedSize ++ writeU32 h.payloadSize)

def readHeader : Reader BatchHeader :=
  readU8.andThen fun flags => readU32.andThen fun uncompressedSize => readU32.map fun payloadSize =>
    ⟨flags, uncompressedSize, payloadSize⟩

section Codec

variable (lz4 : Lz4)

def encodeJournalBatch (frame : JournalBatchFrame) : Bytes :=
  let payload := batchPayload frame
  let compressed := (lz4.compress payload).filter (fun c => c.length < payload.length)
  let wirePayload := compressed.getD payload
  writeHeader ⟨if compressed.isSome then kCompressedFlag else 0, UInt32.ofNat payload.length,
    UInt32.ofNat wirePayload.length⟩ ++ wirePayload

def decodeJournalBatch (bytes : Bytes) : Option JournalBatchFrame :=
  (readHeader bytes).bind fun (⟨flags, uncompressedSize, payloadSize⟩, payload) =>
    if payload.length ≠ payloadSize.toNat then none
    else if flags &&& kCompressedFlag ≠ 0 then
      (lz4.decompress payload uncompressedSize.toNat).bind parseBatchPayload
    else parseBatchPayload payload

end Codec

def JournalWireEntry.FitsWire (e : JournalWireEntry) : Prop :=
  e.tableName.length < 2 ^ 32 ∧ e.rowPk.length < 2 ^ 32 ∧ e.op.length < 2 ^ 32 ∧ e.oldValues.length < 2 ^ 32 ∧
    e.newValues.length < 2 ^ 32 ∧ e.checksum.length < 2 ^ 32 ∧ e.batchId.length < 2 ^ 32

structure JournalBatchFrame.FitsWire (frame : JournalBatchFrame) : Prop where
  entries : ∀ e ∈ frame.entries, e.FitsWire
  count : frame.entries.length < 2 ^ 32
  payload : (batchPayload frame).length < 2 ^ 32

def JournalWireEntry.wireSize (e : JournalWireEntry) : ℕ :=
  56 + e.tableName.length + e.rowPk.length + e.op.length + e.oldValues.length + e.newValues.length +
    e.checksum.length + e.batchId.length

theorem length_writeEntry_le (e : JournalWireEntry) : (writeEntry e).length ≤ e.wireSize := by
  have hstring : ∀ s : Bytes, (writeString s).length ≤ 4 + s.length := by
    intro s
    unfold writeString
    split_ifs
    · simp
    · simp [writeU32]
  have htable := hstring e.tableName
  have hpk := hstring e.rowPk
  have hop := hstring e.op
  have hold := hstring e.oldValues
  have hnew := hstring e.newValues
  have hsum := hstring e.checksum
  have hbatch := hstring e.batchId
  simp only [writeEntry, JournalWireEntry.wireSize, List.length_append, writeU64, writeI32, writeU32, length_le]
  omega

theorem length_writeEntry {e : JournalWireEntry} (h : e.FitsWire) : (writeEntry e).length = e.wireSize := by
  obtain ⟨htable, hpk, hop, hold, hnew, hsum, hbatch⟩ := h
  have hstring : ∀ s : Bytes, s.length < 2 ^ 32 → (writeString s).length = 4 + s.length := by
    intro s hs
    rw [writeString, if_neg (by omega), List.length_append, writeU32, length_le]
  simp only [writeEntry, JournalWireEntry.wireSize, List.length_append, writeU64, writeI32, writeU32, length_le,
    hstring _ htable, hstring _ hpk, hstring _ hop, hstring _ hold, hstring _ hnew, hstring _ hsum, hstring _ hbatch]
  omega

theorem fitsWire_of_wireSize {frame : JournalBatchFrame}
    (h : 20 + (frame.entries.map JournalWireEntry.wireSize).sum < 2 ^ 32) : frame.FitsWire := by
  have hentry : ∀ e ∈ frame.entries, e.wireSize < 2 ^ 32 := by
    intro e he
    have hle := List.le_sum_of_mem (List.mem_map_of_mem (f := JournalWireEntry.wireSize) he)
    omega
  have hcount : frame.entries.length ≤ (frame.entries.map JournalWireEntry.wireSize).sum := by
    rw [← frame.entries.length_map (f := JournalWireEntry.wireSize)]
    apply List.length_le_sum_of_one_le
    intro size hsize
    obtain ⟨e, -, rfl⟩ := List.mem_map.mp hsize
    simp only [JournalWireEntry.wireSize]
    omega
  have hpayload : (frame.entries.flatMap writeEntry).length ≤ (frame.entries.map JournalWireEntry.wireSize).sum := by
    rw [List.length_flatMap]
    exact List.sum_le_sum fun e _ => length_writeEntry_le e
  refine ⟨fun e he => ?_, by omega, ?_⟩
  · have hsize := hentry e he
    simp only [JournalWireEntry.wireSize] at hsize
    refine ⟨?_, ?_, ?_, ?_, ?_, ?_, ?_⟩ <;> omega
  · simp only [batchPayload, List.length_append, writeU64, writeU32, length_le]
    omega

theorem reads_entry {e : JournalWireEntry} (h : e.FitsWire) : Reads readEntryFields (writeEntry e) e := by
  obtain ⟨htable, hpk, hop, hold, hnew, hsum, hbatch⟩ := h
  apply (reads_u64 _).andThen
  apply (reads_u64 _).andThen
  apply (reads_u32 _).andThen
  apply (reads_u32 _).andThen
  apply (reads_string htable).andThen
  apply (reads_string hpk).andThen
  apply (reads_string hop).andThen
  apply (reads_string hold).andThen
  apply (reads_string hnew).andThen
  apply (reads_string hsum).andThen
  apply (reads_i32 _).andThen
  exact (reads_string hbatch).map _

theorem reads_frame {frame : JournalBatchFrame} (h : frame.FitsWire) :
    Reads readFrame (batchPayload frame) frame := by
  apply (reads_u64 _).andThen
  apply (reads_u64 _).andThen
  apply (reads_u32 _).andThen
  rw [toNat_ofNat_size h.count]
  exact (reads_many fun e he => reads_entry (h.entries e he)).map _

theorem reads_header (h : BatchHeader) : Reads readHeader (writeHeader h) h := by
  apply (reads_u8 _).andThen
  apply (reads_u32 _).andThen
  exact (reads_u32 _).map _

theorem parseBatchPayload_batchPayload {frame : JournalBatchFrame} (h : frame.FitsWire) :
    parseBatchPayload (batchPayload frame) = some frame := by
  have hread := reads_frame h []
  rw [List.append_nil] at hread
  simp [parseBatchPayload, hread]

theorem decode_encodeJournalBatch {lz4 : Lz4} (hlz4 : lz4.RoundTrips) {frame : JournalBatchFrame}
    (h : frame.FitsWire) : decodeJournalBatch lz4 (encodeJournalBatch lz4 frame) = some frame := by
  have hparse := parseBatchPayload_batchPayload h
  have hpayload := h.payload
  simp only [decodeJournalBatch, encodeJournalBatch]
  rw [reads_header, Option.bind_some]
  cases hc : (lz4.compress (batchPayload frame)).filter
      (fun c => c.length < (batchPayload frame).length) with
  | none =>
    simp only [Option.getD_none, toNat_ofNat_size hpayload]
    simpa using hparse
  | some compressed =>
    obtain ⟨hcompress, hshorter⟩ := Option.filter_eq_some_iff.mp hc
    have hshort : compressed.length < 2 ^ 32 := (of_decide_eq_true hshorter).trans hpayload
    have hflag : kCompressedFlag ≠ 0 := by decide
    simp only [Option.getD_some, toNat_ofNat_size hshort, toNat_ofNat_size hpayload]
    simp [hflag, hlz4 _ _ hpayload hcompress, hparse]

theorem readEntryFields_eq_some {bytes rest : Bytes} {e : JournalWireEntry}
    (h : readEntryFields bytes = some (e, rest)) : bytes = writeEntry e ++ rest ∧ e.FitsWire := by
  obtain ⟨seq, _, hseq, h⟩ := Reader.andThen_eq_some.mp h
  obtain ⟨wall, _, hwall, h⟩ := Reader.andThen_eq_some.mp h
  obtain ⟨counter, _, hcounter, h⟩ := Reader.andThen_eq_some.mp h
  obtain ⟨site, _, hsite, h⟩ := Reader.andThen_eq_some.mp h
  obtain ⟨table, _, htable, h⟩ := Reader.andThen_eq_some.mp h
  obtain ⟨pk, _, hpk, h⟩ := Reader.andThen_eq_some.mp h
  obtain ⟨op, _, hop, h⟩ := Reader.andThen_eq_some.mp h
  obtain ⟨old, _, hold, h⟩ := Reader.andThen_eq_some.mp h
  obtain ⟨new, _, hnew, h⟩ := Reader.andThen_eq_some.mp h
  obtain ⟨sum, _, hsum, h⟩ := Reader.andThen_eq_some.mp h
  obtain ⟨applied, _, happlied, h⟩ := Reader.andThen_eq_some.mp h
  obtain ⟨batch, hbatch, rfl⟩ := Reader.map_eq_some.mp h
  obtain ⟨rfl, htableFits⟩ := readString_eq_some htable
  obtain ⟨rfl, hpkFits⟩ := readString_eq_some hpk
  obtain ⟨rfl, hopFits⟩ := readString_eq_some hop
  obtain ⟨rfl, holdFits⟩ := readString_eq_some hold
  obtain ⟨rfl, hnewFits⟩ := readString_eq_some hnew
  obtain ⟨rfl, hsumFits⟩ := readString_eq_some hsum
  obtain ⟨rfl, hbatchFits⟩ := readString_eq_some hbatch
  refine ⟨?_, htableFits, hpkFits, hopFits, holdFits, hnewFits, hsumFits, hbatchFits⟩
  rw [canonical_u64 hseq, canonical_u64 hwall, canonical_u32 hcounter, canonical_u32 hsite, canonical_i32 happlied]
  simp only [writeEntry, List.append_assoc]

theorem parseBatchPayload_eq_some {payload : Bytes} {frame : JournalBatchFrame}
    (h : parseBatchPayload payload = some frame) :
    payload = batchPayload frame ∧ (∀ e ∈ frame.entries, e.FitsWire) ∧ frame.entries.length < 2 ^ 32 := by
  obtain ⟨⟨f, rest⟩, hread, hrest⟩ := Option.bind_eq_some_iff.mp h
  rw [Option.ite_none_right_eq_some, Option.some_inj] at hrest
  obtain ⟨rfl, rfl⟩ := hrest
  obtain ⟨fromSeq, _, hfrom, hread⟩ := Reader.andThen_eq_some.mp hread
  obtain ⟨toSeq, _, hto, hread⟩ := Reader.andThen_eq_some.mp hread
  obtain ⟨count, _, hcount, hread⟩ := Reader.andThen_eq_some.mp hread
  obtain ⟨entries, hentries, rfl⟩ := Reader.map_eq_some.mp hread
  obtain ⟨hlength, hfits⟩ := readMany_forall (fun _ _ _ h => (readEntryFields_eq_some h).2) hentries
  refine ⟨?_, hfits, by simpa [hlength] using count.toNat_lt⟩
  rw [canonical_u64 hfrom, canonical_u64 hto, canonical_u32 hcount,
    canonical_many (fun _ _ _ h => (readEntryFields_eq_some h).1) _ hentries]
  simp [batchPayload, hlength]

theorem fitsWire_of_decode {lib : Lz4Library} {bytes : Bytes} {frame : JournalBatchFrame}
    (h : decodeJournalBatch lib.lz4 bytes = some frame) : frame.FitsWire := by
  obtain ⟨⟨⟨flags, uncompressedSize, payloadSize⟩, payload⟩, -, hbody⟩ := Option.bind_eq_some_iff.mp h
  rw [Option.ite_none_left_eq_some] at hbody
  obtain ⟨hsize, hbody⟩ := hbody
  have hfits : ∀ p : Bytes, p.length < 2 ^ 32 → parseBatchPayload p = some frame → frame.FitsWire := by
    intro p hp hparse
    obtain ⟨rfl, hentries, hcount⟩ := parseBatchPayload_eq_some hparse
    exact ⟨hentries, hcount, hp⟩
  split_ifs at hbody
  · obtain ⟨p, hp, hparse⟩ := Option.bind_eq_some_iff.mp hbody
    have hlength : p.length = uncompressedSize.toNat :=
      of_decide_eq_true (Option.filter_eq_some_iff.mp hp).2
    apply hfits p _ hparse
    rw [hlength]
    exact uncompressedSize.toNat_lt
  · apply hfits payload _ hbody
    rw [not_not.mp hsize]
    exact payloadSize.toNat_lt

theorem journalBatch_roundTrips {lib : Lz4Library} (hlib : lib.Documented) :
    (∀ frame : JournalBatchFrame, frame.FitsWire →
      decodeJournalBatch lib.lz4 (encodeJournalBatch lib.lz4 frame) = some frame) ∧
    ∀ (bytes : Bytes) (frame : JournalBatchFrame), decodeJournalBatch lib.lz4 bytes = some frame →
      decodeJournalBatch lib.lz4 (encodeJournalBatch lib.lz4 frame) = some frame := by
  refine ⟨fun frame hframe => ?_, fun bytes frame hdecode => ?_⟩
  · exact decode_encodeJournalBatch hlib.roundTrips hframe
  · exact decode_encodeJournalBatch hlib.roundTrips (fitsWire_of_decode hdecode)

def lz4LibraryOn (payload block : Bytes) : Lz4Library where
  compressBound size := if size < 0 ∨ Int32.ofNat kLz4MaxInputSize < size then 0 else size + size / 255 + 16
  compressDefault src _ _ := if src = payload then some block else none
  decompressSafe src _ _ := if src = block then some payload else none

theorem lz4LibraryOn_documented (payload block : Bytes) : (lz4LibraryOn payload block).Documented := by
  refine ⟨fun size hsize => if_pos hsize, fun src dstCapacity compressed _ h => ?_⟩
  obtain ⟨rfl, rfl⟩ : src = payload ∧ block = compressed := by simpa [lz4LibraryOn] using h
  simp [lz4LibraryOn]

def deleteBatch : JournalBatchFrame :=
  ⟨0, 1, [⟨1, 100, 1, 7, ofString "accounts", ofString "1", ofString "DELETE", [], [], [], -1, []⟩]⟩

def deleteBatchLz4 : Bytes :=
  [19, 0, 1, 0, 23, 1, 8, 0, 4, 12, 0, 23, 100, 20, 0, 240, 1, 7, 0, 0, 0, 8, 0, 0, 0, 97, 99, 99, 111, 117, 110,
    116, 115, 36, 0, 179, 49, 6, 0, 0, 0, 68, 69, 76, 69, 84, 69, 42, 0, 1, 2, 0, 128, 255, 255, 255, 255, 0, 0, 0, 0]

theorem journalBatch_roundTrips_deleteBatch :
    let lz4 := (lz4LibraryOn (batchPayload deleteBatch) deleteBatchLz4).lz4
    let raw := writeHeader ⟨2, 7, 91⟩ ++ batchPayload deleteBatch
    deleteBatch.FitsWire ∧ (encodeJournalBatch lz4 deleteBatch).length = 70 ∧
      decodeJournalBatch lz4 (encodeJournalBatch lz4 deleteBatch) = some deleteBatch ∧
      raw ≠ encodeJournalBatch lz4 deleteBatch ∧ decodeJournalBatch lz4 raw = some deleteBatch ∧
      decodeJournalBatch lz4 (encodeJournalBatch lz4 deleteBatch) = some deleteBatch := by
  have hdoc := lz4LibraryOn_documented (batchPayload deleteBatch) deleteBatchLz4
  have hfits : deleteBatch.FitsWire := fitsWire_of_wireSize (by decide)
  have hraw : decodeJournalBatch (lz4LibraryOn (batchPayload deleteBatch) deleteBatchLz4).lz4
      (writeHeader ⟨2, 7, 91⟩ ++ batchPayload deleteBatch) = some deleteBatch := by decide +kernel
  exact ⟨hfits, by decide +kernel, (journalBatch_roundTrips hdoc).1 _ hfits, by decide +kernel, hraw,
    (journalBatch_roundTrips hdoc).2 _ _ hraw⟩

end Tightrope.Sync
