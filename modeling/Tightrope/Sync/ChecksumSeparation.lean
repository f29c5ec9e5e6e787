import Tightrope.Library.Separators
import Tightrope.Sync.Handshake
import Tightrope.Sync.SyncProtocol

namespace Tightrope.Sync

open Bytes MachineWords WireCodec Separators

structure ChecksumFields where
  tableName : Bytes
  rowPk : Bytes
  op : Bytes
  oldValues : Bytes
  newValues : Bytes
  deriving DecidableEq

namespace ChecksumFields

def toList (f : ChecksumFields) : List Bytes := [f.tableName, f.rowPk, f.op, f.oldValues, f.newValues]

def checksum (sha256 : Bytes → Bytes) (f : ChecksumFields) : Bytes :=
  journalChecksum sha256 f.tableName f.rowPk f.op f.oldValues f.newValues

def SeparatorFree (f : ChecksumFields) : Prop := ∀ field ∈ f.toList, kFieldSeparator ∉ field

instance : DecidablePred SeparatorFree := fun f =>
  inferInstanceAs (Decidable (∀ field ∈ f.toList, kFieldSeparator ∉ field))

end ChecksumFields

def JournalWireEntry.checksumFields (e : JournalWireEntry) : ChecksumFields :=
  ⟨e.tableName, e.rowPk, e.op, e.oldValues, e.newValues⟩

def JournalWireEntry.withChecksumFields (e : JournalWireEntry) (f : ChecksumFields) : JournalWireEntry :=
  { e with
    tableName := f.tableName
    rowPk := f.rowPk
    op := f.op
    oldValues := f.oldValues
    newValues := f.newValues }

/-- Some wire batch decodes to a frame with an entry of these fields. -/
def Deliverable (lib : Lz4Library) (f : ChecksumFields) : Prop :=
  ∃ bytes frame, decodeJournalBatch lib.lz4 bytes = some frame ∧ ∃ e ∈ frame.entries, e.checksumFields = f

theorem journalPayload_eq_join (f : ChecksumFields) :
    journalPayload f.tableName f.rowPk f.op f.oldValues f.newValues = join kFieldSeparator f.toList := by
  simp [journalPayload, ChecksumFields.toList, join]

theorem hexEncode_injective : Function.Injective hexEncode := by
  intro a b h
  have hpairs := congrArg hexPairs h
  rw [hexPairs_hexEncode, hexPairs_hexEncode] at hpairs
  exact Option.some.inj hpairs

theorem checksum_eq_iff {sha256 : Bytes → Bytes} (hsha : Function.Injective sha256) {f g : ChecksumFields} :
    f.checksum sha256 = g.checksum sha256 ↔ join kFieldSeparator f.toList = join kFieldSeparator g.toList := by
  rw [← journalPayload_eq_join, ← journalPayload_eq_join]
  constructor
  · intro h
    exact hsha (hexEncode_injective h)
  · intro h
    rw [ChecksumFields.checksum, journalChecksum, h]
    rfl

theorem toList_injective : Function.Injective ChecksumFields.toList := by
  rintro ⟨t, k, o, old, new⟩ ⟨t', k', o', old', new'⟩ h
  simpa [ChecksumFields.toList] using h

theorem exists_toList {fields : List Bytes} (h : fields.length = 5) : ∃ f : ChecksumFields, f.toList = fields := by
  obtain ⟨t, k, o, old, new, rfl⟩ : ∃ t k o old new, fields = [t, k, o, old, new] := by
    match fields, h with
    | [t, k, o, old, new], _ => exact ⟨t, k, o, old, new, rfl⟩
  exact ⟨⟨t, k, o, old, new⟩, rfl⟩

section Delivery

variable {lib : Lz4Library} {f g : ChecksumFields}

theorem decode_uncompressed (lz4 : Lz4) {frame : JournalBatchFrame} (h : frame.FitsWire) :
    ∃ bytes, decodeJournalBatch lz4 bytes = some frame := by
  have hraw : Lz4.RoundTrips ⟨fun _ => none, lz4.decompress⟩ := by
    intro payload compressed _ hcompress
    cases hcompress
  exact ⟨_, decode_encodeJournalBatch hraw h⟩

theorem wireSize_withChecksumFields {e : JournalWireEntry} (he : e.checksumFields = f)
    (hlength : (join kFieldSeparator g.toList).length = (join kFieldSeparator f.toList).length) :
    (e.withChecksumFields g).wireSize = e.wireSize := by
  subst he
  have hnonempty : ∀ fields : ChecksumFields, fields.toList ≠ [] := fun _ => List.cons_ne_nil _ _
  have hf := length_join kFieldSeparator (hnonempty e.checksumFields)
  have hg := length_join kFieldSeparator (hnonempty g)
  rw [hlength] at hg
  simp only [ChecksumFields.toList, JournalWireEntry.checksumFields, List.map_cons, List.map_nil, List.sum_cons,
    List.sum_nil, List.length_cons, List.length_nil] at hf hg
  simp only [JournalWireEntry.wireSize, JournalWireEntry.withChecksumFields]
  omega

theorem wireSize_lt_of_fitsWire {frame : JournalBatchFrame} (h : frame.FitsWire) {e : JournalWireEntry}
    (he : e ∈ frame.entries) : 20 + e.wireSize < 2 ^ 32 := by
  have hpayload := h.payload
  have hentry : (writeEntry e).length ≤ (frame.entries.flatMap writeEntry).length := by
    rw [List.length_flatMap]
    exact List.le_sum_of_mem (List.mem_map_of_mem he)
  rw [length_writeEntry (h.entries e he)] at hentry
  simp only [batchPayload, List.length_append, writeU64, writeU32, length_le] at hpayload
  omega

theorem Deliverable.of_length (h : Deliverable lib f)
    (hlength : (join kFieldSeparator g.toList).length = (join kFieldSeparator f.toList).length) :
    Deliverable lib g := by
  obtain ⟨bytes, frame, hdecode, e, he, hfields⟩ := h
  have hsize := wireSize_lt_of_fitsWire (fitsWire_of_decode hdecode) he
  rw [← wireSize_withChecksumFields hfields hlength] at hsize
  have hfits : JournalBatchFrame.FitsWire ⟨frame.fromSeq, frame.toSeq, [e.withChecksumFields g]⟩ := by
    apply fitsWire_of_wireSize
    simpa using hsize
  obtain ⟨bytes', hdecode'⟩ := decode_uncompressed lib.lz4 hfits
  exact ⟨bytes', _, hdecode', e.withChecksumFields g, List.mem_singleton.mpr rfl, rfl⟩

end Delivery

/-- The checksum tells deliverable fields from all other deliverable ones exactly when none of them holds the
separator. -/
theorem checksum_separates_iff {lib : Lz4Library} {sha256 : Bytes → Bytes} (hsha : Function.Injective sha256)
    {f : ChecksumFields} (hf : Deliverable lib f) :
    (∀ g, Deliverable lib g → g.checksum sha256 = f.checksum sha256 → g = f) ↔ f.SeparatorFree := by
  have htwo : 2 ≤ f.toList.length := Nat.le_add_left 2 3
  rw [ChecksumFields.SeparatorFree, ← join_tells_apart_iff htwo]
  constructor
  · intro h fields hlength hjoin
    obtain ⟨g, rfl⟩ := exists_toList (hlength.trans rfl)
    have hg : Deliverable lib g := hf.of_length (congrArg List.length hjoin)
    exact congrArg ChecksumFields.toList (h g hg ((checksum_eq_iff hsha).mpr hjoin))
  · intro h g _ hsum
    exact toList_injective (h g.toList rfl ((checksum_eq_iff hsha).mp hsum))

def plainFields : ChecksumFields := ⟨ofString "accounts", ofString "1", ofString "UPDATE", ofString "a", ofString "b"⟩

def movedFields (atEnd : Bool) : ChecksumFields :=
  { plainFields with
    oldValues := if atEnd then ofString "a" ++ [kFieldSeparator] else ofString "a"
    newValues := if atEnd then ofString "b" else kFieldSeparator :: ofString "b" }

def fieldsFrame (f : ChecksumFields) : JournalBatchFrame :=
  ⟨0, 1, [JournalWireEntry.withChecksumFields ⟨1, 100, 1, 7, [], [], [], [], [], [], 1, []⟩ f]⟩

theorem deliverable_of_short (lib : Lz4Library) {f : ChecksumFields}
    (hsize : 20 + ((fieldsFrame f).entries.map JournalWireEntry.wireSize).sum < 2 ^ 32) : Deliverable lib f := by
  obtain ⟨bytes, hdecode⟩ := decode_uncompressed lib.lz4 (fitsWire_of_wireSize hsize)
  exact ⟨bytes, _, hdecode, _, List.mem_singleton.mpr rfl, rfl⟩

theorem injective_sampleSha256 : Function.Injective sampleSha256 := sha256On_injective (by decide) (by decide)

def sampleLz4 : Lz4Library := lz4LibraryOn (batchPayload deleteBatch) deleteBatchLz4

theorem checksum_separates_plainFields :
    Function.Injective sampleSha256 ∧ Deliverable sampleLz4 plainFields ∧
      ∀ g, Deliverable sampleLz4 g → g.checksum sampleSha256 = plainFields.checksum sampleSha256 → g = plainFields := by
  have hplain : Deliverable sampleLz4 plainFields := deliverable_of_short sampleLz4 (by decide)
  exact ⟨injective_sampleSha256, hplain, (checksum_separates_iff injective_sampleSha256 hplain).mpr (by decide)⟩

/-- Two rows that differ in their old and new values have one checksum, whatever the digest is. -/
theorem separator_moves_between_fields :
    Function.Injective sampleSha256 ∧ (∀ atEnd, Deliverable sampleLz4 (movedFields atEnd)) ∧
      movedFields true ≠ movedFields false ∧
      ∀ sha256, (movedFields true).checksum sha256 = (movedFields false).checksum sha256 := by
  refine ⟨injective_sampleSha256, fun atEnd => ?_, by decide, fun sha256 => rfl⟩
  cases atEnd <;> exact deliverable_of_short sampleLz4 (by decide)

end Tightrope.Sync
