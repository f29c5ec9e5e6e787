import Tightrope.Library.Fallible
import Tightrope.Sync.SyncProtocol

namespace Tightrope.Sync

open Bytes MachineWords WireCodec

inductive Allocation where
  | payload (size present : ℕ)
  | decompressed (size compressed : ℕ)
  | entries (capacity present : ℕ)
  | text (size present : ℕ)
  deriving DecidableEq

def minEntrySize : ℕ := 56

def Allocation.Bounded (slack : ℕ) : Allocation → Prop
  | .payload size present => size ≤ present
  | .decompressed size compressed => size ≤ 255 * compressed + slack
  | .entries capacity present => capacity ≤ present / minEntrySize
  | .text size present => size ≤ present

abbrev TracedReader (α : Type) := Bytes → Traced Allocation (α × Bytes)

namespace TracedReader

variable {α β : Type}

def lift (read : Reader α) : TracedReader α := fun bs => .lift (read bs)

def andThen (read : TracedReader α) (next : α → TracedReader β) : TracedReader β := fun bs =>
  (read bs).bind fun r => next r.1 r.2

def map (f : α → β) (read : TracedReader α) : TracedReader β := read.andThen fun a => lift fun bs => some (f a, bs)

end TracedReader

open TracedReader

-- `out.resize(size)` after the check against the input.
def readStringTraced : TracedReader Bytes :=
  (lift readU32).andThen fun size bs =>
    if size.toNat ≤ bs.length then (Traced.note (.text size.toNat bs.length)).bind fun _ =>
      .lift (readRaw size.toNat bs)
    else .lift none

def readEntryTraced : TracedReader JournalWireEntry :=
  (lift readU64).andThen fun seq => (lift readU64).andThen fun hlcWall => (lift readU32).andThen fun hlcCounter =>
  (lift readU32).andThen fun siteId => readStringTraced.andThen fun tableName => readStringTraced.andThen fun rowPk =>
  readStringTraced.andThen fun op => readStringTraced.andThen fun oldValues => readStringTraced.andThen fun newValues =>
  readStringTraced.andThen fun checksum => (lift readI32).andThen fun applied => readStringTraced.map fun batchId =>
    ⟨seq, hlcWall, hlcCounter, siteId, tableName, rowPk, op, oldValues, newValues, checksum, applied, batchId⟩

def readManyTraced {α : Type} (read : TracedReader α) : ℕ → TracedReader (List α)
  | 0 => lift fun bs => some ([], bs)
  | n + 1 => read.andThen fun a => (readManyTraced read n).map (a :: ·)

structure BatchPrefix where
  fromSeq : UInt64
  toSeq : UInt64
  count : UInt32

def readPrefix : Reader BatchPrefix :=
  readU64.andThen fun fromSeq => readU64.andThen fun toSeq => readU32.map fun count => ⟨fromSeq, toSeq, count⟩

-- `batch.entries.reserve(count)` comes before the first entry is read.
def readFrameTraced : TracedReader JournalBatchFrame :=
  (lift readPrefix).andThen fun p bs => (Traced.note (.entries p.count.toNat bs.length)).bind fun _ =>
    ((readManyTraced readEntryTraced p.count.toNat).map fun entries => ⟨p.fromSeq, p.toSeq, entries⟩) bs

def parseBatchPayloadTraced (payload : Bytes) : Traced Allocation JournalBatchFrame :=
  (readFrameTraced payload).bind fun r => .lift (if r.2 = [] then some r.1 else none)

-- `std::vector<std::uint8_t> out(uncompressed_size)`
def decompressTraced (lz4 : Lz4) (payload : Bytes) (uncompressedSize : ℕ) : Traced Allocation Bytes :=
  (Traced.note (.decompressed uncompressedSize payload.length)).bind fun _ =>
    .lift (lz4.decompress payload uncompressedSize)

def decodeJournalBatchTraced (lz4 : Lz4) (bytes : Bytes) : Traced Allocation JournalBatchFrame :=
  (Traced.lift (readHeader bytes)).bind fun (⟨flags, uncompressedSize, payloadSize⟩, payload) =>
    if payload.length ≠ payloadSize.toNat then .lift none
    else (Traced.note (.payload payloadSize.toNat payload.length)).bind fun _ =>
      if flags &&& kCompressedFlag ≠ 0 then
        (decompressTraced lz4 payload uncompressedSize.toNat).bind parseBatchPayloadTraced
      else parseBatchPayloadTraced payload

section Readers

variable {α β : Type} {slack : ℕ}

structure Follows (slack : ℕ) (traced : TracedReader α) (read : Reader α) : Prop where
  result : ∀ bs, (traced bs).result = read bs
  bounded : ∀ bs, (traced bs).Notes (Allocation.Bounded slack)

theorem follows_lift (slack : ℕ) (read : Reader α) : Follows slack (lift read) read :=
    ⟨fun _ => rfl, fun _ => Traced.notes_lift _⟩

theorem Follows.andThen {traced : TracedReader α} {read : Reader α} {next : α → TracedReader β} {next' : α → Reader β}
    (h : Follows slack traced read) (h' : ∀ a, Follows slack (next a) (next' a)) :
    Follows slack (traced.andThen next) (read.andThen next') := by
  constructor
  · intro bs
    rw [TracedReader.andThen, Traced.result_bind, h.result, Reader.andThen]
    simp only [(h' _).result]
  · intro bs
    rw [TracedReader.andThen, Traced.notes_bind]
    exact ⟨h.bounded bs, fun r _ => (h' r.1).bounded r.2⟩

theorem Follows.map {traced : TracedReader α} {read : Reader α} (h : Follows slack traced read) (f : α → β) :
    Follows slack (traced.map f) (Reader.map f read) := by
  have hmap : Reader.map f read = read.andThen fun a => fun bs => some (f a, bs) := by
    funext bs
    simp [Reader.map, Reader.andThen, Option.map_eq_bind]
  rw [hmap]
  exact h.andThen fun a => follows_lift slack _

theorem follows_readString (slack : ℕ) : Follows slack readStringTraced readString := by
  apply (follows_lift slack readU32).andThen
  intro size
  constructor
  · intro bs
    split_ifs with hle
    · rfl
    · simp [readRaw, hle]
  · intro bs
    split_ifs with hle
    · rw [Traced.notes_bind, Traced.notes_note]
      exact ⟨hle, fun _ _ => Traced.notes_lift _⟩
    · exact Traced.notes_lift _

theorem follows_readEntry (slack : ℕ) : Follows slack readEntryTraced readEntryFields := by
  apply (follows_lift slack readU64).andThen fun seq => ?_
  apply (follows_lift slack readU64).andThen fun hlcWall => ?_
  apply (follows_lift slack readU32).andThen fun hlcCounter => ?_
  apply (follows_lift slack readU32).andThen fun siteId => ?_
  apply (follows_readString slack).andThen fun tableName => ?_
  apply (follows_readString slack).andThen fun rowPk => ?_
  apply (follows_readString slack).andThen fun op => ?_
  apply (follows_readString slack).andThen fun oldValues => ?_
  apply (follows_readString slack).andThen fun newValues => ?_
  apply (follows_readString slack).andThen fun checksum => ?_
  apply (follows_lift slack readI32).andThen fun applied => ?_
  exact (follows_readString slack).map _

theorem follows_readMany {traced : TracedReader α} {read : Reader α} (h : Follows slack traced read) (n : ℕ) :
    Follows slack (readManyTraced traced n) (readMany read n) := by
  induction n with
  | zero => exact follows_lift slack _
  | succ n ih => exact h.andThen fun a => ih.map _

theorem readFrame_eq : readFrame = readPrefix.andThen fun p =>
    Reader.map (fun entries => ⟨p.fromSeq, p.toSeq, entries⟩) (readMany readEntryFields p.count.toNat) := by
  funext bs
  simp [readFrame, readPrefix, Reader.andThen, Reader.map, Option.bind_assoc, Option.bind_map]

theorem result_readFrameTraced (bs : Bytes) : (readFrameTraced bs).result = readFrame bs := by
  have hentries : ∀ n, Follows 0 (readManyTraced readEntryTraced n) (readMany readEntryFields n) :=
    follows_readMany (follows_readEntry 0)
  rw [readFrame_eq, readFrameTraced, TracedReader.andThen, Traced.result_bind, Reader.andThen]
  simp [TracedReader.lift, ((hentries _).map _).result]

theorem notes_readFrameTraced (slack : ℕ) (bs : Bytes) : (readFrameTraced bs).Notes (Allocation.Bounded slack) ↔
    ∀ p rest, readPrefix bs = some (p, rest) → p.count.toNat ≤ rest.length / minEntrySize := by
  have hentries : ∀ n, Follows slack (readManyTraced readEntryTraced n) (readMany readEntryFields n) :=
    follows_readMany (follows_readEntry slack)
  rw [readFrameTraced, TracedReader.andThen, Traced.notes_bind, Prod.forall]
  simp [TracedReader.lift, ((hentries _).map _).bounded, Allocation.Bounded]

end Readers

section Decode

variable {lz4 : Lz4} {slack : ℕ} {payload : Bytes}

def BatchHeader.compressed (header : BatchHeader) : Bool := header.flags &&& kCompressedFlag ≠ 0

def payloadText (lz4 : Lz4) (header : BatchHeader) (payload : Bytes) : Option Bytes :=
  if header.compressed then lz4.decompress payload header.uncompressedSize.toNat else some payload

def CountPresent (text : Bytes) : Prop :=
  ∀ p rest, readPrefix text = some (p, rest) → p.count.toNat ≤ rest.length / minEntrySize

/-- The sizes in the header and the count in the prefix announce no more than the bytes that follow can hold. -/
def AnnouncesPresent (slack : ℕ) (lz4 : Lz4) (bytes : Bytes) : Prop :=
  ∀ header payload, readHeader bytes = some (header, payload) → payload.length = header.payloadSize.toNat →
    (header.compressed = true → header.uncompressedSize.toNat ≤ 255 * payload.length + slack) ∧
      ∀ text, payloadText lz4 header payload = some text → CountPresent text

theorem result_parseBatchPayloadTraced (payload : Bytes) :
    (parseBatchPayloadTraced payload).result = parseBatchPayload payload := by
  rw [parseBatchPayloadTraced, Traced.result_bind, result_readFrameTraced]
  rfl

theorem notes_parseBatchPayloadTraced :
    (parseBatchPayloadTraced payload).Notes (Allocation.Bounded slack) ↔ CountPresent payload := by
  rw [parseBatchPayloadTraced, Traced.notes_bind, notes_readFrameTraced]
  simp [CountPresent]

theorem result_decodeJournalBatchTraced (lz4 : Lz4) (bytes : Bytes) :
    (decodeJournalBatchTraced lz4 bytes).result = decodeJournalBatch lz4 bytes := by
  rw [decodeJournalBatchTraced, Traced.result_bind, Traced.result_lift, decodeJournalBatch]
  congr 1
  funext frame
  obtain ⟨⟨flags, uncompressedSize, payloadSize⟩, payload⟩ := frame
  dsimp only
  split_ifs
  · rfl
  · simp [decompressTraced, result_parseBatchPayloadTraced]
  · simp [result_parseBatchPayloadTraced]

/-- Decoding asks for memory within the bounds exactly for the inputs that announce no more than they hold. -/
theorem decode_memory_bounded_iff (slack : ℕ) (lz4 : Lz4) (bytes : Bytes) :
    (decodeJournalBatchTraced lz4 bytes).result = decodeJournalBatch lz4 bytes ∧
      ((decodeJournalBatchTraced lz4 bytes).Notes (Allocation.Bounded slack) ↔ AnnouncesPresent slack lz4 bytes) := by
  refine ⟨result_decodeJournalBatchTraced lz4 bytes, ?_⟩
  rw [decodeJournalBatchTraced, Traced.notes_bind, Traced.result_lift, and_iff_right (Traced.notes_lift _), Prod.forall,
    AnnouncesPresent]
  apply forall_congr'
  rintro ⟨flags, uncompressedSize, payloadSize⟩
  apply forall_congr'
  intro payload
  apply imp_congr_right
  intro _
  dsimp only
  split_ifs with hsize hflag
  · exact iff_of_true (Traced.notes_lift _) fun heq => absurd heq hsize
  · have hcompressed : BatchHeader.compressed ⟨flags, uncompressedSize, payloadSize⟩ = true := by
      simp [BatchHeader.compressed, hflag]
    rw [forall_prop_of_true (not_not.mp hsize), payloadText, if_pos hcompressed, forall_prop_of_true hcompressed]
    simp [decompressTraced, Allocation.Bounded, notes_parseBatchPayloadTraced, not_not.mp hsize]
  · have hplain : ¬ BatchHeader.compressed ⟨flags, uncompressedSize, payloadSize⟩ = true := by
      simpa [BatchHeader.compressed] using hflag
    rw [forall_prop_of_true (not_not.mp hsize), payloadText, if_neg hplain]
    simp [hplain, Allocation.Bounded, notes_parseBatchPayloadTraced, not_not.mp hsize]

end Decode

def announcedEntries : Bytes := writeU64 0 ++ (writeU64 0 ++ writeU32 (UInt32.ofNat (2 ^ 32 - 1)))

def announcedExpansion : Bytes := writeHeader ⟨1, UInt32.ofNat (2 ^ 32 - 1), 1⟩ ++ [0]

/-- A batch of 29 bytes reserves room for 2^32 - 1 entries, whatever the slack; one of 10 bytes makes a buffer of
2^32 - 1 bytes, for every slack below that less 255. -/
theorem short_batches_ask_for_4GiB :
    (∀ slack lz4, ¬ (decodeJournalBatchTraced lz4 (writeHeader ⟨0, 20, 20⟩ ++ announcedEntries)).Notes
      (Allocation.Bounded slack)) ∧
    ∀ slack lz4, slack < 2 ^ 32 - 256 →
      ¬ (decodeJournalBatchTraced lz4 announcedExpansion).Notes (Allocation.Bounded slack) := by
  constructor
  · intro slack lz4 hbounded
    rw [decodeJournalBatchTraced, Traced.notes_bind] at hbounded
    have hbody := hbounded.2 _ (reads_header ⟨0, 20, 20⟩ announcedEntries)
    have hsize : ¬ announcedEntries.length ≠ (20 : UInt32).toNat := by decide
    have hplain : ¬ (0 : UInt8) &&& kCompressedFlag ≠ 0 := by decide
    simp only [if_neg hsize, if_neg hplain, Traced.notes_bind] at hbody
    have hcount := notes_parseBatchPayloadTraced.mp (hbody.2 () rfl)
    have hprefix : readPrefix announcedEntries = some (⟨0, 0, UInt32.ofNat (2 ^ 32 - 1)⟩, []) := by rfl
    exact absurd (hcount _ _ hprefix) (by decide)
  · intro slack lz4 hslack hbounded
    rw [decodeJournalBatchTraced, Traced.notes_bind] at hbounded
    have hbody := hbounded.2 _ (reads_header ⟨1, UInt32.ofNat (2 ^ 32 - 1), 1⟩ [0])
    have hsize : ¬ ([0] : Bytes).length ≠ (1 : UInt32).toNat := by decide
    have hcompressed : (1 : UInt8) &&& kCompressedFlag ≠ 0 := by decide
    simp only [if_neg hsize, if_pos hcompressed, decompressTraced, Traced.notes_bind, Traced.notes_note] at hbody
    have hexpands : (UInt32.ofNat (2 ^ 32 - 1)).toNat ≤ 255 * ([0] : Bytes).length + slack := (hbody.2 () rfl).1.1
    rw [toNat_ofNat_size (by decide), List.length_singleton] at hexpands
    omega

end Tightrope.Sync
