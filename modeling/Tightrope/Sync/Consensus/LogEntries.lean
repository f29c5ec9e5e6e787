import Mathlib.Algebra.Order.BigOperators.Group.List
import Tightrope.Core.JsonText
import Tightrope.Sync.Consensus.RaftStorage

namespace Tightrope.Sync.Consensus

section Text

open Bytes Tightrope.Core JsonBytes

structure LogEntryData where
  tableName : Bytes
  rowPk : Bytes
  op : Bytes
  values : Bytes
  checksum : Bytes
  deriving DecidableEq, Repr

def serializeLogEntry (data : LogEntryData) : Bytes :=
  ofString "\x7b" ++ ofString "\"table_name\":" ++ quoteJsonString data.tableName ++ ofString "," ++
    ofString "\"row_pk\":" ++ quoteJsonString data.rowPk ++ ofString "," ++
    ofString "\"op\":" ++ quoteJsonString data.op ++ ofString "," ++
    ofString "\"values\":" ++ quoteJsonString data.values ++ ofString "," ++
    ofString "\"checksum\":" ++ quoteJsonString data.checksum ++ ofString "\x7d"

theorem serializeLogEntry_injective : Function.Injective serializeLogEntry := by
  intro data data' h
  simp only [serializeLogEntry, List.append_assoc] at h
  obtain ⟨htable, h⟩ := quoteJsonString_append_inj (List.append_cancel_left (List.append_cancel_left h))
  obtain ⟨hpk, h⟩ := quoteJsonString_append_inj (List.append_cancel_left (List.append_cancel_left h))
  obtain ⟨hop, h⟩ := quoteJsonString_append_inj (List.append_cancel_left (List.append_cancel_left h))
  obtain ⟨hvalues, h⟩ := quoteJsonString_append_inj (List.append_cancel_left (List.append_cancel_left h))
  obtain ⟨hchecksum, -⟩ := quoteJsonString_append_inj (List.append_cancel_left (List.append_cancel_left h))
  cases data
  cases data'
  subst htable hpk hop hvalues hchecksum
  rfl

/-- Quoting is safe and is undone by reading, so a log entry's text tells its fields; sanitizing turns a text that is
JSON but for control bytes in its strings into one without them. -/
theorem quoted_texts_tell_their_fields :
    (∀ s, (∀ b ∈ quoteJsonString s, 0x20 ≤ b) ∧
      (∀ before after, quoteJsonString s = before ++ 34 :: after →
        (escapesNext before = false ↔ before = [] ∨ after = [])) ∧
      readString (quoteJsonString s) = some (s, [])) ∧
    Function.Injective serializeLogEntry ∧
    ∀ j, sanitizeSerializedJson (sanitizeSerializedJson j) = sanitizeSerializedJson j ∧
      (IsTextWithRawControls j →
        IsText (sanitizeSerializedJson j) ∧ hasRawControl .outside (sanitizeSerializedJson j) = false) := by
  refine ⟨fun s => ⟨fun b hb => le_of_mem_quoteJsonString hb, fun before after h => unescaped_quote_iff h, ?_⟩,
    serializeLogEntry_injective, fun j => ⟨sanitizeText_sanitizeText .outside j, isText_sanitizeSerializedJson⟩⟩
  have hread := readString_quoteJsonString s []
  rwa [List.append_nil] at hread

theorem line_feed_after_escaped_quote :
    IsText (sanitizeSerializedJson [34, 92, 34, 10, 34]) ∧
      sanitizeSerializedJson [34, 92, 34, 10, 34] = [34, 92, 34, 92, 110, 34] := by
  refine ⟨((quoted_texts_tell_their_fields.2.2 _).2 ?_).1, by decide⟩
  have hspace : JsonBytes.IsSpace [] := fun b hb => absurd hb List.not_mem_nil
  have hliteral : IsLiteral (fun _ => True) [34, 92, 34, 10, 34] := by
    refine ⟨[[92, 34], [10]], rfl, ?_⟩
    rw [List.forall_mem_cons, List.forall_mem_singleton]
    exact ⟨.escaped (by decide), .unescaped trivial (by decide) (by decide)⟩
  exact .text hspace (.string hliteral) hspace

end Text

section Packs

open WireCodec SqliteRaftStorage

section Format

variable (lib : RaftLibraries)

def packEntry (entry : LogEntry) : Bytes :=
  writeI32 (Int32.ofNat (lib.serialize entry).length) ++ lib.serialize entry

def packSize (entries : List LogEntry) : ℕ :=
  4 + 4 * entries.length + (entries.map fun entry => (lib.serialize entry).length).sum

theorem packBytes_eq (entries : List LogEntry) :
    packBytes lib entries = writeI32 (Int32.ofNat entries.length) ++ entries.flatMap (packEntry lib) := by
  rw [packBytes, List.flatMap_map]
  rfl

structure LogPack where
  entries : List LogEntry
  fits : packSize lib entries ≤ lib.maxBufferBytes

variable {lib}

theorem toInt_ofNat_int32 {n : ℕ} (h : n < 2 ^ 31) : (Int32.ofNat n).toInt = n :=
  Int32.toInt_ofNat_of_lt h

theorem length_serialize_le {entries : List LogEntry} {entry : LogEntry} (h : entry ∈ entries) :
    (lib.serialize entry).length ≤ packSize lib entries := by
  have hmem : (lib.serialize entry).length ∈ entries.map fun entry => (lib.serialize entry).length :=
    List.mem_map_of_mem h
  have hle := List.single_le_sum (fun _ _ => Nat.zero_le _) _ hmem
  rw [packSize]
  omega

theorem length_lt_of_packSize (hlib : lib.Documented) {entries : List LogEntry}
    (h : packSize lib entries ≤ lib.maxBufferBytes) : entries.length < 2 ^ 31 := by
  have hbytes := hlib.bufferBytes
  rw [packSize] at h
  omega

theorem reads_packEntry (hlib : lib.Documented) {entry : LogEntry}
    (h : (lib.serialize entry).length ≤ lib.maxBufferBytes) :
    Reads (readPackEntry lib) (packEntry lib entry) entry := by
  intro rest
  have hlt : (lib.serialize entry).length < 2 ^ 31 := h.trans_lt hlib.bufferBytes
  have hsize := toInt_ofNat_int32 hlt
  have hvalid : ¬ (Int32.ofNat (lib.serialize entry).length < 0 ∨
      (Int32.ofNat (lib.serialize entry).length).toInt > lib.maxBufferBytes) := by
    rw [Int32.lt_iff_toInt_lt, hsize, Int32.toInt_zero]
    omega
  rw [readPackEntry, packEntry, List.append_assoc, reads_i32, Option.bind_some]
  simp only
  rw [if_neg hvalid, hsize, Int.toNat_natCast, reads_raw, Option.bind_some]
  simp only
  rw [hlib.restores, Option.map_some]

end Format

section Apply

variable (lib : RaftLibraries) (faults : StorageFaults)

def upsertAll : UInt64 → List LogEntry → SqliteRaftStorage → Option SqliteRaftStorage
  | _, [], s => some s
  | current, entry :: entries, s => (upsertLog lib faults s current entry).bind (upsertAll (current + 1) entries)

variable {lib faults}

theorem upsertPacked_eq_some (hlib : lib.Documented) {entries : List LogEntry}
    (hsize : ∀ entry ∈ entries, (lib.serialize entry).length ≤ lib.maxBufferBytes) {index : UInt64}
    {s t : SqliteRaftStorage} :
    upsertPacked lib faults entries.length index (entries.flatMap (packEntry lib)) s = some (t, true) ↔
      upsertAll lib faults index entries s = some t := by
  induction entries generalizing index s with
  | nil => simp [upsertPacked, upsertAll]
  | cons entry entries ih =>
    have hread := reads_packEntry hlib (hsize entry List.mem_cons_self)
    rw [List.length_cons, List.flatMap_cons, upsertPacked, hread, Option.bind_some, upsertAll]
    simp only
    cases upsertLog lib faults s index entry with
    | none => simp
    | some u => exact ih fun e he => hsize e (List.mem_cons_of_mem _ he)

def packStart (s : SqliteRaftStorage) : UInt64 :=
  match s.readMinLogIndex with
  | some minIndex => if minIndex > 0 then minIndex else 1
  | none => 1

theorem applyPack_eq_some (hlib : lib.Documented) {entries : List LogEntry}
    (hsize : packSize lib entries ≤ lib.maxBufferBytes) {index : UInt64} {s t : SqliteRaftStorage} :
    applyPack lib faults s index (packBytes lib entries) = some t ↔
      (¬ faults.beginFails ∧ ¬ (faults.metaFails ∨ faults.commitFails)) ∧
        ∃ u, upsertAll lib faults index entries s = some u ∧
          t = { u with metaLogStartIndex := some (packStart u) } := by
  have hcount := toInt_ofNat_int32 (length_lt_of_packSize hlib hsize)
  have hentries : ∀ entry ∈ entries, (lib.serialize entry).length ≤ lib.maxBufferBytes :=
    fun entry he => (length_serialize_le he).trans hsize
  rw [applyPack, packBytes_eq, Option.ite_none_left_eq_some, reads_i32, Option.bind_some, and_assoc]
  apply and_congr_right
  intro _
  simp only [hcount, Int.toNat_natCast, Option.bind_eq_some_iff, Prod.exists]
  constructor
  · rintro ⟨u, ok, hu, ht⟩
    rw [Option.ite_none_left_eq_some, not_not] at ht
    obtain ⟨rfl, ht⟩ := ht
    rw [Option.ite_none_left_eq_some, Option.some_inj] at ht
    exact ⟨ht.1, u, (upsertPacked_eq_some hlib hentries).mp hu, ht.2.symm⟩
  · rintro ⟨hok, u, hu, rfl⟩
    refine ⟨u, true, (upsertPacked_eq_some hlib hentries).mpr hu, ?_⟩
    rw [if_neg (by simp), if_neg hok]
    rfl

end Apply

end Packs

end Tightrope.Sync.Consensus
