import Tightrope.Library.NumberedRows
import Tightrope.Library.Runs
import Tightrope.Sync.Consensus.LogEntries

namespace Tightrope.Sync.Consensus

open MachineWords WireCodec Runs NumberedRows SqliteRaftStorage

section Keys

theorem rowKey_eq (index : UInt64) :
    rowKey index = if index.toNat < 2 ^ 63 then (index.toNat : ℤ) else index.toNat - 2 ^ 64 := toInt_toInt64 index

theorem toNat_rowIndex (key : ℤ) : (rowIndex key).toNat = (key % 2 ^ 64).toNat := by
  rw [rowIndex, UInt64.ofInt, UInt64.toNat_ofNat']
  omega

theorem rowIndex_rowKey (index : UInt64) : rowIndex (rowKey index) = index := by
  apply UInt64.toNat_inj.mp
  have hlt := index.toNat_lt
  rw [toNat_rowIndex, rowKey_eq]
  split_ifs <;> omega

theorem rowKey_rowIndex {key : ℤ} (hge : -2 ^ 63 ≤ key) (hlt : key < 2 ^ 63) : rowKey (rowIndex key) = key := by
  rw [rowKey_eq, toNat_rowIndex]
  split_ifs <;> omega

theorem ofInt_natCast (n : ℕ) : UInt64.ofInt n = UInt64.ofNat n := by
  apply UInt64.toNat_inj.mp
  rw [← rowIndex, toNat_rowIndex, UInt64.toNat_ofNat']
  omega

theorem rowIndex_add (key : ℤ) (n : ℕ) : rowIndex (key + n) = rowIndex key + UInt64.ofNat n := by
  rw [rowIndex, UInt64.ofInt_add, ofInt_natCast, rowIndex]

end Keys

section Reads

variable {lib : RaftLibraries}

theorem readRows_numbered (hlib : lib.Documented) (base : ℤ) (es : List LogEntry) (size : ℕ) :
    readRows lib 0 (rowIndex base) size (numbered base (es.map (rowOf lib))) =
      some (es, rowIndex (base + es.length), false) := by
  induction es generalizing base size with
  | nil => simp [numbered, readRows]
  | cons entry es ih =>
    have hpayload : (rowOf lib entry).payload ≠ [] := hlib.nonempty entry
    have hentry : lib.deserialize (rowOf lib entry).payload = some entry := hlib.restores entry
    have hnext : rowIndex base + 1 = rowIndex (base + 1) := (rowIndex_add base 1).symm
    have hshift : base + ((entry :: es).length : ℤ) = base + 1 + es.length := by
      rw [List.length_cons]
      push_cast
      ring
    rw [List.map_cons, numbered, readRows, if_neg (by simp [hpayload]), hentry, Option.bind_some]
    simp only [gt_iff_lt, lt_self_iff_false, false_and, ↓reduceIte]
    rw [hnext, ih (base + 1), hshift]
    rfl

theorem logEntries_of_window (hlib : lib.Documented) {s : SqliteRaftStorage} {start : UInt64} {es : List LogEntry}
    (hkey : rowKey (start + UInt64.ofNat es.length) = rowKey start + es.length)
    (hwindow : ∀ key, rowKey start ≤ key → key < rowKey start + es.length →
      s.log.find? key = (es[(key - rowKey start).toNat]?).map (rowOf lib)) :
    logEntries lib s start (start + UInt64.ofNat es.length) 0 = some es := by
  have hrows := @filter_window _ s.log (rowKey start) (es.map (rowOf lib))
  rw [List.length_map] at hrows
  have hread := readRows_numbered hlib (rowKey start) es 0
  rw [rowIndex_add, rowIndex_rowKey] at hread
  rw [logEntries, hkey]
  simp only [ge_iff_le]
  rw [hrows, hread]
  · simp
  · intro key hge hlt
    rw [hwindow key hge hlt, List.getElem?_map]

end Reads

section Shape

def OneHalf (base : ℤ) (count : ℕ) : Prop :=
  (0 < base ∧ base + count < 2 ^ 63) ∨ (-2 ^ 63 ≤ base ∧ base + count < 0)

/-- The indices from `index` to `index + count` lie all below 2^63, or all between it and 2^64. -/
def Within (index : UInt64) (count : ℕ) : Prop :=
  index.toNat + count < 2 ^ 63 ∨ (2 ^ 63 ≤ index.toNat ∧ index.toNat + count < 2 ^ 64)

instance (index : UInt64) (count : ℕ) : Decidable (Within index count) := inferInstanceAs (Decidable (_ ∨ _))

theorem Within.mono {index : UInt64} {count n : ℕ} (h : Within index count) (hn : n ≤ count) : Within index n := by
  obtain h | h := h
  · left
    omega
  · right
    omega

theorem Within.toNat_add {index : UInt64} {n : ℕ} (h : Within index n) :
    (index + UInt64.ofNat n).toNat = index.toNat + n := by
  rw [UInt64.toNat_add, UInt64.toNat_ofNat']
  obtain h | h := h <;> omega

theorem Within.tail {index : UInt64} {n : ℕ} (h : Within index (n + 1)) : Within (index + 1) n := by
  have hone : (index + 1).toNat = index.toNat + 1 := (h.mono (Nat.le_add_left 1 n)).toNat_add
  rw [Within, hone]
  obtain h | h := h
  · left
    omega
  · right
    omega

theorem OneHalf.toNat_rowIndex_add {base : ℤ} {count n : ℕ} (h : OneHalf base count) (hn : n ≤ count) :
    (rowIndex (base + n)).toNat = (rowIndex base).toNat + n := by
  rw [toNat_rowIndex, toNat_rowIndex]
  obtain h | h := h <;> omega

theorem OneHalf.rowKey_rowIndex_add {base : ℤ} {count n : ℕ} (h : OneHalf base count) (hn : n ≤ count) :
    rowKey (rowIndex (base + n)) = base + n := by
  apply rowKey_rowIndex <;> obtain h | h := h <;> omega

theorem OneHalf.rowIndex_pos {base : ℤ} {count : ℕ} (h : OneHalf base count) : 0 < (rowIndex base).toNat := by
  rw [toNat_rowIndex]
  obtain h | h := h <;> omega

theorem OneHalf.mono {base : ℤ} {count n : ℕ} (h : OneHalf base count) (hn : n ≤ count) : OneHalf base n := by
  obtain h | h := h
  · left
    omega
  · right
    omega

theorem OneHalf.extend {base : ℤ} {count n : ℕ} (h : OneHalf base count)
    (hn : Within (rowIndex (base + count)) n) : OneHalf base (count + n) := by
  rw [Within, toNat_rowIndex] at hn
  obtain h | h := h
  · left
    omega
  · right
    omega

theorem OneHalf.drop {base : ℤ} {count n : ℕ} (h : OneHalf base count) (hn : n ≤ count) :
    OneHalf (base + n) (count - n) := by
  obtain h | h := h
  · left
    omega
  · right
    omega

theorem oneHalf_rowKey {index : UInt64} (h : index ≠ 0) : OneHalf (rowKey index) 0 := by
  have hpos : index.toNat ≠ 0 := fun heq => h (UInt64.toNat_inj.mp heq)
  have hlt := index.toNat_lt
  rw [OneHalf, rowKey_eq]
  split_ifs <;> omega

variable (lib : RaftLibraries)

def LastWritten (written : UInt64 → Option LogEntry) (base : ℤ) (es : List LogEntry) : Prop :=
  ∀ (n : ℕ) entry, es[n]? = some entry → written (rowIndex (base + n)) = some entry

theorem LastWritten.nil (written : UInt64 → Option LogEntry) (base : ℤ) : LastWritten written base [] := by
  intro n entry h
  cases h

theorem LastWritten.drop {written : UInt64 → Option LogEntry} {base : ℤ} {es : List LogEntry}
    (h : LastWritten written base es) (n : ℕ) : LastWritten written (base + n) (es.drop n) := by
  intro i entry hi
  rw [List.getElem?_drop] at hi
  have hwritten := h (n + i) entry hi
  rwa [Nat.cast_add, ← add_assoc] at hwritten

theorem LastWritten.take {written : UInt64 → Option LogEntry} {base : ℤ} {es : List LogEntry}
    (h : LastWritten written base es) (n : ℕ) : LastWritten written base (es.take n) := by
  intro i entry hi
  rw [List.getElem?_take] at hi
  split_ifs at hi
  exact h i entry hi

structure Shaped (s : SqliteRaftStorage) (base : ℤ) (es : List LogEntry) : Prop where
  start : s.metaLogStartIndex = some (rowIndex base)
  rows : HoldsFrom s.log base (es.map (rowOf lib))
  half : OneHalf base es.length

variable {lib} {s : SqliteRaftStorage} {base : ℤ} {es : List LogEntry}

def compacted (s : SqliteRaftStorage) (last start : UInt64) : SqliteRaftStorage :=
  { s with log := s.log.filter (fun key _ => ¬ key ≤ rowKey last), metaLogStartIndex := some start }

theorem startIndex_compacted (s : SqliteRaftStorage) (last : UInt64) {start : UInt64} (hstart : start ≠ 0) :
    (compacted s last start).startIndex = start := by
  rw [startIndex, compacted]
  simp only [ite_eq_left_iff, gt_iff_lt, not_lt]
  intro hzero
  exact absurd (UInt64.le_zero_iff.mp hzero) hstart

theorem compact_eq_some {faults : StorageFaults} {last : UInt64} {t : SqliteRaftStorage}
    (ht : compact faults s last = some t) :
    t = compacted s last (if s.startIndex ≤ last then last + 1 else s.startIndex) := by
  rw [compact, Option.ite_none_left_eq_some] at ht
  simp only [Option.ite_none_left_eq_some, Option.some_inj] at ht
  exact ht.2.2.symm

namespace Shaped

theorem startIndex_eq (h : Shaped lib s base es) : s.startIndex = rowIndex base := by
  have hpos : rowIndex base > 0 := UInt64.lt_iff_toNat_lt.mpr h.half.rowIndex_pos
  rw [startIndex, h.start]
  simp [hpos]

theorem log_eq_empty_iff (h : Shaped lib s base es) : s.log = .empty ↔ es = [] := by
  constructor
  · intro hempty
    have hrows := h.rows
    rw [hempty, HoldsFrom] at hrows
    cases es with
    | nil => rfl
    | cons entry es => cases hrows
  · rintro rfl
    exact HoldsFrom.nil_iff.mp h.rows

theorem nextSlot_eq (h : Shaped lib s base es) : s.nextSlot = rowIndex (base + es.length) := by
  cases hes : es with
  | nil =>
    rw [nextSlot, readMaxLogIndex, FlatMap.lastKey?_eq_none.mpr (h.log_eq_empty_iff.mpr hes)]
    simp [h.startIndex_eq]
  | cons entry rest =>
    have hlast := h.rows.lastKey? (by simp [hes])
    rw [List.length_map, hes] at hlast
    have hsucc := rowIndex_add (base + ((entry :: rest).length : ℤ) - 1) 1
    rw [Nat.cast_one, sub_add_cancel] at hsucc
    rw [nextSlot, readMaxLogIndex, hlast]
    exact hsucc.symm

theorem exists_offset (h : Shaped lib s base es) {index : UInt64} (hge : s.startIndex ≤ index)
    (hle : index ≤ s.nextSlot) : ∃ n ≤ es.length, index = rowIndex (base + n) := by
  rw [h.startIndex_eq, UInt64.le_iff_toNat_le] at hge
  rw [h.nextSlot_eq, UInt64.le_iff_toNat_le, h.half.toNat_rowIndex_add le_rfl] at hle
  have hn : index.toNat - (rowIndex base).toNat ≤ es.length := by omega
  refine ⟨index.toNat - (rowIndex base).toNat, hn, ?_⟩
  apply UInt64.toNat_inj.mp
  rw [h.half.toNat_rowIndex_add hn]
  omega

theorem stored_iff (h : Shaped lib s base es) (key : ℤ) :
    (s.log.find? key).isSome ↔ ∃ index, key = rowKey index ∧ s.startIndex ≤ index ∧ index < s.nextSlot := by
  rw [h.rows.isSome_find?, List.length_map, h.startIndex_eq, h.nextSlot_eq]
  constructor
  · rintro ⟨hge, hlt⟩
    have hn : (key - base).toNat ≤ es.length := by omega
    have hcast : base + ((key - base).toNat : ℤ) = key := by omega
    have hkey := h.half.rowKey_rowIndex_add hn
    have hnat := h.half.toNat_rowIndex_add hn
    rw [hcast] at hkey hnat
    refine ⟨rowIndex key, hkey.symm, ?_, ?_⟩
    · rw [UInt64.le_iff_toNat_le]
      omega
    · rw [UInt64.lt_iff_toNat_lt, h.half.toNat_rowIndex_add le_rfl]
      omega
  · rintro ⟨index, rfl, hge, hlt⟩
    rw [← h.startIndex_eq] at hge
    rw [← h.nextSlot_eq] at hlt
    obtain ⟨n, hn, rfl⟩ := h.exists_offset hge hlt.le
    rw [h.nextSlot_eq, UInt64.lt_iff_toNat_lt, h.half.toNat_rowIndex_add hn, h.half.toNat_rowIndex_add le_rfl] at hlt
    rw [h.half.rowKey_rowIndex_add hn]
    omega

theorem logEntries_eq (hlib : lib.Documented) (h : Shaped lib s base es) {n m : ℕ} (hm : n + m ≤ es.length) :
    logEntries lib s (rowIndex (base + n)) (rowIndex (base + (n + m : ℕ))) 0 = some ((es.drop n).take m) := by
  have hlength : ((es.drop n).take m).length = m := by
    rw [List.length_take, List.length_drop]
    omega
  have hkey := h.half.rowKey_rowIndex_add (show n ≤ es.length by omega)
  have hend : rowIndex (base + (n + m : ℕ)) = rowIndex (base + n) + UInt64.ofNat ((es.drop n).take m).length := by
    rw [hlength, ← rowIndex_add, Nat.cast_add, add_assoc]
  have hsum := h.half.rowKey_rowIndex_add hm
  rw [hend] at hsum ⊢
  apply logEntries_of_window hlib
  · rw [hsum, hkey, hlength]
    push_cast
    ring
  · intro key hge hlt
    rw [hkey] at hge hlt ⊢
    rw [hlength] at hlt
    have hpos : (key - base).toNat = n + (key - (base + n)).toNat := by omega
    rw [h.rows.find?, if_pos (by omega), List.getElem?_map, List.getElem?_take_of_lt (by omega), List.getElem?_drop,
      hpos]

theorem of_empty {start : UInt64} (hstart : start ≠ 0) (hmeta : s.metaLogStartIndex = some start)
    (hlog : s.log = .empty) : Shaped lib s (rowKey start) [] := by
  refine ⟨?_, HoldsFrom.nil_iff.mpr hlog, oneHalf_rowKey hstart⟩
  rw [hmeta, rowIndex_rowKey]

theorem upsertLog (h : Shaped lib s base es) {faults : StorageFaults} {index : UInt64} {entry : LogEntry}
    {t : SqliteRaftStorage} (hindex : s.nextSlot = index) (hwithin : Within index 1)
    (ht : upsertLog lib faults s index entry = some t) : Shaped lib t base (es ++ [entry]) := by
  rw [h.nextSlot_eq] at hindex
  subst hindex
  have hhalf := h.half.extend hwithin
  rw [SqliteRaftStorage.upsertLog, Option.ite_none_left_eq_some, Option.some_inj,
    h.half.rowKey_rowIndex_add le_rfl] at ht
  obtain ⟨-, rfl⟩ := ht
  have hrows := h.rows.insert_next (rowOf lib entry)
  rw [List.length_map] at hrows
  refine ⟨h.start, ?_, by rwa [List.length_append]⟩
  rw [List.map_append]
  exact hrows

theorem truncate (h : Shaped lib s base es) {n : ℕ} (hn : n ≤ es.length) :
    Shaped lib { s with log := s.log.filter (fun key _ => ¬ key ≥ rowKey (rowIndex (base + n))) } base (es.take n) := by
  have hlength : n ≤ (es.map (rowOf lib)).length := by rwa [List.length_map]
  refine ⟨h.start, ?_, h.half.mono (List.length_take_le' n es)⟩
  rw [List.map_take]
  apply h.rows.filter_below hlength
  intro key _ _
  rw [h.half.rowKey_rowIndex_add hn, decide_eq_true_eq]
  omega

theorem writeAt (h : Shaped lib s base es) {faults : StorageFaults} {n : ℕ} (hn : n ≤ es.length) {entry : LogEntry}
    {t : SqliteRaftStorage} (hwithin : Within (rowIndex (base + n)) 1)
    (ht : writeAt lib faults s (rowIndex (base + n)) entry = some t) : Shaped lib t base (es.take n ++ [entry]) := by
  have hremoved := h.truncate hn
  have hnext := hremoved.nextSlot_eq
  rw [List.length_take_of_le hn] at hnext
  rw [SqliteRaftStorage.writeAt, Option.ite_none_left_eq_some, Option.bind_eq_some_iff] at ht
  obtain ⟨-, u, hu, ht⟩ := ht
  have hupserted := hremoved.upsertLog hnext hwithin hu
  have hge : ¬ rowIndex (base + n) < u.startIndex := by
    rw [hupserted.startIndex_eq, UInt64.lt_iff_toNat_lt, h.half.toNat_rowIndex_add hn]
    omega
  simp only [hge, false_and, ↓reduceIte, Option.ite_none_left_eq_some, Option.some_inj] at ht
  rw [← ht.2]
  exact hupserted

theorem rows_above (h : Shaped lib s base es) (last : UInt64) {n : ℕ} (hn : n ≤ es.length)
    (hkeys : ∀ key, base ≤ key → key < base + es.length → (rowKey last < key ↔ base + n ≤ key)) :
    HoldsFrom (s.log.filter fun key _ => ¬ key ≤ rowKey last) (base + n) ((es.drop n).map (rowOf lib)) := by
  rw [List.map_drop]
  apply h.rows.filter_from (by rwa [List.length_map])
  intro key hge hlt
  rw [List.length_map] at hlt
  rw [decide_eq_true_eq, not_le]
  exact hkeys key hge hlt

theorem no_rows_above (h : Shaped lib s base es) {last : UInt64}
    (hkeys : ∀ key, base ≤ key → key < base + es.length → key ≤ rowKey last) :
    s.log.filter (fun key _ => ¬ key ≤ rowKey last) = .empty := by
  have hrows := h.rows_above last le_rfl fun key hge hlt => by
    have hle := hkeys key hge hlt
    omega
  rw [List.drop_length, List.map_nil] at hrows
  exact HoldsFrom.nil_iff.mp hrows

theorem compacted_empty (h : Shaped lib s base es) {last start : UInt64} (hstart : start ≠ 0)
    (hkeys : ∀ key, base ≤ key → key < base + es.length → key ≤ rowKey last) :
    Shaped lib (compacted s last start) (rowKey start) [] :=
  of_empty hstart rfl (h.no_rows_above hkeys)

theorem compacted_below (h : Shaped lib s base es) {last : UInt64} (hlast : last < s.startIndex) :
    ∃ n, Shaped lib (compacted s last s.startIndex) base (es.take n) := by
  have hhalf := h.half
  have hlt := last.toNat_lt
  have hkey := rowKey_eq last
  rw [h.startIndex_eq] at hlast ⊢
  rw [UInt64.lt_iff_toNat_lt, toNat_rowIndex] at hlast
  by_cases hbelow : rowKey last < base
  · have hrows := h.rows_above last (Nat.zero_le _) fun key hge _ => by
      rw [Nat.cast_zero]
      omega
    rw [Nat.cast_zero, add_zero, List.drop_zero] at hrows
    refine ⟨es.length, rfl, ?_, ?_⟩
    · rw [List.take_length]
      exact hrows
    · rw [List.take_length]
      exact h.half
  · refine ⟨0, rfl, ?_, h.half.mono (Nat.zero_le _)⟩
    apply HoldsFrom.nil_iff.mpr
    apply h.no_rows_above
    intro key _ hupper
    obtain hhalf | hhalf := hhalf <;> split_ifs at hkey <;> omega

theorem base_le_rowKey (h : Shaped lib s base es) {last : UInt64} (hge : s.startIndex ≤ last)
    (hsame : SignedRange last ↔ SignedRange s.startIndex) : base ≤ rowKey last := by
  rw [h.startIndex_eq] at hge hsame
  rw [UInt64.le_iff_toNat_le, toNat_rowIndex] at hge
  rw [SignedRange, SignedRange, toNat_rowIndex] at hsame
  rw [rowKey_eq]
  obtain hhalf | hhalf := h.half <;> split_ifs <;> omega

theorem compacted_from (h : Shaped lib s base es) {last : UInt64} (hge : s.startIndex ≤ last) (hlast : last + 1 ≠ 0)
    (hsame : es = [] ∨ (SignedRange last ↔ SignedRange s.startIndex)) :
    (∃ n : ℕ, Shaped lib (compacted s last (last + 1)) (base + n) (es.drop n)) ∨
      Shaped lib (compacted s last (last + 1)) (rowKey (last + 1)) [] := by
  by_cases hrest : base + es.length ≤ rowKey last + 1
  · right
    apply h.compacted_empty hlast
    intro key _ hupper
    omega
  obtain rfl | hsame := hsame
  · right
    apply h.compacted_empty hlast
    intro key hlower hupper
    rw [List.length_nil] at hupper
    omega
  left
  have hbase := h.base_le_rowKey hge hsame
  obtain ⟨n, hn⟩ : ∃ n : ℕ, rowKey last + 1 = base + n := ⟨(rowKey last + 1 - base).toNat, by omega⟩
  have hle : n ≤ es.length := by omega
  have hstart : last + 1 = rowIndex (base + n) := by
    have hadd := rowIndex_add (rowKey last) 1
    rw [Nat.cast_one, hn, rowIndex_rowKey] at hadd
    exact hadd.symm
  refine ⟨n, ?_, ?_, ?_⟩
  · rw [← hstart]
    rfl
  · apply h.rows_above last hle
    intro key _ _
    omega
  · rw [List.length_drop]
    exact h.half.drop hle

theorem compact (h : Shaped lib s base es) {faults : StorageFaults} {last : UInt64} {t : SqliteRaftStorage}
    (hlast : s.startIndex ≤ last →
      last + 1 ≠ 0 ∧ (s.log = .empty ∨ (SignedRange last ↔ SignedRange s.startIndex)))
    (ht : compact faults s last = some t) :
    ∃ base' rest, Shaped lib t base' rest ∧ (∀ written, LastWritten written base es → LastWritten written base' rest) ∧
      s.startIndex ≤ t.startIndex := by
  rw [compact_eq_some ht]
  by_cases hge : s.startIndex ≤ last
  · obtain ⟨hne, hsame⟩ := hlast hge
    rw [h.log_eq_empty_iff] at hsame
    have hstart : s.startIndex ≤ last + 1 := by
      have hlt := last.toNat_lt
      have hpos : (last + 1).toNat ≠ 0 := fun heq => hne (UInt64.toNat_inj.mp heq)
      have hone : (1 : UInt64).toNat = 1 := rfl
      rw [UInt64.toNat_add, hone] at hpos
      rw [UInt64.le_iff_toNat_le] at hge ⊢
      rw [UInt64.toNat_add, hone]
      omega
    rw [if_pos hge, startIndex_compacted s last hne]
    obtain ⟨n, hshaped⟩ | hshaped := h.compacted_from hge hne hsame
    · exact ⟨_, _, hshaped, fun written hw => hw.drop n, hstart⟩
    · exact ⟨_, _, hshaped, fun written _ => .nil _ _, hstart⟩
  · obtain ⟨n, hshaped⟩ := h.compacted_below (not_le.mp hge)
    rw [if_neg hge]
    refine ⟨_, _, hshaped, fun written hw => hw.take n, ?_⟩
    rw [hshaped.startIndex_eq, h.startIndex_eq]

theorem upsertAll (h : Shaped lib s base es) {faults : StorageFaults} {index : UInt64} {entries : List LogEntry}
    {t : SqliteRaftStorage} (hindex : s.nextSlot = index) (hwithin : Within index entries.length)
    (ht : upsertAll lib faults index entries s = some t) : Shaped lib t base (es ++ entries) := by
  induction entries generalizing s es index with
  | nil =>
    rw [Consensus.upsertAll, Option.some_inj] at ht
    rwa [← ht, List.append_nil]
  | cons entry entries ih =>
    rw [Consensus.upsertAll, Option.bind_eq_some_iff] at ht
    obtain ⟨u, hu, ht⟩ := ht
    rw [List.length_cons] at hwithin
    have hu := h.upsertLog hindex (hwithin.mono (Nat.le_add_left _ _)) hu
    have hnext : u.nextSlot = index + 1 := by
      rw [hu.nextSlot_eq, List.length_append, Nat.cast_add, ← add_assoc, rowIndex_add, ← h.nextSlot_eq, hindex]
      rfl
    have ht := ih hu hnext hwithin.tail ht
    rwa [List.append_assoc] at ht

theorem packStart_eq (h : Shaped lib s base es) (hne : es ≠ []) : packStart s = rowIndex base := by
  have hpos : rowIndex base > 0 := UInt64.lt_iff_toNat_lt.mpr h.half.rowIndex_pos
  rw [packStart, readMinLogIndex, h.rows.firstKey? (by simpa using hne), Option.map_some]
  simp [hpos]

theorem applyPack (hlib : lib.Documented) (h : Shaped lib s base es) {faults : StorageFaults} {entries : List LogEntry}
    {t : SqliteRaftStorage} (hsize : packSize lib entries ≤ lib.maxBufferBytes)
    (hwithin : Within s.nextSlot entries.length) (hempty : entries = [] → s.log ≠ .empty ∨ s.startIndex = 1)
    (ht : applyPack lib faults s s.nextSlot (packBytes lib entries) = some t) : Shaped lib t base (es ++ entries) := by
  obtain ⟨-, u, hu, rfl⟩ := (applyPack_eq_some hlib hsize).mp ht
  have hu := h.upsertAll rfl hwithin hu
  refine ⟨?_, hu.rows, hu.half⟩
  simp only
  by_cases hne : es ++ entries = []
  · obtain ⟨rfl, rfl⟩ := List.append_eq_nil_iff.mp hne
    have hlog := hu.log_eq_empty_iff.mpr rfl
    have hstart : s.startIndex = 1 := by
      obtain hlog | hstart := hempty rfl
      · exact absurd (h.log_eq_empty_iff.mpr rfl) hlog
      · exact hstart
    rw [packStart, readMinLogIndex, hlog, ← h.startIndex_eq, hstart]
    rfl
  · rw [hu.packStart_eq hne]

end Shaped

end Shape

end Tightrope.Sync.Consensus
