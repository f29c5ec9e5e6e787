import Tightrope.Sync.Consensus.RaftLog

namespace Tightrope.Sync.Consensus

open MachineWords WireCodec SqliteRaftStorage

section Range

variable (lib : RaftLibraries)

/-- The rows are the entries at `first`, `first + 1`, ..., each of them once taken by SQLite. -/
structure HoldsRange (s : SqliteRaftStorage) (first : UInt64) (es : List LogEntry) : Prop where
  bound : first.toNat + es.length < 2 ^ 64
  rows : ∀ key row, s.log.find? key = some row ↔ ∃ (n : ℕ) (entry : LogEntry), es[n]? = some entry ∧
    key = rowKey (first + UInt64.ofNat n) ∧ row = rowOf lib entry
  taken : ∀ entry ∈ es, lib.rowFits (rowOf lib entry) = true

variable {lib}

theorem rowKey_inj {a b : UInt64} : rowKey a = rowKey b ↔ a = b := by
  constructor
  · intro h
    rw [← rowIndex_rowKey a, h, rowIndex_rowKey]
  · rintro rfl
    rfl

theorem toNat_add_ofNat {index : UInt64} {n : ℕ} (h : index.toNat + n < 2 ^ 64) :
    (index + UInt64.ofNat n).toNat = index.toNat + n := by
  rw [UInt64.toNat_add, UInt64.toNat_ofNat']
  omega

theorem rowKey_add_of_within {index : UInt64} {n : ℕ} (h : Within index n) :
    rowKey (index + UInt64.ofNat n) = rowKey index + n := by
  rw [rowKey_eq, rowKey_eq, h.toNat_add]
  obtain h | h := h <;> split_ifs <;> omega

theorem HoldsRange.of_empty {s : SqliteRaftStorage} (h : s.log = .empty) (first : UInt64) :
    HoldsRange lib s first [] := by
  refine ⟨first.toNat_lt, ?_, ?_⟩
  · intro key row
    simp [h]
  · intro entry hentry
    cases hentry

theorem HoldsRange.find?_at {s : SqliteRaftStorage} {first : UInt64} {es : List LogEntry}
    (h : HoldsRange lib s first es) {n : ℕ} (hn : n < es.length) :
    s.log.find? (rowKey (first + UInt64.ofNat n)) = some (rowOf lib es[n]) :=
  (h.rows _ _).mpr ⟨n, es[n], List.getElem?_eq_getElem hn, rfl, rfl⟩

theorem HoldsRange.find?_next {s : SqliteRaftStorage} {first : UInt64} {es : List LogEntry}
    (h : HoldsRange lib s first es) : s.log.find? (rowKey (first + UInt64.ofNat es.length)) = none := by
  have hbound := h.bound
  apply Option.eq_none_iff_forall_ne_some.mpr
  intro row hrow
  obtain ⟨n, entry, hentry, hkey, -⟩ := (h.rows _ _).mp hrow
  have hn : n < es.length := (List.getElem?_eq_some_iff.mp hentry).1
  have hnat := congrArg UInt64.toNat (rowKey_inj.mp hkey)
  rw [toNat_add_ofNat hbound, toNat_add_ofNat (by omega)] at hnat
  omega

theorem exists_getElem?_concat {es : List LogEntry} {entry : LogEntry} {P : ℕ → LogEntry → Prop} :
    (∃ n e, (es ++ [entry])[n]? = some e ∧ P n e) ↔ (∃ n e, es[n]? = some e ∧ P n e) ∨ P es.length entry := by
  constructor
  · rintro ⟨n, e, he, hp⟩
    have hn : n < es.length + 1 := by simpa using (List.getElem?_eq_some_iff.mp he).1
    obtain hlt | rfl := Nat.lt_succ_iff_lt_or_eq.mp hn
    · left
      rw [List.getElem?_append_left hlt] at he
      exact ⟨n, e, he, hp⟩
    · right
      rw [List.getElem?_concat_length, Option.some_inj] at he
      rwa [he]
  · rintro (⟨n, e, he, hp⟩ | hp)
    · refine ⟨n, e, ?_, hp⟩
      rw [List.getElem?_append_left (List.getElem?_eq_some_iff.mp he).1]
      exact he
    · exact ⟨es.length, entry, List.getElem?_concat_length, hp⟩

theorem HoldsRange.upsertLog {s t : SqliteRaftStorage} {first index : UInt64} {es : List LogEntry}
    (h : HoldsRange lib s first es) {faults : StorageFaults} {entry : LogEntry}
    (hindex : index.toNat = first.toNat + es.length) (hbound : index.toNat + 1 < 2 ^ 64)
    (ht : upsertLog lib faults s index entry = some t) : HoldsRange lib t first (es ++ [entry]) := by
  rw [SqliteRaftStorage.upsertLog, Option.ite_none_left_eq_some, Option.some_inj] at ht
  obtain ⟨htaken, rfl⟩ := ht
  have hlast : index = first + UInt64.ofNat es.length := by
    apply UInt64.toNat_inj.mp
    rw [toNat_add_ofNat h.bound, hindex]
  refine ⟨?_, ?_, ?_⟩
  · rw [List.length_append, List.length_singleton]
    omega
  · intro key row
    rw [FlatMap.find?_insert, exists_getElem?_concat, ← h.rows, hlast]
    split_ifs with hkey
    · rw [hkey, h.find?_next]
      simp [eq_comm]
    · simp [hkey]
  · intro other hother
    obtain hold | hnew := List.mem_append.mp hother
    · exact h.taken other hold
    · rw [List.mem_singleton.mp hnew]
      exact not_not.mp (not_or.mp htaken).2

theorem HoldsRange.upsertAll {s t : SqliteRaftStorage} {first index : UInt64} {es entries : List LogEntry}
    (h : HoldsRange lib s first es) {faults : StorageFaults} (hindex : index.toNat = first.toNat + es.length)
    (hbound : index.toNat + entries.length < 2 ^ 64) (ht : upsertAll lib faults index entries s = some t) :
    HoldsRange lib t first (es ++ entries) := by
  induction entries generalizing s es index with
  | nil =>
    rw [Consensus.upsertAll, Option.some_inj] at ht
    rwa [← ht, List.append_nil]
  | cons entry entries ih =>
    rw [List.length_cons] at hbound
    rw [Consensus.upsertAll, Option.bind_eq_some_iff] at ht
    obtain ⟨u, hu, ht⟩ := ht
    have hnext : (index + 1).toNat = index.toNat + 1 := toNat_add_ofNat (show index.toNat + 1 < 2 ^ 64 by omega)
    have hu := h.upsertLog hindex (by omega) hu
    have ht := ih hu (by rw [hnext, List.length_append, List.length_singleton]; omega) (by omega) ht
    rwa [List.append_assoc] at ht

theorem upsertAll_of_taken {index : UInt64} {entries : List LogEntry} {s : SqliteRaftStorage}
    (h : ∀ entry ∈ entries, lib.rowFits (rowOf lib entry) = true) : ∃ t, upsertAll lib {} index entries s = some t := by
  induction entries generalizing index s with
  | nil => exact ⟨s, rfl⟩
  | cons entry entries ih =>
    have hfits := h entry List.mem_cons_self
    rw [upsertAll, SqliteRaftStorage.upsertLog, if_neg (by simp [hfits]), Option.bind_some]
    exact ih fun e he => h e (List.mem_cons_of_mem _ he)

end Range

section Transfer

variable (lib : RaftLibraries)

/-- `pack` of the source gives a buffer, `apply_pack` takes it, and the target then holds its old entries and
after them the ones sent. -/
def Transfers (source target : SqliteRaftStorage) (cnt : ℕ) (first : UInt64) (old sent : List LogEntry) : Prop :=
  ∃ bytes t, pack lib source target.nextSlot (Int32.ofNat cnt) = some bytes ∧
    applyPack lib {} target target.nextSlot bytes = some t ∧ HoldsRange lib t first (old ++ sent)

variable {lib} {source target : SqliteRaftStorage} {start first index : UInt64} {es old : List LogEntry} {cnt : ℕ}

def sentEntries (start index : UInt64) (cnt : ℕ) (es : List LogEntry) : List LogEntry :=
  (es.drop (index.toNat - start.toNat)).take cnt

theorem length_sentEntries (hstart : start ≤ index) (hcount : index.toNat + cnt ≤ start.toNat + es.length) :
    (sentEntries start index cnt es).length = cnt := by
  rw [UInt64.le_iff_toNat_le] at hstart
  rw [sentEntries, List.length_take, List.length_drop]
  omega

theorem logEntries_sent (hlib : lib.Documented) (hsource : HoldsRange lib source start es) (hstart : start ≤ index)
    (hcount : index.toNat + cnt ≤ start.toNat + es.length) (hwithin : Within index cnt) :
    logEntries lib source index (index + UInt64.ofNat cnt) 0 = some (sentEntries start index cnt es) := by
  have hlength := length_sentEntries hstart hcount
  have hread := @logEntries_of_window lib hlib source index (sentEntries start index cnt es)
  rw [hlength] at hread
  apply hread (rowKey_add_of_within hwithin)
  intro key hge hlt
  have hbound := hsource.bound
  rw [UInt64.le_iff_toNat_le] at hstart
  obtain ⟨n, rfl⟩ : ∃ n : ℕ, key = rowKey index + n := ⟨(key - rowKey index).toNat, by omega⟩
  have hn : n < cnt := by omega
  have hkey : rowKey index + n = rowKey (index + UInt64.ofNat n) := (rowKey_add_of_within (hwithin.mono hn.le)).symm
  have hindex : index + UInt64.ofNat n = start + UInt64.ofNat (index.toNat - start.toNat + n) := by
    apply UInt64.toNat_inj.mp
    rw [toNat_add_ofNat (by omega), toNat_add_ofNat (by omega)]
    omega
  have hoffset : (rowKey index + (n : ℤ) - rowKey index).toNat = n := by omega
  rw [hoffset, hkey, hindex, hsource.find?_at (by omega), sentEntries, List.getElem?_take_of_lt hn, List.getElem?_drop,
    List.getElem?_eq_getElem (by omega)]
  rfl

theorem logEntries_crossing (hcross : ¬ Within index cnt) (hbound : index.toNat + cnt < 2 ^ 64) :
    logEntries lib source index (index + UInt64.ofNat cnt) 0 = none := by
  have hend := toNat_add_ofNat hbound
  have hkeys : rowKey (index + UInt64.ofNat cnt) ≤ rowKey index := by
    rw [Within] at hcross
    rw [rowKey_eq, rowKey_eq, hend]
    split_ifs <;> omega
  have hne : index ≠ index + UInt64.ofNat cnt := by
    rintro heq
    rw [← heq] at hend
    rw [Within] at hcross
    have hlt := index.toNat_lt
    omega
  have hrows : source.log.entries.filter
      (fun e => e.1 ≥ rowKey index ∧ e.1 < rowKey (index + UInt64.ofNat cnt)) = [] := by
    apply List.filter_eq_nil_iff.mpr
    intro e _
    rw [decide_eq_true_eq]
    omega
  rw [logEntries]
  simp only
  rw [hrows]
  simp [readRows, hne]

theorem pack_eq_some (hlib : lib.Documented) (hsource : HoldsRange lib source start es) (hstart : start ≤ index)
    (hcount : index.toNat + cnt ≤ start.toNat + es.length) (hcnt : cnt < 2 ^ 31) {bytes : Bytes} :
    pack lib source index (Int32.ofNat cnt) = some bytes ↔
      (Within index cnt ∧ packSize lib (sentEntries start index cnt es) ≤ lib.maxBufferBytes) ∧
        bytes = packBytes lib (sentEntries start index cnt es) := by
  have hbound := hsource.bound
  rw [pack, toInt_ofNat_int32 hcnt, ofInt_natCast]
  by_cases hwithin : Within index cnt
  · rw [logEntries_sent hlib hsource hstart hcount hwithin, Option.bind_some, length_sentEntries hstart hcount,
      if_neg (by simp)]
    have hsize : packSize lib (sentEntries start index cnt es) =
        4 + 4 * cnt + ((sentEntries start index cnt es).map fun entry => (lib.serialize entry).length).sum := by
      rw [packSize, length_sentEntries hstart hcount]
    rw [← hsize, Option.ite_none_left_eq_some, Option.some_inj, gt_iff_lt, not_lt, @eq_comm _ _ bytes]
    simp [hwithin]
  · rw [logEntries_crossing hwithin (by omega)]
    simp [hwithin]

theorem log_transfer_iff (hlib : lib.Documented) (hsource : HoldsRange lib source start es)
    (htarget : HoldsRange lib target first old) (hnext : target.nextSlot.toNat = first.toNat + old.length)
    (hstart : start ≤ target.nextSlot) (hcount : target.nextSlot.toNat + cnt ≤ start.toNat + es.length)
    (hcnt : cnt < 2 ^ 31) :
    Transfers lib source target cnt first old (sentEntries start target.nextSlot cnt es) ↔
      Within target.nextSlot cnt ∧ packSize lib (sentEntries start target.nextSlot cnt es) ≤ lib.maxBufferBytes := by
  have hbound := hsource.bound
  constructor
  · rintro ⟨bytes, t, hpack, -⟩
    exact ((pack_eq_some hlib hsource hstart hcount hcnt).mp hpack).1
  · intro hcond
    have hpack := (pack_eq_some hlib hsource hstart hcount hcnt).mpr ⟨hcond, rfl⟩
    have htaken : ∀ entry ∈ sentEntries start target.nextSlot cnt es, lib.rowFits (rowOf lib entry) = true := by
      intro entry hentry
      exact hsource.taken entry (List.mem_of_mem_drop (List.mem_of_mem_take hentry))
    obtain ⟨u, hu⟩ := @upsertAll_of_taken lib target.nextSlot _ target htaken
    have happly := (applyPack_eq_some hlib hcond.2).mpr ⟨⟨by decide, by decide⟩, u, hu, rfl⟩
    have hrange := htarget.upsertAll hnext (by rw [length_sentEntries hstart hcount]; omega) hu
    exact ⟨_, _, hpack, happly, hrange.bound, hrange.rows, hrange.taken⟩

def storeFrom (first : UInt64) (entries : List LogEntry) : SqliteRaftStorage :=
  (upsertAll nuraftAndSqlite {} first entries { metaLogStartIndex := some first }).getD {}

theorem holdsRange_storeFrom {first : UInt64} {entries : List LogEntry}
    (hbound : first.toNat + entries.length < 2 ^ 64)
    (htaken : ∀ entry ∈ entries, nuraftAndSqlite.rowFits (rowOf nuraftAndSqlite entry) = true) :
    HoldsRange nuraftAndSqlite (storeFrom first entries) first entries := by
  obtain ⟨t, ht⟩ := @upsertAll_of_taken nuraftAndSqlite first entries { metaLogStartIndex := some first } htaken
  rw [storeFrom, ht]
  exact (HoldsRange.of_empty rfl first).upsertAll rfl hbound ht

def edgeIndex : UInt64 := 0x7FFFFFFFFFFFFFFF

def edgeSource : SqliteRaftStorage := storeFrom edgeIndex [⟨1, 1, [7]⟩]

def edgeTarget : SqliteRaftStorage := storeFrom edgeIndex []

theorem pack_null_at_signed_edge :
    HoldsRange nuraftAndSqlite edgeSource edgeIndex [⟨1, 1, [7]⟩] ∧
      HoldsRange nuraftAndSqlite edgeTarget edgeIndex [] ∧ edgeTarget.nextSlot = edgeIndex ∧
      ¬ Transfers nuraftAndSqlite edgeSource edgeTarget 1 edgeIndex [] [⟨1, 1, [7]⟩] := by
  refine ⟨holdsRange_storeFrom (by decide) (by decide), holdsRange_storeFrom (by decide) (by decide), by decide, ?_⟩
  rintro ⟨bytes, t, hpack, -⟩
  have hnull : pack nuraftAndSqlite edgeSource edgeTarget.nextSlot (Int32.ofNat 1) = none := by decide
  rw [hnull] at hpack
  cases hpack

theorem log_transfer_oneBehind :
    Transfers nuraftAndSqlite (storeFrom 1 [⟨1, 1, [7]⟩, ⟨2, 1, []⟩]) (storeFrom 1 [⟨1, 1, [7]⟩]) 1 1
      [⟨1, 1, [7]⟩] [⟨2, 1, []⟩] :=
  (log_transfer_iff nuraftAndSqlite_documented
    (@holdsRange_storeFrom 1 [⟨1, 1, [7]⟩, ⟨2, 1, []⟩] (by decide) (by decide))
    (@holdsRange_storeFrom 1 [⟨1, 1, [7]⟩] (by decide) (by decide)) (by decide) (by decide) (by decide)
    (by decide)).mpr ⟨by decide, by decide⟩

end Transfer

end Tightrope.Sync.Consensus
