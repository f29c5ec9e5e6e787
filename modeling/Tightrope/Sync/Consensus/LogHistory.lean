import Tightrope.Sync.Consensus.RaftLog

namespace Tightrope.Sync.Consensus

open MachineWords WireCodec Runs SqliteRaftStorage

inductive LogOp (lib : RaftLibraries) where
  | append (entry : LogEntry)
  | writeAt (index : UInt64) (entry : LogEntry)
  | compact (lastLogIndex : UInt64)
  | applyPack (pack : LogPack lib)

structure LogHistory where
  storage : SqliteRaftStorage := {}
  written : UInt64 → Option LogEntry := fun _ => none

def recordAt (written : UInt64 → Option LogEntry) (index : UInt64) (entries : List LogEntry) :
    UInt64 → Option LogEntry :=
  fun i => (entries[(i - index).toNat]?).or (written i)

section Run

variable {lib : RaftLibraries}

def LogHistory.step (h : LogHistory) (call : StorageFaults × LogOp lib) : LogHistory :=
  match call.2 with
  | .append entry =>
    match append lib call.1 h.storage entry with
    | some (t, index) => ⟨t, recordAt h.written index [entry]⟩
    | none => h
  | .writeAt index entry =>
    match writeAt lib call.1 h.storage index entry with
    | some t => ⟨t, recordAt h.written index [entry]⟩
    | none => h
  | .compact last =>
    match compact call.1 h.storage last with
    | some t => ⟨t, h.written⟩
    | none => h
  | .applyPack pack =>
    match applyPack lib call.1 h.storage h.storage.nextSlot (packBytes lib pack.entries) with
    | some t => ⟨t, recordAt h.written h.storage.nextSlot pack.entries⟩
    | none => h

/-- `write_at` is called inside the log or at its end. -/
def InLog (h : LogHistory) (call : StorageFaults × LogOp lib) : Prop :=
  match call.2 with
  | .writeAt index _ => h.storage.startIndex ≤ index ∧ index ≤ h.storage.nextSlot
  | _ => True

def KeepsShape (h : LogHistory) (call : StorageFaults × LogOp lib) : Prop :=
  match call.2 with
  | .append _ => Within h.storage.nextSlot 1
  | .writeAt index _ => Within index 1
  | .compact last => h.storage.startIndex ≤ last →
      last + 1 ≠ 0 ∧ (h.storage.log = .empty ∨ (SignedRange last ↔ SignedRange h.storage.startIndex))
  | .applyPack pack => Within h.storage.nextSlot pack.entries.length ∧
      (pack.entries = [] → h.storage.log ≠ .empty ∨ h.storage.startIndex = 1)

instance (h : LogHistory) (call : StorageFaults × LogOp lib) : Decidable (InLog h call) :=
  match call with
  | (_, .append _) => inferInstanceAs (Decidable True)
  | (_, .writeAt _ _) => inferInstanceAs (Decidable (_ ∧ _))
  | (_, .compact _) => inferInstanceAs (Decidable True)
  | (_, .applyPack _) => inferInstanceAs (Decidable True)

instance (h : LogHistory) (call : StorageFaults × LogOp lib) : Decidable (KeepsShape h call) :=
  match call with
  | (_, .append _) => inferInstanceAs (Decidable (Within _ _))
  | (_, .writeAt _ _) => inferInstanceAs (Decidable (Within _ _))
  | (_, .compact _) => inferInstanceAs (Decidable (_ → _))
  | (_, .applyPack _) => inferInstanceAs (Decidable (_ ∧ _))

variable (lib)

def LogShape (h : LogHistory) : Prop :=
  (∀ key, (h.storage.log.find? key).isSome ↔
    ∃ index, key = rowKey index ∧ h.storage.startIndex ≤ index ∧ index < h.storage.nextSlot) ∧
  ∀ a b, h.storage.startIndex ≤ a → a ≤ b → b ≤ h.storage.nextSlot →
    ∃ entries, logEntries lib h.storage a b 0 = some entries ∧
      entries.map some = (List.range (b.toNat - a.toNat)).map fun n => h.written (a + UInt64.ofNat n)

def StartKept (h : LogHistory) (call : StorageFaults × LogOp lib) : Prop :=
  h.storage.startIndex ≤ (h.step call).storage.startIndex

instance (h : LogHistory) (call : StorageFaults × LogOp lib) : Decidable (StartKept lib h call) :=
  inferInstanceAs (Decidable (_ ≤ _))

def Traced (h : LogHistory) : Prop :=
  ∃ base es, Shaped lib h.storage base es ∧ LastWritten h.written base es

variable {lib}

theorem LastWritten.recordAt {written : UInt64 → Option LogEntry} {base : ℤ} {es entries : List LogEntry}
    (h : LastWritten written base es) (hhalf : OneHalf base (es.length + entries.length)) :
    LastWritten (recordAt written (rowIndex (base + es.length)) entries) base (es ++ entries) := by
  intro n entry hn
  have hlt : n < es.length + entries.length := by
    have hsome := (List.getElem?_eq_some_iff.mp hn).1
    rwa [List.length_append] at hsome
  have hend := hhalf.toNat_rowIndex_add (Nat.le_add_right es.length entries.length)
  have hnat := hhalf.toNat_rowIndex_add hlt.le
  have hmax := (rowIndex (base + es.length)).toNat_lt
  have hcount : es.length + entries.length < 2 ^ 63 := by
    obtain hhalf | hhalf := hhalf <;> omega
  have hsub := UInt64.toNat_sub (rowIndex (base + n)) (rowIndex (base + es.length))
  rw [Consensus.recordAt]
  by_cases hold : n < es.length
  · rw [List.getElem?_append_left hold] at hn
    rw [h n entry hn, List.getElem?_eq_none, Option.none_or]
    omega
  · rw [List.getElem?_append_right (by omega)] at hn
    rw [show (rowIndex (base + n) - rowIndex (base + es.length)).toNat = n - es.length by omega, hn, Option.some_or]

theorem LastWritten.map_some {written : UInt64 → Option LogEntry} {base : ℤ} {es : List LogEntry}
    (h : LastWritten written base es) {n m : ℕ} (hm : n + m ≤ es.length) :
    ((es.drop n).take m).map some = (List.range m).map fun i => written (rowIndex (base + n) + UInt64.ofNat i) := by
  apply List.ext_getElem?
  intro i
  rw [List.getElem?_map, List.getElem?_map]
  by_cases hi : i < m
  · have hlt : n + i < es.length := by omega
    have hwritten := h (n + i) es[n + i] (List.getElem?_eq_getElem hlt)
    rw [Nat.cast_add, ← add_assoc, rowIndex_add] at hwritten
    rw [List.getElem?_take_of_lt hi, List.getElem?_drop, List.getElem?_eq_getElem hlt, List.getElem?_range hi]
    simp [hwritten]
  · rw [List.getElem?_eq_none (by rw [List.length_take]; omega),
      List.getElem?_eq_none (by rw [List.length_range]; omega)]
    rfl

theorem Traced.logShape (hlib : lib.Documented) {h : LogHistory} (ht : Traced lib h) : LogShape lib h := by
  obtain ⟨base, es, hshaped, hwritten⟩ := ht
  refine ⟨hshaped.stored_iff, ?_⟩
  intro a b hstart hab hnext
  obtain ⟨n, hn, rfl⟩ := hshaped.exists_offset hstart (hab.trans hnext)
  obtain ⟨k, hk, rfl⟩ := hshaped.exists_offset (hstart.trans hab) hnext
  have hn' := hshaped.half.toNat_rowIndex_add hn
  have hk' := hshaped.half.toNat_rowIndex_add hk
  rw [UInt64.le_iff_toNat_le, hn', hk'] at hab
  obtain ⟨m, rfl⟩ : ∃ m, k = n + m := ⟨k - n, by omega⟩
  refine ⟨_, hshaped.logEntries_eq hlib hk, ?_⟩
  rw [hwritten.map_some hk]
  rw [show (rowIndex (base + (n + m : ℕ))).toNat - (rowIndex (base + n)).toNat = m by omega]

theorem traced_extended {h : LogHistory} {t : SqliteRaftStorage} {base : ℤ} {es old new : List LogEntry}
    {index : UInt64} (hshaped : Shaped lib h.storage base es) (hwritten : LastWritten h.written base old)
    (hnew : Shaped lib t base (old ++ new)) (hindex : index = rowIndex (base + old.length)) :
    Traced lib ⟨t, recordAt h.written index new⟩ ∧ h.storage.startIndex ≤ t.startIndex := by
  have hhalf := hnew.half
  rw [List.length_append] at hhalf
  constructor
  · refine ⟨base, old ++ new, hnew, ?_⟩
    rw [hindex]
    exact hwritten.recordAt hhalf
  · rw [hshaped.startIndex_eq, hnew.startIndex_eq]

theorem step_traced (hlib : lib.Documented) {h : LogHistory} {call : StorageFaults × LogOp lib} (ht : Traced lib h)
    (hlog : InLog h call) (hkeeps : KeepsShape h call) : Traced lib (h.step call) ∧ StartKept lib h call := by
  obtain ⟨faults, op⟩ := call
  obtain ⟨base, es, hshaped, hwritten⟩ := ht
  have hsame : Traced lib h ∧ h.storage.startIndex ≤ h.storage.startIndex := ⟨⟨base, es, hshaped, hwritten⟩, le_rfl⟩
  rw [StartKept, LogHistory.step]
  cases op with
  | append entry =>
    simp only
    cases happend : append lib faults h.storage entry with
    | none => exact hsame
    | some result =>
      rw [append, Option.map_eq_some_iff] at happend
      obtain ⟨t, ht, rfl⟩ := happend
      have hnew := hshaped.upsertLog rfl hkeeps ht
      exact traced_extended hshaped hwritten hnew hshaped.nextSlot_eq
  | writeAt index entry =>
    obtain ⟨n, hn, rfl⟩ := hshaped.exists_offset hlog.1 hlog.2
    simp only
    cases hwrite : writeAt lib faults h.storage (rowIndex (base + n)) entry with
    | none => exact hsame
    | some t =>
      have hnew := hshaped.writeAt hn hkeeps hwrite
      apply traced_extended hshaped (hwritten.take n) hnew
      rw [List.length_take_of_le hn]
  | compact last =>
    simp only
    cases hcompact : compact faults h.storage last with
    | none => exact hsame
    | some t =>
      obtain ⟨base', rest, hnew, hrest, hstart⟩ := hshaped.compact hkeeps hcompact
      exact ⟨⟨base', rest, hnew, hrest _ hwritten⟩, hstart⟩
  | applyPack pack =>
    simp only
    cases hpack : applyPack lib faults h.storage h.storage.nextSlot (packBytes lib pack.entries) with
    | none => exact hsame
    | some t =>
      have hnew := hshaped.applyPack hlib pack.fits hkeeps.1 hkeeps.2 hpack
      exact traced_extended hshaped hwritten hnew hshaped.nextSlot_eq

theorem traced_opened : Traced lib {} :=
  ⟨_, [], Shaped.of_empty (show (1 : UInt64) ≠ 0 by decide) rfl rfl, .nil _ _⟩

theorem raft_log_keeps_shape (hlib : lib.Documented) (calls : List (StorageFaults × LogOp lib))
    (hcalls : AllSteps LogHistory.step (fun h call => InLog h call ∧ KeepsShape h call) {} calls) :
    AllStates LogHistory.step (LogShape lib) {} calls ∧ AllSteps LogHistory.step (StartKept lib) {} calls := by
  have hstates : AllStates LogHistory.step (Traced lib) {} calls :=
    allStates_of_step _ (fun h call ht hcall => (step_traced hlib ht hcall.1 hcall.2).1) traced_opened hcalls
  constructor
  · exact hstates.mono _ fun h ht => ht.logShape hlib
  · exact allSteps_of_step _ (fun h call ht hcall => step_traced hlib ht hcall.1 hcall.2) traced_opened hcalls

def emptyPack : LogPack nuraftAndSqlite := ⟨[], by decide⟩

def compactedThenEmptyPack : List (StorageFaults × LogOp nuraftAndSqlite) :=
  [({}, .append ⟨1, 1, [7]⟩), ({}, .compact 1), ({}, .applyPack emptyPack)]

theorem empty_pack_lowers_start_index :
    nuraftAndSqlite.Documented ∧ AllSteps LogHistory.step InLog {} compactedThenEmptyPack ∧
      ¬ AllSteps LogHistory.step (StartKept nuraftAndSqlite) {} compactedThenEmptyPack :=
  ⟨nuraftAndSqlite_documented, by decide, by decide⟩

def twoEntryPack : LogPack nuraftAndSqlite := ⟨[⟨2, 1, []⟩, ⟨3, 1, [9]⟩], by decide⟩

def mixedLogCalls : List (StorageFaults × LogOp nuraftAndSqlite) :=
  [({}, .applyPack emptyPack), ({}, .append ⟨1, 1, [7]⟩), ({}, .writeAt 1 ⟨1, 1, [8]⟩), ({}, .applyPack twoEntryPack),
    ({}, .compact 1), ({ commitFails := true }, .compact 3), ({}, .applyPack emptyPack)]

theorem raft_log_keeps_shape_mixedLogCalls :
    AllSteps LogHistory.step (fun h call => InLog h call ∧ KeepsShape h call) {} mixedLogCalls ∧
      AllStates LogHistory.step (LogShape nuraftAndSqlite) {} mixedLogCalls ∧
      AllSteps LogHistory.step (StartKept nuraftAndSqlite) {} mixedLogCalls := by
  have hcalls : AllSteps LogHistory.step (fun h call => InLog h call ∧ KeepsShape h call) {} mixedLogCalls := by
    decide
  exact ⟨hcalls, raft_log_keeps_shape nuraftAndSqlite_documented mixedLogCalls hcalls⟩

end Run

end Tightrope.Sync.Consensus
