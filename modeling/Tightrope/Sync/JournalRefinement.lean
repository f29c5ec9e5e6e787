import Tightrope.Library.Runs
import Tightrope.Sync.PersistentJournal

namespace Tightrope.Sync

open MachineWords Bytes Runs

structure PendingJournalEntry.NulFree (e : PendingJournalEntry) : Prop where
  tableName : Bytes.NulFree e.tableName
  rowPk : Bytes.NulFree e.rowPk
  op : Bytes.NulFree e.op
  oldValues : Bytes.NulFree e.oldValues
  newValues : Bytes.NulFree e.newValues
  batchId : Bytes.NulFree e.batchId

instance (e : PendingJournalEntry) : Decidable e.NulFree :=
  decidable_of_iff (Bytes.NulFree e.tableName ∧ Bytes.NulFree e.rowPk ∧ Bytes.NulFree e.op ∧
      Bytes.NulFree e.oldValues ∧ Bytes.NulFree e.newValues ∧ Bytes.NulFree e.batchId)
    ⟨fun ⟨h₁, h₂, h₃, h₄, h₅, h₆⟩ => ⟨h₁, h₂, h₃, h₄, h₅, h₆⟩, fun ⟨h₁, h₂, h₃, h₄, h₅, h₆⟩ => ⟨h₁, h₂, h₃, h₄, h₅, h₆⟩⟩

def JournalOp.Plain : JournalOp → Prop
  | .append entry env => entry.NulFree ∧ entry.batchId ≠ [] ∧ env.autoCompact.enabled = false
  | .rollbackBatch batchId => Bytes.NulFree batchId ∧ batchId ≠ []
  | .markApplied _ _ => True
  | .compact _ _ => True
  | .entriesAfter _ _ _ => True

instance : DecidablePred JournalOp.Plain
  | .append _ _ => inferInstanceAs (Decidable (_ ∧ _ ∧ _))
  | .rollbackBatch _ => inferInstanceAs (Decidable (_ ∧ _))
  | .markApplied _ _ => .isTrue trivial
  | .compact _ _ => .isTrue trivial
  | .entriesAfter _ _ _ => .isTrue trivial

/-- The steps on which the rowid, the signed comparisons and the page limit of the table
agree with the counter, the unsigned comparisons and the unlimited listing of `Journal`. -/
def AgreesOn (s : Journal × JournalTable) : JournalOp → Prop
  | .append _ _ => SignedRange s.1.nextSeq ∧ (s.1.nextSeq = 1 ∨ ∃ e ∈ s.1.entries, e.seq + 1 = s.1.nextSeq)
  | .rollbackBatch _ => True
  | .markApplied _ _ => True
  | .compact cutoff ack =>
    if SignedRange ack then ∀ e ∈ s.1.entries, e.seq ≤ ack → (SignedRange e.hlc.wall ↔ SignedRange cutoff)
    else ∀ e ∈ s.1.entries, cutoff ≤ e.hlc.wall
  | .entriesAfter seq limit _ =>
    if SignedRange seq then (s.1.entriesAfter seq).length ≤ min limit kIntMax else s.1.entries = []

instance (s : Journal × JournalTable) : (op : JournalOp) → Decidable (AgreesOn s op)
  | .append _ _ => inferInstanceAs (Decidable (_ ∧ _))
  | .rollbackBatch _ => .isTrue trivial
  | .markApplied _ _ => .isTrue trivial
  | .compact cutoff ack => by unfold AgreesOn; infer_instance
  | .entriesAfter seq limit _ => by unfold AgreesOn; infer_instance

section Relation

variable (sha256 : Bytes → Bytes)

structure JournalEntry.Intact (e : JournalEntry) : Prop where
  tableName : Bytes.NulFree e.tableName
  rowPk : Bytes.NulFree e.rowPk
  op : Bytes.NulFree e.op
  oldValues : Bytes.NulFree e.oldValues
  newValues : Bytes.NulFree e.newValues
  batchId : Bytes.NulFree e.batchId
  checksum : e.checksum = journalChecksum sha256 e.tableName e.rowPk e.op e.oldValues e.newValues

structure StoredAs (j : Journal) (t : JournalTable) : Prop where
  rows : t.entries = j.entries.map (fun e => (e.seq.toInt64, bindRow e))
  positive : ∀ e ∈ j.entries, 0 < e.seq
  below : ∀ e ∈ j.entries, e.seq < j.nextSeq
  started : 0 < j.nextSeq
  range : j.nextSeq.toNat ≤ 2 ^ 63
  intact : ∀ e ∈ j.entries, e.Intact sha256

end Relation

variable {sha256 : Bytes → Bytes}

theorem readEntry_bindRow {e : JournalEntry} (h : e.Intact sha256) : readEntry e.seq.toInt64 (bindRow e) = e := by
  have hchecksum : Bytes.NulFree e.checksum := h.checksum ▸ nulFree_journalChecksum _ _ _ _ _ _
  obtain ⟨seq, hlc, tableName, rowPk, op, oldValues, newValues, checksum, applied, batchId⟩ := e
  simp only [readEntry, bindRow, UInt64.toUInt64_toInt64, cstr_eq_self.mpr h.tableName, cstr_eq_self.mpr h.rowPk,
    cstr_eq_self.mpr h.op, cstr_eq_self.mpr h.oldValues, cstr_eq_self.mpr h.newValues,
    cstr_eq_self.mpr h.batchId, cstr_eq_self.mpr hchecksum]

theorem verifies_of_intact {e : JournalEntry} (h : e.Intact sha256) : PersistentJournal.verifies sha256 e = true := by
  simpa [PersistentJournal.verifies] using h.checksum.symm

theorem map_readEntry_map_bindRow {es : List JournalEntry} (h : ∀ e ∈ es, e.Intact sha256) :
    (es.map (fun e => (e.seq.toInt64, bindRow e))).map (fun r => readEntry r.1 r.2) = es := by
  rw [List.map_map]
  conv_rhs => rw [← List.map_id es]
  exact List.map_congr_left fun e he => readEntry_bindRow (h e he)

theorem markFirst_eq_map {es : List JournalEntry} (hs : es.Pairwise (fun a b => a.seq < b.seq)) (seq : UInt64)
    (value : Int32) : Journal.markFirst seq value es =
      es.map (fun e => if e.seq = seq then { e with applied := value } else e) := by
  induction es with
  | nil => rfl
  | cons e es ih =>
    obtain ⟨he, hes⟩ := List.pairwise_cons.mp hs
    rw [Journal.markFirst, List.map_cons]
    split_ifs with hseq
    · have hrest : es.map (fun e => if e.seq = seq then { e with applied := value } else e) = es := by
        conv_rhs => rw [← List.map_id es]
        exact List.map_congr_left fun d hd => if_neg (fun heq => absurd (he d hd) (by simp [hseq, heq]))
      rw [hrest]
    · rw [ih hes]

namespace StoredAs

variable {j : Journal} {t : JournalTable} (h : StoredAs sha256 j t)

include h

theorem signedRange {e : JournalEntry} (he : e ∈ j.entries) : SignedRange e.seq := by
  have hlt := h.below e he
  have hle := h.range
  rw [UInt64.lt_iff_toNat_lt] at hlt
  unfold SignedRange
  omega

theorem pairwise_seq : j.entries.Pairwise (fun a b => a.seq < b.seq) := by
  have hs := t.sorted
  rw [h.rows, List.pairwise_map] at hs
  refine hs.imp_of_mem ?_
  intro a b ha hb hlt
  exact (toInt64_lt_iff (iff_of_true (h.signedRange ha) (h.signedRange hb))).mp hlt

theorem filter_rows {p : JournalEntry → Bool} {q : Int64 → JournalRow → Bool}
    (hpq : ∀ e ∈ j.entries, q e.seq.toInt64 (bindRow e) = p e) :
    (t.filter q).entries = (j.entries.filter p).map (fun e => (e.seq.toInt64, bindRow e)) := by
  simp only [FlatMap.filter, h.rows, List.filter_map]
  congr 1
  exact List.filter_congr fun e he => hpq e he

theorem keep {p : JournalEntry → Bool} {q : Int64 → JournalRow → Bool}
    (hpq : ∀ e ∈ j.entries, q e.seq.toInt64 (bindRow e) = p e) :
    StoredAs sha256 { j with entries := j.entries.filter p } (t.filter q) where
  rows := h.filter_rows hpq
  positive e he := h.positive e (List.mem_filter.mp he).1
  below e he := h.below e (List.mem_filter.mp he).1
  started := h.started
  range := h.range
  intact e he := h.intact e (List.mem_filter.mp he).1

theorem read_filter {p : JournalEntry → Bool} {q : Int64 → JournalRow → Bool}
    (hpq : ∀ e ∈ j.entries, q e.seq.toInt64 (bindRow e) = p e) :
    (t.filter q).entries.map (fun r => readEntry r.1 r.2) = j.entries.filter p := by
  rw [h.filter_rows hpq]
  exact map_readEntry_map_bindRow fun e he => h.intact e (List.mem_filter.mp he).1

theorem batchId_eq_iff {batchId : Bytes} (hb : Bytes.NulFree batchId) {e : JournalEntry} (he : e ∈ j.entries) :
    (bindRow e).batchId = cstr batchId ↔ e.batchId = batchId := by
  rw [cstr_eq_self.mpr hb, bindRow, cstr_eq_self.mpr (h.intact e he).batchId]

theorem rollbackBatch {batchId : Bytes} (hb : Bytes.NulFree batchId) :
    StoredAs sha256 (j.rollbackBatch batchId).1 (PersistentJournal.rollbackBatch t batchId).1 ∧
      (j.rollbackBatch batchId).2 = (PersistentJournal.rollbackBatch t batchId).2 := by
  simp only [Journal.rollbackBatch, PersistentJournal.rollbackBatch]
  constructor
  · apply h.keep
    intro e he
    simp only [ne_eq, h.batchId_eq_iff hb he]
  · rw [h.read_filter]
    intro e he
    simp only [h.batchId_eq_iff hb he]

theorem compact {cutoff ack : UInt64} (hop : AgreesOn (j, t) (.compact cutoff ack)) :
    StoredAs sha256 (j.compact cutoff ack).1 (PersistentJournal.compact t cutoff ack).1 ∧
      (j.compact cutoff ack).2 = (PersistentJournal.compact t cutoff ack).2 := by
  have hdoomed : ∀ e ∈ j.entries, ((bindRow e).hlcWall < cutoff.toInt64 ∧ e.seq.toInt64 ≤ ack.toInt64) ↔
      (e.hlc.wall < cutoff ∧ e.seq ≤ ack) := by
    intro e he
    have hseq := h.signedRange he
    simp only [AgreesOn] at hop
    split_ifs at hop with hack
    · rw [toInt64_le_iff (iff_of_true hseq hack)]
      refine and_congr_left fun hle => ?_
      exact toInt64_lt_iff (hop e he hle)
    · have hneg := toInt64_neg_iff.mpr hack
      have hpos : ¬ e.seq.toInt64 < 0 := fun hlt => toInt64_neg_iff.mp hlt hseq
      refine iff_of_false (fun hd => ?_) (fun hd => ?_)
      · exact hpos (hd.2.trans_lt hneg)
      · exact absurd hd.1 (not_lt.mpr (hop e he))
  have hfilter : ∀ e ∈ j.entries, decide (¬ ((bindRow e).hlcWall < cutoff.toInt64 ∧ e.seq.toInt64 ≤ ack.toInt64)) =
      decide (¬ (e.hlc.wall < cutoff ∧ e.seq ≤ ack)) := by
    intro e he
    simp only [hdoomed e he]
  simp only [Journal.compact, PersistentJournal.compact]
  constructor
  · apply h.keep
    exact hfilter
  · have hkept := h.filter_rows (p := fun e => ¬ (e.hlc.wall < cutoff ∧ e.seq ≤ ack))
      (q := fun seq row => ¬ (row.hlcWall < cutoff.toInt64 ∧ seq ≤ ack.toInt64)) hfilter
    rw [FlatMap.size, FlatMap.size, hkept, h.rows, List.length_map, List.length_map]

theorem markApplied (seq : UInt64) (value : Int32) :
    StoredAs sha256 (j.markApplied seq value).1 (PersistentJournal.markApplied t seq value).1 ∧
      (j.markApplied seq value).2 = (PersistentJournal.markApplied t seq value).2 := by
  simp only [Journal.markApplied, PersistentJournal.markApplied, markFirst_eq_map h.pairwise_seq]
  have hmem : ∀ e ∈ j.entries.map (fun e => if e.seq = seq then { e with applied := value } else e),
      ∃ d ∈ j.entries, e.seq = d.seq ∧ (d.Intact sha256 → e.Intact sha256) := by
    intro e he
    obtain ⟨d, hd, rfl⟩ := List.mem_map.mp he
    refine ⟨d, hd, ?_, fun hintact => ?_⟩
    · split_ifs <;> rfl
    · split_ifs
      · exact ⟨hintact.1, hintact.2, hintact.3, hintact.4, hintact.5, hintact.6, hintact.7⟩
      · exact hintact
  refine ⟨⟨?_, ?_, ?_, h.started, h.range, ?_⟩, ?_⟩
  · simp only [FlatMap.map, h.rows, List.map_map]
    refine List.map_congr_left fun e he => ?_
    by_cases hseq : e.seq = seq
    · simp [hseq, bindRow]
    · simp [hseq, toInt64_inj]
  · intro e he
    obtain ⟨d, hd, hseq, -⟩ := hmem e he
    rw [hseq]
    exact h.positive d hd
  · intro e he
    obtain ⟨d, hd, hseq, -⟩ := hmem e he
    rw [hseq]
    exact h.below d hd
  · intro e he
    obtain ⟨d, hd, -, hintact⟩ := hmem e he
    exact hintact (h.intact d hd)
  · rw [Bool.eq_iff_iff, List.any_eq_true, Option.isSome_iff_exists]
    constructor
    · rintro ⟨e, he, hseq⟩
      refine ⟨bindRow e, FlatMap.mem_entries.mp ?_⟩
      rw [h.rows, ← of_decide_eq_true hseq]
      exact List.mem_map_of_mem he
    · rintro ⟨row, hrow⟩
      have hm := FlatMap.mem_entries.mpr hrow
      rw [h.rows] at hm
      obtain ⟨e, he, heq⟩ := List.mem_map.mp hm
      exact ⟨e, he, by simpa [toInt64_inj] using (Prod.mk.inj heq).1⟩

theorem entriesAfter {seq : UInt64} {limit : ℕ} {verify : Bool}
    (hop : AgreesOn (j, t) (.entriesAfter seq limit verify)) :
    j.entriesAfter seq = PersistentJournal.entriesAfter t sha256 seq limit verify := by
  have hlisted : ((t.rowsAfter seq).take (min limit kIntMax)).map (fun r => readEntry r.1 r.2) =
      j.entriesAfter seq := by
    simp only [AgreesOn] at hop
    split_ifs at hop with hseq
    · have hread := h.read_filter (p := fun e => e.seq > seq) (q := fun key _ => key > seq.toInt64) (by
        intro e he
        simp only [gt_iff_lt, toInt64_lt_iff (iff_of_true hseq (h.signedRange he))])
      have hall : (t.rowsAfter seq).map (fun r => readEntry r.1 r.2) = j.entriesAfter seq := hread
      have hlen : (t.rowsAfter seq).length ≤ min limit kIntMax := by
        rw [← hall, List.length_map] at hop
        exact hop
      rw [List.take_of_length_le hlen, hall]
    · simp [JournalTable.rowsAfter, Journal.entriesAfter, h.rows, hop]
  have hverify : (j.entriesAfter seq).all (PersistentJournal.verifies sha256) = true := by
    rw [List.all_eq_true]
    intro e he
    exact verifies_of_intact (h.intact e (List.mem_filter.mp he).1)
  simp only [PersistentJournal.entriesAfter, hlisted, hverify, not_true_eq_false, and_false, ↓reduceIte]

theorem nextRowid {randomRowid : Option Int64} (hrange : SignedRange j.nextSeq)
    (hnewest : j.nextSeq = 1 ∨ ∃ e ∈ j.entries, e.seq + 1 = j.nextSeq) :
    t.nextRowid randomRowid = some j.nextSeq.toInt64 := by
  cases hlast : t.lastKey? with
  | none =>
    have hempty : j.entries = [] := by
      have hrows := h.rows
      rw [FlatMap.lastKey?_eq_none.mp hlast] at hrows
      exact List.map_eq_nil_iff.mp hrows.symm
    have hone : j.nextSeq = 1 := by simpa [hempty] using hnewest
    simp only [JournalTable.nextRowid, hlast, hone]
    rfl
  | some key =>
    obtain ⟨row, hrow⟩ := FlatMap.find?_lastKey hlast
    have hm := FlatMap.mem_entries.mpr hrow
    rw [h.rows] at hm
    obtain ⟨d, hd, heq⟩ := List.mem_map.mp hm
    obtain ⟨rfl, -⟩ := Prod.mk.inj heq
    have hpos := h.positive d hd
    have hbelow := h.below d hd
    obtain ⟨e, he, hnext⟩ := hnewest.resolve_left (by rintro hone; rw [hone] at hbelow; grind)
    have hle : e.seq ≤ d.seq := by
      have hek : t.find? e.seq.toInt64 = some (bindRow e) := by
        rw [← FlatMap.mem_entries, h.rows]
        exact List.mem_map_of_mem he
      have hlek := FlatMap.le_lastKey hlast hek
      exact (toInt64_le_iff (iff_of_true (h.signedRange he) (h.signedRange hd))).mp hlek
    have hde : d.seq = e.seq := by
      have he' := h.below e he
      grind
    have hmax : d.seq.toInt64 < Int64.maxValue := by
      apply toInt64_lt_maxValue (h.signedRange hd)
      rwa [hde, hnext]
    have hsucc : d.seq.toInt64 + 1 = j.nextSeq.toInt64 := by
      rw [← hnext, ← hde]
      rfl
    simp only [JournalTable.nextRowid, hlast, if_pos hmax, hsucc]

theorem append {entry : PendingJournalEntry} {env : AppendEnv} (hop : AgreesOn (j, t) (.append entry env))
    (hplain : (JournalOp.append entry env).Plain) :
    StoredAs sha256 (j.append sha256 env.generateBatchId entry).1 (PersistentJournal.append t sha256 entry env).1 ∧
      some (j.append sha256 env.generateBatchId entry).2 = (PersistentJournal.append t sha256 entry env).2 := by
  obtain ⟨hrange, hnewest⟩ : SignedRange j.nextSeq ∧ _ := hop
  obtain ⟨htext, hbatch, hdisabled⟩ := hplain
  have hkeys : ∀ r ∈ t.entries, r.1 < j.nextSeq.toInt64 := by
    rw [h.rows]
    intro r hr
    obtain ⟨e, he, rfl⟩ := List.mem_map.mp hr
    exact (toInt64_lt_iff (iff_of_true (h.signedRange he) hrange)).mpr (h.below e he)
  have hnext := toNat_add_one hrange
  have hcreated : ∀ {P : JournalEntry → Prop}, (∀ e ∈ j.entries, P e) →
      P (Journal.created sha256 env.generateBatchId j.nextSeq entry) →
      ∀ e ∈ j.entries ++ [Journal.created sha256 env.generateBatchId j.nextSeq entry], P e := by
    intro P hold hnew e he
    obtain he | he := List.mem_append.mp he
    · exact hold e he
    · rw [List.mem_singleton.mp he]
      exact hnew
  simp only [Journal.append, PersistentJournal.append, PersistentJournal.insertPending, h.nextRowid hrange hnewest,
    Option.map_some, UInt64.toUInt64_toInt64, PersistentJournal.autoCompact, hdisabled, Bool.false_eq_true, false_and,
    ↓reduceIte, and_true]
  unfold SignedRange at hrange
  refine ⟨?_, ?_, ?_, ?_, ?_, ?_⟩
  · rw [FlatMap.entries_insert_last _ hkeys, h.rows, List.map_append]
    rfl
  · exact hcreated h.positive h.started
  · apply hcreated
    · intro e he
      have hlt := h.below e he
      rw [UInt64.lt_iff_toNat_lt] at hlt ⊢
      change e.seq.toNat < (j.nextSeq + 1).toNat
      omega
    · change j.nextSeq < j.nextSeq + 1
      rw [UInt64.lt_iff_toNat_lt]
      omega
  · change 0 < j.nextSeq + 1
    rw [UInt64.lt_iff_toNat_lt, hnext]
    exact Nat.succ_pos _
  · change (j.nextSeq + 1).toNat ≤ 2 ^ 63
    omega
  · apply hcreated h.intact
    refine ⟨htext.tableName, htext.rowPk, htext.op, htext.oldValues, htext.newValues, ?_, rfl⟩
    simp only [Journal.created, if_neg hbatch]
    exact htext.batchId

theorem perform {op : JournalOp} (hplain : op.Plain) (hop : AgreesOn (j, t) op) :
    StoredAs sha256 (j.perform sha256 op).1 (PersistentJournal.perform sha256 t op).1 ∧
      (j.perform sha256 op).2 = (PersistentJournal.perform sha256 t op).2 := by
  cases op with
  | append entry env =>
    obtain ⟨hrel, hreply⟩ := h.append hop hplain
    exact ⟨hrel, congrArg JournalReply.appended hreply⟩
  | rollbackBatch batchId =>
    obtain ⟨hrel, hreply⟩ := h.rollbackBatch hplain.1
    exact ⟨hrel, congrArg JournalReply.entries hreply⟩
  | markApplied seq value =>
    obtain ⟨hrel, hreply⟩ := h.markApplied seq value
    exact ⟨hrel, congrArg JournalReply.updated hreply⟩
  | compact cutoff ack =>
    obtain ⟨hrel, hreply⟩ := h.compact hop
    exact ⟨hrel, congrArg JournalReply.deleted hreply⟩
  | entriesAfter seq limit verify => exact ⟨h, congrArg JournalReply.entries (h.entriesAfter hop)⟩

end StoredAs

theorem storedAs_empty (sha256 : Bytes → Bytes) : StoredAs sha256 .new .empty where
  rows := rfl
  positive := nofun
  below := nofun
  started := by decide
  range := by decide
  intact := nofun

def assignedSeqs (replies : List JournalReply) : List UInt64 :=
  replies.filterMap fun
    | .appended created => created.map JournalEntry.seq
    | .entries _ => none
    | .updated _ => none
    | .deleted _ => none

theorem nextSeq_perform (sha256 : Bytes → Bytes) (j : Journal) (op : JournalOp) :
    (∃ entry env, op = .append entry env) ∨
      (j.perform sha256 op).1.nextSeq = j.nextSeq ∧ ∀ replies,
        assignedSeqs ((j.perform sha256 op).2 :: replies) = assignedSeqs replies := by
  cases op with
  | append entry env => exact .inl ⟨entry, env, rfl⟩
  | _ => exact .inr ⟨rfl, fun _ => rfl⟩

theorem assignedSeqs_journal {j : Journal} {t : JournalTable} {ops : List JournalOp}
    (h : AllSteps (pairStep (Journal.perform sha256) (PersistentJournal.perform sha256)) AgreesOn (j, t) ops) :
    (∀ seq ∈ assignedSeqs (replies (Journal.perform sha256) j ops), j.nextSeq ≤ seq) ∧
      (assignedSeqs (replies (Journal.perform sha256) j ops)).Nodup := by
  induction ops generalizing j t with
  | nil => exact ⟨nofun, .nil⟩
  | cons op ops ih =>
    obtain ⟨hop, hrest⟩ := h
    obtain ⟨hge, hnodup⟩ := ih hrest
    obtain ⟨entry, env, rfl⟩ | ⟨hnext, hsame⟩ := nextSeq_perform sha256 j op
    · have hlt : j.nextSeq < j.nextSeq + 1 := by
        rw [UInt64.lt_iff_toNat_lt, toNat_add_one hop.1]
        exact Nat.lt_succ_self _
      have hge' : ∀ seq ∈ assignedSeqs (replies (Journal.perform sha256)
          (j.perform sha256 (.append entry env)).1 ops), j.nextSeq < seq :=
        fun seq hseq => hlt.trans_le (hge seq hseq)
      have hcons : assignedSeqs (replies (Journal.perform sha256) j (.append entry env :: ops)) =
          j.nextSeq :: assignedSeqs (replies (Journal.perform sha256)
            (j.perform sha256 (.append entry env)).1 ops) := rfl
      rw [hcons]
      refine ⟨fun seq hseq => ?_, List.nodup_cons.mpr ⟨fun hmem => lt_irrefl _ (hge' _ hmem), hnodup⟩⟩
      obtain rfl | hseq := List.mem_cons.mp hseq
      · exact le_refl _
      · exact (hge' seq hseq).le
    · rw [replies, hsame]
      rw [hnext] at hge
      exact ⟨hge, hnodup⟩

theorem persistentJournal_refines_journal (sha256 : Bytes → Bytes) (ops : List JournalOp)
    (hplain : ∀ op ∈ ops, op.Plain)
    (hagrees : AllSteps (pairStep (Journal.perform sha256) (PersistentJournal.perform sha256)) AgreesOn
      (.new, .empty) ops) :
    replies (PersistentJournal.perform sha256) .empty ops = replies (Journal.perform sha256) .new ops ∧
      (assignedSeqs (replies (PersistentJournal.perform sha256) .empty ops)).Nodup := by
  have hsim : replies (Journal.perform sha256) .new ops = replies (PersistentJournal.perform sha256) .empty ops := by
    apply replies_eq_of_simulation _ _ _ (storedAs_empty sha256) (hagrees.and_forall _ hplain)
    intro s t op hrel hop
    exact hrel.perform hop.1 hop.2
  refine ⟨hsim.symm, ?_⟩
  rw [← hsim]
  exact (assignedSeqs_journal hagrees).2

def sampleAppend (batchId : String) : JournalOp := .append (accountInsert 100 batchId) ⟨[], none, { enabled := false }⟩

theorem persistentJournal_refines_journal_sample :
    let ops := [sampleAppend "b1", sampleAppend "b2", .markApplied 1 2, .rollbackBatch (ofString "b1"),
      sampleAppend "b3", .compact 100 3, .entriesAfter 0 1000 true]
    replies (PersistentJournal.perform sampleSha256) .empty ops = replies (Journal.perform sampleSha256) .new ops ∧
      (assignedSeqs (replies (PersistentJournal.perform sampleSha256) .empty ops)).Nodup := by
  intro ops
  apply persistentJournal_refines_journal sampleSha256 ops
  · decide
  · decide

theorem rolled_back_seq_is_assigned_again :
    let ops := [sampleAppend "b1", sampleAppend "b2", .rollbackBatch (ofString "b2"), sampleAppend "b3"]
    ¬ ((∀ op ∈ ops, op.Plain) →
      replies (PersistentJournal.perform sampleSha256) .empty ops = replies (Journal.perform sampleSha256) .new ops ∧
        (assignedSeqs (replies (PersistentJournal.perform sampleSha256) .empty ops)).Nodup) := by
  decide

end Tightrope.Sync
