import Tightrope.Library.Runs
import Tightrope.Sync.Replication

namespace Tightrope.Sync

open Bytes MachineWords Runs SyncEngine

/-- One call of `apply_batch`. -/
structure BatchDelivery where
  env : ApplyEnv
  appliedValue : Int32
  batch : JournalBatchFrame

section Calls

variable (sha256 : Bytes → Bytes) (source : JournalTable)

def BatchDelivery.apply (t : JournalTable) (d : BatchDelivery) : JournalTable × ApplyBatchResult :=
  applyBatch sha256 d.env d.appliedValue t d.batch

def deliverBatch (t : JournalTable) (d : BatchDelivery) : JournalTable := (d.apply sha256 t).1

def RowOf (e : JournalWireEntry) : Prop := ∃ key row, source.find? key = some row ∧ readWireEntry key row = e

structure ApplyEnv.Works (env : ApplyEnv) : Prop where
  begins : env.beginError = none
  prepares : env.prepareError = none
  inserts : ∀ i, env.insertError i = none
  commits : env.commitError = none

structure BatchDelivery.Drawn (d : BatchDelivery) : Prop where
  works : d.env.Works
  rows : ∀ e ∈ d.batch.entries, RowOf source e

def Intact (e : JournalWireEntry) : Prop :=
  isTableReplicated e.tableName = true ∧
    journalChecksum sha256 e.tableName e.rowPk e.op e.oldValues e.newValues = e.checksum

instance : DecidablePred (Intact sha256) := fun _ => inferInstanceAs (Decidable (_ ∧ _))

def IntactBatch (batch : JournalBatchFrame) : Prop := ∀ e ∈ batch.entries, Intact sha256 e

instance : DecidablePred (IntactBatch sha256) := fun batch =>
  inferInstanceAs (Decidable (∀ e ∈ batch.entries, Intact sha256 e))

/-- The rows of the intact ones among the batches. -/
def intactRows (ds : List BatchDelivery) : List JournalWireEntry :=
  (ds.filter fun d => IntactBatch sha256 d.batch).flatMap fun d => d.batch.entries

end Calls

def ReceivedAs (e : JournalWireEntry) (row : JournalRow) : Prop :=
  ∃ appliedValue generatedId, row = wireRow appliedValue generatedId e

structure HoldsRows (t : JournalTable) (es : List JournalWireEntry) : Prop where
  stored : ∀ e ∈ es, ∃ row, t.find? e.seq.toInt64 = some row ∧ ReceivedAs e row
  only : ∀ key row, t.find? key = some row → ∃ e ∈ es, e.seq.toInt64 = key

section Deliveries

variable {sha256 : Bytes → Bytes} {source t : JournalTable} {d : BatchDelivery} {ds : List BatchDelivery}
  {es : List JournalWireEntry}

theorem RowOf.eq_of_key {e f : JournalWireEntry} (he : RowOf source e) (hf : RowOf source f)
    (hkey : e.seq.toInt64 = f.seq.toInt64) : e = f := by
  obtain ⟨key, row, hrow, rfl⟩ := he
  obtain ⟨key', row', hrow', rfl⟩ := hf
  rw [seq_readWireEntry, seq_readWireEntry] at hkey
  subst hkey
  rw [hrow] at hrow'
  rw [Option.some.inj hrow']

theorem RowOf.cstr_checksum {e : JournalWireEntry} (h : RowOf source e) : cstr e.checksum = e.checksum := by
  obtain ⟨key, row, -, rfl⟩ := h
  exact cstr_cstr row.checksum

theorem HoldsRows.empty : HoldsRows .empty [] := ⟨by simp, nofun⟩

theorem HoldsRows.checksum (h : HoldsRows t es) (hes : ∀ e ∈ es, RowOf source e) {e : JournalWireEntry}
    (he : RowOf source e) {row : JournalRow} (hrow : t.find? e.seq.toInt64 = some row) :
    cstr row.checksum = e.checksum := by
  obtain ⟨f, hf, hkey⟩ := h.only _ row hrow
  obtain rfl := (hes f hf).eq_of_key he hkey
  obtain ⟨row', hrow', appliedValue, generatedId, rfl⟩ := h.stored f hf
  rw [hrow] at hrow'
  rw [Option.some.inj hrow', wireRow, cstr_cstr, he.cstr_checksum]

theorem apply_success_iff (h : HoldsRows t es) (hes : ∀ e ∈ es, RowOf source e) (hd : d.Drawn source) :
    (d.apply sha256 t).2.success = true ↔ IntactBatch sha256 d.batch := by
  rw [BatchDelivery.apply, applyBatch_success_iff]
  constructor
  · rintro ⟨-, -, -, hbatch⟩ e he
    exact ⟨hbatch.replicated e he, hbatch.checksum e he⟩
  · intro hintact
    refine ⟨hd.works.begins, hd.works.prepares, hd.works.commits, ?_⟩
    refine ⟨fun e he => (hintact e he).1, fun e he => (hintact e he).2, fun i _ => hd.works.inserts _, ?_, ?_⟩
    · intro e he row hrow
      exact h.checksum hes (hd.rows e he) hrow
    · intro e he f hf hseq
      rw [(hd.rows e he).eq_of_key (hd.rows f hf) (congrArg _ hseq)]

theorem HoldsRows.deliver (h : HoldsRows t es) (hes : ∀ e ∈ es, RowOf source e) (hd : d.Drawn source)
    (hintact : IntactBatch sha256 d.batch) : HoldsRows (deliverBatch sha256 t d) (es ++ d.batch.entries) := by
  have hfind (key : Int64) : (deliverBatch sha256 t d).find? key = _ :=
    find?_applyBatch ((apply_success_iff h hes hd).mpr hintact) key
  have hsource : ∀ e ∈ es ++ d.batch.entries, RowOf source e := by
    intro e he
    obtain he | he := List.mem_append.mp he
    · exact hes e he
    · exact hd.rows e he
  constructor
  · intro e he
    rw [hfind]
    cases hrow : t.find? e.seq.toInt64 with
    | some row =>
      obtain ⟨f, hf, hkey⟩ := h.only _ row hrow
      obtain rfl := (hes f hf).eq_of_key (hsource e he) hkey
      obtain ⟨row', hrow', hreceived⟩ := h.stored f hf
      rw [hrow] at hrow'
      exact ⟨row', hrow', hreceived⟩
    | none =>
      obtain he | he := List.mem_append.mp he
      · obtain ⟨row, hrow', -⟩ := h.stored e he
        rw [hrow] at hrow'
        cases hrow'
      · have hsome : ∃ row, insertedRow d.env d.appliedValue 0 d.batch.entries e.seq.toInt64 = some row :=
          insertedRow_isSome he
        obtain ⟨row, hnew⟩ := hsome
        obtain ⟨f, hf, hkey, generatedId, hf'⟩ := insertedRow_eq_some hnew
        obtain rfl := (hd.rows f hf).eq_of_key (hd.rows e he) hkey
        exact ⟨row, hnew, _, generatedId, hf'⟩
  · intro key row hrow
    rw [hfind] at hrow
    obtain hold | ⟨-, hnew⟩ := Option.or_eq_some_iff.mp hrow
    · obtain ⟨e, he, hkey⟩ := h.only key row hold
      exact ⟨e, List.mem_append_left _ he, hkey⟩
    · obtain ⟨e, he, hkey, -⟩ := insertedRow_eq_some hnew
      exact ⟨e, List.mem_append_right _ he, hkey⟩

theorem deliverBatch_of_refused (h : ¬ (d.apply sha256 t).2.success = true) : deliverBatch sha256 t d = t :=
  applyBatch_of_failed (Bool.eq_false_of_not_eq_true h)

theorem rowOf_intactRows (hds : ∀ d ∈ ds, d.Drawn source) : ∀ e ∈ intactRows sha256 ds, RowOf source e := by
  intro e he
  obtain ⟨d, hd, hmem⟩ := List.mem_flatMap.mp he
  exact (hds d (List.mem_filter.mp hd).1).rows e hmem

theorem intactRows_cons (d : BatchDelivery) (ds : List BatchDelivery) :
    intactRows sha256 (d :: ds) =
      (if IntactBatch sha256 d.batch then d.batch.entries else []) ++ intactRows sha256 ds := by
  by_cases h : IntactBatch sha256 d.batch
  · simp [intactRows, h]
  · simp [intactRows, h]

theorem holdsRows_run (sha256 : Bytes → Bytes) (h : HoldsRows t es) (hes : ∀ e ∈ es, RowOf source e)
    (hds : ∀ d ∈ ds, d.Drawn source) :
    AllSteps (deliverBatch sha256) (fun t d => ((d.apply sha256 t).2.success = true ↔ IntactBatch sha256 d.batch) ∧
        (¬ IntactBatch sha256 d.batch → (d.apply sha256 t).1 = t)) t ds ∧
      HoldsRows (run (deliverBatch sha256) t ds) (es ++ intactRows sha256 ds) := by
  induction ds generalizing t es with
  | nil => exact ⟨trivial, by rwa [intactRows, List.filter_nil, List.flatMap_nil, List.append_nil]⟩
  | cons d ds ih =>
    obtain ⟨hd, hrest⟩ := List.forall_mem_cons.mp hds
    have hsuccess : (d.apply sha256 t).2.success = true ↔ IntactBatch sha256 d.batch := apply_success_iff h hes hd
    have hrefused : ¬ IntactBatch sha256 d.batch → deliverBatch sha256 t d = t :=
      fun hbroken => deliverBatch_of_refused fun hdone => hbroken (hsuccess.mp hdone)
    by_cases hintact : IntactBatch sha256 d.batch
    · have hes' : ∀ e ∈ es ++ d.batch.entries, RowOf source e := by
        intro e he
        obtain he | he := List.mem_append.mp he
        · exact hes e he
        · exact hd.rows e he
      obtain ⟨hsteps, hholds⟩ := ih (h.deliver hes hd hintact) hes' hrest
      refine ⟨⟨⟨hsuccess, hrefused⟩, hsteps⟩, ?_⟩
      rw [intactRows_cons, if_pos hintact, ← List.append_assoc]
      exact hholds
    · have hsame := hrefused hintact
      obtain ⟨hsteps, hholds⟩ := ih h hes hrest
      rw [← hsame] at hsteps
      refine ⟨⟨⟨hsuccess, hrefused⟩, hsteps⟩, ?_⟩
      rw [intactRows_cons, if_neg hintact, List.nil_append, run, List.foldl_cons, hsame]
      exact hholds

theorem apply_again (h : HoldsRows t es) (hes : ∀ e ∈ es, RowOf source e) (hworks : d.env.Works)
    (hthere : ∀ e ∈ d.batch.entries, e ∈ es) (hintact : IntactBatch sha256 d.batch) :
    (d.apply sha256 t).2.success = true ∧ (d.apply sha256 t).2.appliedCount = 0 ∧ (d.apply sha256 t).1 = t := by
  have hdone := (apply_success_iff h hes ⟨hworks, fun e he => hes e (hthere e he)⟩).mpr hintact
  refine ⟨hdone, ?_⟩
  have hkept : ∀ s : ApplyProgress, s.appliedCount = 0 ∧ s.table = t →
      let loop := applyEntries sha256 d.env d.appliedValue 0 s d.batch.entries
      loop.1.appliedCount = 0 ∧ loop.1.table = t := by
    intro s hs
    refine applyEntries_invariant (P := fun s => s.appliedCount = 0 ∧ s.table = t) sha256 ?_ 0 hs
    rintro i s e he ⟨hcount, rfl⟩
    obtain ⟨row, hrow, -⟩ := h.stored e (hthere e he)
    rw [acceptEntry, hrow]
    exact ⟨hcount, rfl⟩
  obtain ⟨error, -, heq⟩ | ⟨error, -, -, -, heq⟩ | ⟨-, -, -, -, heq⟩ :=
    applyBatch_cases sha256 d.env d.appliedValue t d.batch
  · rw [BatchDelivery.apply, heq] at hdone
    cases hdone
  · rw [BatchDelivery.apply, heq] at hdone
    cases hdone
  · rw [BatchDelivery.apply, heq]
    exact hkept ⟨t, 0, 0⟩ ⟨rfl, rfl⟩

theorem mem_intactRows {e : JournalWireEntry} :
    e ∈ intactRows sha256 ds ↔ ∃ batch ∈ ds.map BatchDelivery.batch, IntactBatch sha256 batch ∧ e ∈ batch.entries := by
  simp only [intactRows, List.mem_flatMap, List.mem_filter, decide_eq_true_eq, List.mem_map, exists_exists_and_eq_and,
    and_assoc]

theorem HoldsRows.congr {es' : List JournalWireEntry} (h : HoldsRows t es) (hmem : ∀ e, e ∈ es ↔ e ∈ es') :
    HoldsRows t es' where
  stored e he := h.stored e ((hmem e).mpr he)
  only key row hrow := by
    obtain ⟨e, he, hkey⟩ := h.only key row hrow
    exact ⟨e, (hmem e).mp he, hkey⟩

/-- Whatever the order and the repetitions, the intact batches go in, the other ones change nothing, and the journal
comes to hold the rows of the intact ones. -/
theorem catch_up_in_any_order (sha256 : Bytes → Bytes) {source : JournalTable} {ds : List BatchDelivery}
    (hds : ∀ d ∈ ds, d.Drawn source) :
    AllSteps (deliverBatch sha256) (fun t d => ((d.apply sha256 t).2.success = true ↔ IntactBatch sha256 d.batch) ∧
        (¬ IntactBatch sha256 d.batch → (d.apply sha256 t).1 = t)) .empty ds ∧
      HoldsRows (run (deliverBatch sha256) .empty ds) (intactRows sha256 ds) ∧
      (∀ ds' : List BatchDelivery, (∀ d ∈ ds', d.Drawn source) →
        (∀ batch, batch ∈ ds'.map BatchDelivery.batch ↔ batch ∈ ds.map BatchDelivery.batch) →
          HoldsRows (run (deliverBatch sha256) .empty ds') (intactRows sha256 ds)) ∧
      ∀ d ∈ ds, IntactBatch sha256 d.batch → ∀ again : BatchDelivery, again.env.Works → again.batch = d.batch →
        (again.apply sha256 (run (deliverBatch sha256) .empty ds)).2.success = true ∧
          (again.apply sha256 (run (deliverBatch sha256) .empty ds)).2.appliedCount = 0 ∧
          (again.apply sha256 (run (deliverBatch sha256) .empty ds)).1 = run (deliverBatch sha256) .empty ds := by
  have hstart : ∀ e ∈ ([] : List JournalWireEntry), RowOf source e := fun e he => by cases he
  obtain ⟨hsteps, hholds⟩ := holdsRows_run sha256 HoldsRows.empty hstart hds
  refine ⟨hsteps, hholds, ?_, ?_⟩
  · intro ds' hds' hsame
    obtain ⟨-, hholds'⟩ := holdsRows_run sha256 HoldsRows.empty hstart hds'
    apply hholds'.congr
    intro e
    rw [List.nil_append, mem_intactRows, mem_intactRows]
    simp only [hsame]
  · intro d hd hintact again hworks hbatch
    rw [← hbatch] at hintact
    refine apply_again hholds (rowOf_intactRows hds) hworks ?_ hintact
    intro e he
    exact mem_intactRows.mpr ⟨d.batch, List.mem_map_of_mem hd, hbatch ▸ hintact, hbatch ▸ he⟩

theorem rowOf_buildBatch {afterSeq : UInt64} {limit : ℕ} :
    ∀ e ∈ (buildBatch source afterSeq limit).entries, RowOf source e := by
  intro e he
  obtain ⟨⟨key, row⟩, hmem, rfl⟩ := List.mem_map.mp he
  have hrow : (key, row) ∈ source.rowsAfter afterSeq := by
    rw [limitRows] at hmem
    split_ifs at hmem
    · exact hmem
    · exact List.mem_of_mem_take hmem
  exact ⟨key, row, FlatMap.mem_entries.mp (List.mem_of_mem_filter hrow), rfl⟩

end Deliveries

section Samples

def workingEnv : ApplyEnv where
  generateBatchId _ := ofString "0-0"

theorem workingEnv_works : workingEnv.Works := ⟨rfl, rfl, fun _ => rfl, rfl⟩

def sampleSource : JournalTable :=
  ((FlatMap.empty.insert 1 (bindRow (Journal.created id [] 1 (accountInsert 10 "a")))).insert 2
    (bindRow (Journal.created id [] 2 (accountInsert 20 "b")))).insert 3
    (bindRow (Journal.created id [] 3 { accountInsert 30 "c" with tableName := ofString "request_logs" }))

def sampleDelivery (afterSeq : UInt64) (limit : ℕ) : BatchDelivery :=
  ⟨workingEnv, 1, buildBatch sampleSource afterSeq limit⟩

theorem sampleDelivery_drawn (afterSeq : UInt64) (limit : ℕ) : (sampleDelivery afterSeq limit).Drawn sampleSource :=
  ⟨workingEnv_works, rowOf_buildBatch⟩

theorem second_batch_again :
    ((sampleDelivery 0 2).apply id (run (deliverBatch id) .empty
      [sampleDelivery 1 1, sampleDelivery 0 2, sampleDelivery 0 3])).2.appliedCount = 0 := by
  have hds : ∀ d ∈ [sampleDelivery 1 1, sampleDelivery 0 2, sampleDelivery 0 3], d.Drawn sampleSource := by
    intro d hd
    simp only [List.mem_cons, List.not_mem_nil, or_false] at hd
    obtain rfl | rfl | rfl := hd
    · exact sampleDelivery_drawn 1 1
    · exact sampleDelivery_drawn 0 2
    · exact sampleDelivery_drawn 0 3
  obtain ⟨-, -, -, hagain⟩ := catch_up_in_any_order id hds
  exact (hagain (sampleDelivery 0 2) (by simp) (by decide +kernel) (sampleDelivery 0 2) workingEnv_works rfl).2.1

theorem local_row_is_refused :
    (∀ e ∈ (buildBatch sampleSource 0 3).entries, RowOf sampleSource e) ∧
      ((sampleDelivery 0 3).apply id .empty).2.success = false :=
  ⟨rowOf_buildBatch, by decide +kernel⟩

end Samples

end Tightrope.Sync
