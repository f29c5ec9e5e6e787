import Tightrope.Library.Runs
import Tightrope.Sync.PersistentJournal

namespace Tightrope.Sync

open MachineWords Bytes Runs PersistentJournal

def CompactionTriggered (config : AutoCompactConfig) (t : JournalTable) (created : JournalEntry) : Prop :=
  config.enabled ∧ config.checkIntervalEntries > 0 ∧ created.seq % config.checkIntervalEntries = 0 ∧
    size t ≥ config.minEntries ∧ maxAcknowledgedSeq t config.minAppliedValue > 0

def AcknowledgedInOrder (t : JournalTable) (minAppliedValue : Int32) (cutoff : UInt64) : Prop :=
  ∀ seq row ackSeq ackRow, t.find? seq = some row → t.find? ackSeq = some ackRow →
    ¬ row.applied ≥ minAppliedValue → row.hlcWall < cutoff.toInt64 → ackRow.applied ≥ minAppliedValue → ackSeq < seq

theorem autoCompact_of_triggered {config : AutoCompactConfig} {t : JournalTable} {created : JournalEntry}
    (h : CompactionTriggered config t created) :
    autoCompact t config created =
      (compact t (cutoffWall config created) (maxAcknowledgedSeq t config.minAppliedValue)).1 := by
  obtain ⟨henabled, hpos, hmod, hsize, hack⟩ := h
  rw [autoCompact, if_pos ⟨henabled, hpos, hmod⟩, if_pos hsize]
  exact if_pos hack

theorem autoCompact_of_not_triggered {config : AutoCompactConfig} {t : JournalTable} {created : JournalEntry}
    (h : ¬ CompactionTriggered config t created) : autoCompact t config created = t := by
  simp only [autoCompact]
  split_ifs with hinterval hsize hack
  · exact absurd ⟨hinterval.1, hinterval.2.1, hinterval.2.2, hsize, hack⟩ h
  all_goals rfl

theorem find?_compact_eq_none {t : JournalTable} {cutoff ack : UInt64} {seq : Int64} {row : JournalRow}
    (h : t.find? seq = some row) :
    (compact t cutoff ack).1.find? seq = none ↔ row.hlcWall < cutoff.toInt64 ∧ seq ≤ ack.toInt64 := by
  simp only [compact, FlatMap.find?_filter, h]
  simp [Option.filter]

theorem le_maxAcknowledgedSeq_iff {t : JournalTable} {minAppliedValue : Int32} {seq : Int64}
    (h : maxAcknowledgedSeq t minAppliedValue > 0) :
    seq ≤ (maxAcknowledgedSeq t minAppliedValue).toInt64 ↔
      ∃ ackSeq ackRow, t.find? ackSeq = some ackRow ∧ ackRow.applied ≥ minAppliedValue ∧ seq ≤ ackSeq := by
  unfold maxAcknowledgedSeq at h ⊢
  have hacked : ∀ {key : Int64} {row : JournalRow},
      (t.filter (fun _ row => row.applied ≥ minAppliedValue)).find? key = some row ↔
        t.find? key = some row ∧ row.applied ≥ minAppliedValue := by
    intro key row
    rw [FlatMap.find?_filter, Option.filter_eq_some_iff, decide_eq_true_eq]
  cases hlast : (t.filter (fun _ row => row.applied ≥ minAppliedValue)).lastKey? with
  | none =>
    rw [hlast] at h
    exact absurd h (by decide)
  | some last =>
    rw [Option.getD_some, Int64.toInt64_toUInt64]
    constructor
    · intro hle
      obtain ⟨row, hrow⟩ := FlatMap.find?_lastKey hlast
      obtain ⟨hfind, happlied⟩ := hacked.mp hrow
      exact ⟨last, row, hfind, happlied, hle⟩
    · rintro ⟨ackSeq, ackRow, hfind, happlied, hle⟩
      exact hle.trans (FlatMap.le_lastKey hlast (hacked.mpr ⟨hfind, happlied⟩))

def OnlyAcknowledgedDeleted (minAppliedValue : Int32) (before after : JournalTable) : Prop :=
  ∀ seq row, before.find? seq = some row → after.find? seq = none → row.applied ≥ minAppliedValue

theorem onlyAcknowledgedDeleted_iff (config : AutoCompactConfig) (t : JournalTable) (created : JournalEntry) :
    OnlyAcknowledgedDeleted config.minAppliedValue t (autoCompact t config created) ↔
      (CompactionTriggered config t created →
        AcknowledgedInOrder t config.minAppliedValue (cutoffWall config created)) := by
  by_cases htrig : CompactionTriggered config t created
  · rw [autoCompact_of_triggered htrig, forall_prop_of_true htrig]
    have hack := htrig.2.2.2.2
    constructor
    · intro h seq row ackSeq ackRow hrow hackRow hunacked hold happlied
      by_contra hlt
      have hle := (le_maxAcknowledgedSeq_iff hack).mpr ⟨ackSeq, ackRow, hackRow, happlied, not_lt.mp hlt⟩
      exact hunacked (h seq row hrow ((find?_compact_eq_none hrow).mpr ⟨hold, hle⟩))
    · intro h seq row hrow hgone
      by_contra hunacked
      obtain ⟨hold, hle⟩ := (find?_compact_eq_none hrow).mp hgone
      obtain ⟨ackSeq, ackRow, hackRow, happlied, hseq⟩ := (le_maxAcknowledgedSeq_iff hack).mp hle
      exact absurd (h seq row ackSeq ackRow hrow hackRow hunacked hold happlied) (not_lt.mpr hseq)
  · rw [autoCompact_of_not_triggered htrig]
    refine iff_of_true (fun seq row hrow hgone => ?_) (fun h => absurd h htrig)
    rw [hrow] at hgone
    cases hgone

section Runs

variable (sha256 : Bytes → Bytes)

def journalStep (t : JournalTable) (op : JournalOp) : JournalTable := (perform sha256 t op).1

/-- An append deletes no unacknowledged row, neither an old one nor the one it inserts. -/
def AppendKeepsUnacknowledged (t : JournalTable) : JournalOp → Prop
  | .append entry env => ∀ inserted created, insertPending t sha256 entry env = some (inserted, created) →
      OnlyAcknowledgedDeleted env.autoCompact.minAppliedValue inserted (journalStep sha256 t (.append entry env))
  | .rollbackBatch _ => True
  | .markApplied _ _ => True
  | .compact _ _ => True
  | .entriesAfter _ _ _ => True

def AppendFindsAcknowledgedInOrder (t : JournalTable) : JournalOp → Prop
  | .append entry env => ∀ inserted created, insertPending t sha256 entry env = some (inserted, created) →
      CompactionTriggered env.autoCompact inserted created →
      AcknowledgedInOrder inserted env.autoCompact.minAppliedValue (cutoffWall env.autoCompact created)
  | .rollbackBatch _ => True
  | .markApplied _ _ => True
  | .compact _ _ => True
  | .entriesAfter _ _ _ => True

theorem appendKeepsUnacknowledged_iff (t : JournalTable) (op : JournalOp) :
    AppendKeepsUnacknowledged sha256 t op ↔ AppendFindsAcknowledgedInOrder sha256 t op := by
  cases op with
  | append entry env =>
    simp only [AppendKeepsUnacknowledged, AppendFindsAcknowledgedInOrder, journalStep, perform, append]
    refine forall_congr' fun inserted => forall_congr' fun created => forall_congr' fun hinsert => ?_
    rw [hinsert]
    exact onlyAcknowledgedDeleted_iff env.autoCompact inserted created
  | _ => exact Iff.rfl

theorem autoCompaction_keeps_unacknowledged_iff (t : JournalTable) (ops : List JournalOp) :
    AllSteps (journalStep sha256) (AppendKeepsUnacknowledged sha256) t ops ↔
      AllSteps (journalStep sha256) (AppendFindsAcknowledgedInOrder sha256) t ops :=
  allSteps_congr _ (appendKeepsUnacknowledged_iff sha256)

end Runs

def eagerCompaction : AppendEnv :=
  ⟨[], none, { minEntries := 1, checkIntervalEntries := 1, retentionMs := 0 }⟩

theorem unacknowledged_entry_is_compacted :
    ¬ AllSteps (journalStep sampleSha256) (AppendKeepsUnacknowledged sampleSha256) .empty
      [.append (accountInsert 100 "b1") eagerCompaction, .append (accountInsert 101 "b2") eagerCompaction,
        .markApplied 2 2, .append (accountInsert 1000 "b3") eagerCompaction] := by
  rintro ⟨-, -, -, h, -⟩
  have happlied := h _ _ rfl 1 (bindRow (Journal.created sampleSha256 [] 1 (accountInsert 100 "b1"))) (by decide)
    (by decide)
  exact absurd happlied (by decide)

end Tightrope.Sync
