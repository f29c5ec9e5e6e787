import Mathlib.Data.List.Induction
import Tightrope.Db.ResponseContinuity

namespace Tightrope.Db

open ProxyResponseContinuityRecord ResponseContinuityTable

structure ContinuityUpsert where
  continuityKey : Bytes
  apiKeyScope : Bytes
  responseId : Bytes
  accountId : Bytes
  nowMs : ℤ
  ttlMs : ℤ
  recoveryInputJson : Bytes := []
  deriving DecidableEq

def ContinuityUpsert.expiresAtMs (u : ContinuityUpsert) : ℤ := u.nowMs + max 1 u.ttlMs

inductive ContinuityOp where
  | upsert (u : ContinuityUpsert)
  | purge (nowMs : ℤ)

def ContinuityOp.nowMs : ContinuityOp → ℤ
  | .upsert u => u.nowMs
  | .purge nowMs => nowMs

structure ContinuityEntry where
  upsert : ContinuityUpsert
  turn : ℕ
  inserted : Bool
  deriving DecidableEq

structure ContinuityRun where
  rows : ResponseContinuityTable := []
  standing : List ContinuityEntry := []
  turns : ℕ := 0

def ContinuityUpsert.Supersedes (later earlier : ContinuityUpsert) : Prop :=
  earlier.responseId = later.responseId ∧ earlier.apiKeyScope = later.apiKeyScope

instance : DecidableRel ContinuityUpsert.Supersedes := fun _ _ => inferInstanceAs (Decidable (_ ∧ _))

def ContinuityUpsert.recorded (u : ContinuityUpsert) : Bool := u.continuityKey ≠ [] && u.responseId ≠ []

def ContinuityRun.step (r : ContinuityRun) : ContinuityOp → ContinuityRun
  | .purge nowMs => { r with rows := r.rows.purgeExpired nowMs }
  | .upsert u =>
    let rows := ResponseContinuityTable.upsert r.rows u.continuityKey u.apiKeyScope u.responseId u.accountId u.nowMs
      u.ttlMs u.recoveryInputJson
    if u.recorded then
      { rows := rows
        standing := (r.standing.filter fun e => ¬ u.Supersedes e.upsert) ++
          [⟨u, r.turns, r.rows.all fun row => ¬ (row.responseId = u.responseId ∧ row.apiKeyScope = u.apiKeyScope)⟩]
        turns := r.turns + 1 }
    else { r with rows := rows }

def replay (ops : List ContinuityOp) : ContinuityRun := ops.foldl .step {}

/-- The recordings for a key and scope that stand and have not expired. -/
def ContinuityRun.candidates (r : ContinuityRun) (continuityKey apiKeyScope : Bytes) (nowMs : ℤ) :
    List ContinuityEntry :=
  r.standing.filter fun e => e.upsert.continuityKey = continuityKey && e.upsert.apiKeyScope = apiKeyScope &&
    e.upsert.expiresAtMs > nowMs

section Table

variable {rows : ResponseContinuityTable} {excluded : ProxyResponseContinuityRecord}

theorem insertOrUpdate_cases (rows : ResponseContinuityTable) (excluded : ProxyResponseContinuityRecord) :
    ((∀ row ∈ rows, ¬ SamePrimaryKey row excluded) ∧ rows.insertOrUpdate excluded = rows ++ [excluded]) ∨
      ∃ before old after, rows = before ++ old :: after ∧ SamePrimaryKey old excluded ∧
        rows.insertOrUpdate excluded = before ++ old.update excluded :: after := by
  induction rows with
  | nil => exact .inl ⟨fun _ hrow => absurd hrow List.not_mem_nil, rfl⟩
  | cons row rows ih =>
    rw [insertOrUpdate]
    split_ifs with hsame
    · exact .inr ⟨[], row, rows, rfl, hsame, rfl⟩
    · obtain ⟨hfresh, heq⟩ | ⟨before, old, after, hrows, hold, heq⟩ := ih
      · refine .inl ⟨List.forall_mem_cons.mpr ⟨hsame, hfresh⟩, ?_⟩
        rw [heq, List.cons_append]
      · refine .inr ⟨row :: before, old, after, ?_, hold, ?_⟩
        · rw [hrows, List.cons_append]
        · rw [heq, List.cons_append]

theorem latest_eq_none : latest rows = none ↔ rows = [] := by
  cases rows with
  | nil => exact ⟨fun _ => rfl, fun _ => rfl⟩
  | cons row rows =>
    rw [latest]
    split
    · simp
    · split_ifs <;> simp

theorem latest_cons_of_lt {row : ProxyResponseContinuityRecord} (h : ∀ r ∈ rows, r.updatedAtMs < row.updatedAtMs) :
    latest (row :: rows) = some row := by
  rw [latest]
  split
  · rfl
  · rename_i best hbest
    rw [if_pos (h best (mem_of_latest hbest))]

theorem latest_of_last {before after : ResponseContinuityTable} {row : ProxyResponseContinuityRecord}
    (hbefore : ∀ r ∈ before, r.updatedAtMs ≤ row.updatedAtMs) (hafter : ∀ r ∈ after, r.updatedAtMs < row.updatedAtMs) :
    latest (before ++ row :: after) = some row := by
  induction before with
  | nil => exact latest_cons_of_lt hafter
  | cons head before ih =>
    rw [List.forall_mem_cons] at hbefore
    rw [List.cons_append, latest, ih hbefore.2]
    exact if_neg (not_lt.mpr hbefore.1)

end Table

section Tracking

structure Reflects (row : ProxyResponseContinuityRecord) (u : ContinuityUpsert) : Prop where
  continuityKey : row.continuityKey = u.continuityKey
  apiKeyScope : row.apiKeyScope = u.apiKeyScope
  responseId : row.responseId = u.responseId
  accountId : row.accountId = u.accountId
  updatedAtMs : row.updatedAtMs = u.nowMs
  expiresAtMs : row.expiresAtMs = u.expiresAtMs

structure Tracks (now : ℤ) (r : ContinuityRun) : Prop where
  rows_standing : ∀ row ∈ r.rows, ∃ e ∈ r.standing, Reflects row e.upsert
  rows_distinct : r.rows.Pairwise fun row row' => ¬ SamePrimaryKey row row'
  standing_kept : ∀ e ∈ r.standing, now < e.upsert.expiresAtMs → ∃ row ∈ r.rows, Reflects row e.upsert
  standing_recorded : ∀ e ∈ r.standing, e.upsert.recorded = true
  standing_distinct : r.standing.Pairwise fun e e' => ¬ e'.upsert.Supersedes e.upsert
  standing_ordered : r.standing.Pairwise fun e e' => e.turn < e'.turn ∧ e.upsert.nowMs ≤ e'.upsert.nowMs
  turn_lt : ∀ e ∈ r.standing, e.turn < r.turns
  rows_ordered : r.rows.Pairwise fun row row' => ∀ e ∈ r.standing, ∀ e' ∈ r.standing, Reflects row e.upsert →
    Reflects row' e'.upsert → e.inserted = true → e.turn < e'.turn

variable {now : ℤ} {r : ContinuityRun} {u : ContinuityUpsert} {row : ProxyResponseContinuityRecord}
  {e : ContinuityEntry}

theorem tracks_empty (now : ℤ) : Tracks now {} where
  rows_standing _ h := absurd h List.not_mem_nil
  rows_distinct := .nil
  standing_kept _ h := absurd h List.not_mem_nil
  standing_recorded _ h := absurd h List.not_mem_nil
  standing_distinct := .nil
  standing_ordered := .nil
  turn_lt _ h := absurd h List.not_mem_nil
  rows_ordered := .nil

theorem Tracks.purge (h : Tracks now r) {nowMs : ℤ} (hle : nowMs ≤ now) : Tracks now (r.step (.purge nowMs)) where
  rows_standing row hrow := h.rows_standing row (List.mem_filter.mp hrow).1
  rows_distinct := h.rows_distinct.filter _
  standing_kept e he hexpires := by
    obtain ⟨row, hrow, hreflects⟩ := h.standing_kept e he hexpires
    refine ⟨row, List.mem_filter.mpr ⟨hrow, ?_⟩, hreflects⟩
    rw [decide_eq_true_eq, hreflects.expiresAtMs]
    exact lt_of_le_of_lt hle hexpires
  standing_recorded := h.standing_recorded
  standing_distinct := h.standing_distinct
  standing_ordered := h.standing_ordered
  turn_lt := h.turn_lt
  rows_ordered := h.rows_ordered.filter _

def ContinuityUpsert.record (u : ContinuityUpsert) : ProxyResponseContinuityRecord :=
  ⟨u.continuityKey, u.apiKeyScope, u.responseId, u.accountId, u.recoveryInputJson, u.nowMs, u.expiresAtMs⟩

theorem reflects_record (u : ContinuityUpsert) : Reflects u.record u := ⟨rfl, rfl, rfl, rfl, rfl, rfl⟩

theorem reflects_update (h : SamePrimaryKey row u.record) : Reflects (row.update u.record) u :=
  ⟨rfl, h.2, h.1, rfl, rfl, rfl⟩

theorem supersedes_iff (h : Reflects row e.upsert) : u.Supersedes e.upsert ↔ SamePrimaryKey row u.record := by
  unfold ContinuityUpsert.Supersedes SamePrimaryKey
  rw [h.responseId, h.apiKeyScope]
  rfl

theorem samePrimaryKey_of_reflects (h : Reflects row u) : SamePrimaryKey row u.record := ⟨h.responseId, h.apiKeyScope⟩

def ContinuityRun.entry (r : ContinuityRun) (u : ContinuityUpsert) : ContinuityEntry :=
  ⟨u, r.turns, r.rows.all fun row => ¬ (row.responseId = u.responseId ∧ row.apiKeyScope = u.apiKeyScope)⟩

def ContinuityRun.standingAfter (r : ContinuityRun) (u : ContinuityUpsert) : List ContinuityEntry :=
  (r.standing.filter fun e => ¬ u.Supersedes e.upsert) ++ [r.entry u]

theorem step_recorded (hu : u.recorded = true) : r.step (.upsert u) =
    { rows := r.rows.insertOrUpdate u.record, standing := r.standingAfter u, turns := r.turns + 1 } := by
  rw [ContinuityRun.step]
  rw [if_pos hu]
  have hneither : ¬ (u.continuityKey = [] ∨ u.responseId = []) := by
    simpa [ContinuityUpsert.recorded, not_or] using hu
  rw [ResponseContinuityTable.upsert, if_neg hneither]
  rfl

theorem step_unrecorded (hu : u.recorded = false) : r.step (.upsert u) = r := by
  rw [ContinuityRun.step]
  rw [hu, if_neg (by decide)]
  have heither : u.continuityKey = [] ∨ u.responseId = [] := by
    by_contra hnot
    rw [not_or] at hnot
    simp [ContinuityUpsert.recorded, hnot.1, hnot.2] at hu
  rw [ResponseContinuityTable.upsert, if_pos heither]

/-- The rows after a recording: the row of its response stands between rows of other responses, and it is the last one
where the response had no row before. -/
structure Recorded (r : ContinuityRun) (u : ContinuityUpsert) (before : ResponseContinuityTable)
    (new : ProxyResponseContinuityRecord) (after : ResponseContinuityTable) : Prop where
  rows_eq : r.rows.insertOrUpdate u.record = before ++ new :: after
  reflects : Reflects new u
  kept : before ++ after = r.rows.filter fun row => ¬ SamePrimaryKey row u.record
  last_or_held : after = [] ∨ ∃ row ∈ r.rows, SamePrimaryKey row u.record

theorem exists_recorded (h : Tracks now r) (u : ContinuityUpsert) : ∃ before new after,
    Recorded r u before new after := by
  obtain ⟨hfresh, heq⟩ | ⟨before, old, after, hrows, hold, heq⟩ := insertOrUpdate_cases r.rows u.record
  · refine ⟨r.rows, u.record, [], heq, reflects_record u, ?_, .inl rfl⟩
    rw [List.append_nil, List.filter_eq_self.mpr fun row hrow => decide_eq_true (hfresh row hrow)]
  · have hdistinct := h.rows_distinct
    rw [hrows] at hdistinct
    obtain ⟨-, hafter, hbefore⟩ := List.pairwise_append.mp hdistinct
    have hkeptBefore : ∀ row ∈ before, ¬ SamePrimaryKey row u.record := fun row hrow hsame =>
      hbefore row hrow old List.mem_cons_self ⟨hsame.1.trans hold.1.symm, hsame.2.trans hold.2.symm⟩
    have hkeptAfter : ∀ row ∈ after, ¬ SamePrimaryKey row u.record := fun row hrow hsame =>
      (List.pairwise_cons.mp hafter).1 row hrow ⟨hold.1.trans hsame.1.symm, hold.2.trans hsame.2.symm⟩
    refine ⟨before, old.update u.record, after, heq, reflects_update hold, ?_, .inr ⟨old, by simp [hrows], hold⟩⟩
    rw [hrows, List.filter_append, List.filter_cons_of_neg (by simpa using hold),
      List.filter_eq_self.mpr fun row hrow => decide_eq_true (hkeptBefore row hrow),
      List.filter_eq_self.mpr fun row hrow => decide_eq_true (hkeptAfter row hrow)]

section Recording

variable {before after : ResponseContinuityTable} {new : ProxyResponseContinuityRecord}

theorem Recorded.mem (h : Recorded r u before new after) :
    row ∈ before ∨ row ∈ after ↔ row ∈ r.rows ∧ ¬ SamePrimaryKey row u.record := by
  rw [← List.mem_append, h.kept, List.mem_filter, decide_eq_true_eq]

theorem Recorded.mem_rows (h : Recorded r u before new after) : row ∈ before ++ new :: after ↔
    (row ∈ r.rows ∧ ¬ SamePrimaryKey row u.record) ∨ row = new := by
  rw [List.mem_append, List.mem_cons, or_left_comm, or_comm, h.mem]

theorem Recorded.distinct (h : Recorded r u before new after) (htracks : Tracks now r) :
    (before ++ new :: after).Pairwise fun row row' => ¬ SamePrimaryKey row row' := by
  have hdistinct := htracks.rows_distinct.filter (fun row => ¬ SamePrimaryKey row u.record)
  rw [← h.kept] at hdistinct
  obtain ⟨hbefore, hafter, hcross⟩ := List.pairwise_append.mp hdistinct
  have hsame := samePrimaryKey_of_reflects h.reflects
  refine List.pairwise_append.mpr ⟨hbefore, List.pairwise_cons.mpr ⟨fun row hrow heq => ?_, hafter⟩, ?_⟩
  · exact (h.mem.mp (.inr hrow)).2 ⟨heq.1.symm.trans hsame.1, heq.2.symm.trans hsame.2⟩
  · intro row hrow
    rw [List.forall_mem_cons]
    exact ⟨fun heq => (h.mem.mp (.inl hrow)).2 ⟨heq.1.trans hsame.1, heq.2.trans hsame.2⟩, hcross row hrow⟩

theorem mem_standingAfter : e ∈ r.standingAfter u ↔
    (e ∈ r.standing ∧ ¬ u.Supersedes e.upsert) ∨ e = r.entry u := by
  rw [ContinuityRun.standingAfter, List.mem_append, List.mem_filter, List.mem_singleton, decide_eq_true_eq]

theorem mem_standing_of_reflects (he : e ∈ r.standingAfter u) (hrow : ¬ SamePrimaryKey row u.record)
    (hreflects : Reflects row e.upsert) : e ∈ r.standing := by
  obtain ⟨he, -⟩ | rfl := mem_standingAfter.mp he
  · exact he
  · exact absurd (samePrimaryKey_of_reflects hreflects) hrow

theorem eq_entry_of_reflects (he : e ∈ r.standingAfter u) (hnew : Reflects new u) (hreflects : Reflects new e.upsert) :
    e = r.entry u := by
  obtain ⟨-, hnot⟩ | heq := mem_standingAfter.mp he
  · exact absurd ((supersedes_iff hreflects).mpr (samePrimaryKey_of_reflects hnew)) hnot
  · exact heq

theorem Recorded.ordered (h : Recorded r u before new after) (htracks : Tracks now r) :
    (before ++ new :: after).Pairwise fun row row' => ∀ e ∈ r.standingAfter u, ∀ e' ∈ r.standingAfter u,
      Reflects row e.upsert → Reflects row' e'.upsert → e.inserted = true → e.turn < e'.turn := by
  have hordered := htracks.rows_ordered.filter (fun row => ¬ SamePrimaryKey row u.record)
  rw [← h.kept] at hordered
  have hlifted : (before ++ after).Pairwise fun row row' => ∀ e ∈ r.standingAfter u, ∀ e' ∈ r.standingAfter u,
      Reflects row e.upsert → Reflects row' e'.upsert → e.inserted = true → e.turn < e'.turn := by
    refine hordered.imp_of_mem fun hin hin' hlt e he e' he' hreflects hreflects' => ?_
    have hother := (h.mem.mp (List.mem_append.mp hin)).2
    have hother' := (h.mem.mp (List.mem_append.mp hin')).2
    exact hlt e (mem_standing_of_reflects he hother hreflects) e' (mem_standing_of_reflects he' hother' hreflects')
      hreflects hreflects'
  obtain ⟨hbefore, hafter, hcross⟩ := List.pairwise_append.mp hlifted
  refine List.pairwise_append.mpr ⟨hbefore, List.pairwise_cons.mpr ⟨?_, hafter⟩, ?_⟩
  · -- Rows stand behind that of the recording only where it did not insert it.
    intro row hrow e he e' _ hreflects _ hinserted
    obtain rfl := eq_entry_of_reflects he h.reflects hreflects
    obtain hnil | ⟨old, hold, hsame⟩ := h.last_or_held
    · rw [hnil] at hrow
      cases hrow
    · have hnot := List.all_eq_true.mp hinserted old hold
      rw [decide_eq_true_eq] at hnot
      exact absurd hsame hnot
  · intro row hrow
    rw [List.forall_mem_cons]
    refine ⟨fun e he e' he' hreflects hreflects' _ => ?_, hcross row hrow⟩
    obtain rfl := eq_entry_of_reflects he' h.reflects hreflects'
    exact htracks.turn_lt e (mem_standing_of_reflects he (h.mem.mp (.inl hrow)).2 hreflects)

end Recording

theorem Tracks.upsert (h : Tracks now r) (hu : u.recorded = true) (hlast : ∀ e ∈ r.standing, e.upsert.nowMs ≤ u.nowMs) :
    Tracks now (r.step (.upsert u)) := by
  rw [step_recorded hu]
  obtain ⟨before, new, after, hrecorded⟩ := exists_recorded h u
  rw [hrecorded.rows_eq]
  refine ⟨?_, hrecorded.distinct h, ?_, ?_, ?_, ?_, ?_, hrecorded.ordered h⟩
  · intro row hrow
    obtain ⟨hin, hnot⟩ | rfl := hrecorded.mem_rows.mp hrow
    · obtain ⟨e, he, hreflects⟩ := h.rows_standing row hin
      exact ⟨e, mem_standingAfter.mpr (.inl ⟨he, fun hsuper => hnot ((supersedes_iff hreflects).mp hsuper)⟩), hreflects⟩
    · exact ⟨r.entry u, mem_standingAfter.mpr (.inr rfl), hrecorded.reflects⟩
  · intro e he hexpires
    obtain ⟨he, hnot⟩ | rfl := mem_standingAfter.mp he
    · obtain ⟨row, hin, hreflects⟩ := h.standing_kept e he hexpires
      have hother : ¬ SamePrimaryKey row u.record := fun hsame => hnot ((supersedes_iff hreflects).mpr hsame)
      exact ⟨row, hrecorded.mem_rows.mpr (.inl ⟨hin, hother⟩), hreflects⟩
    · exact ⟨new, hrecorded.mem_rows.mpr (.inr rfl), hrecorded.reflects⟩
  · intro e he
    obtain ⟨he, -⟩ | rfl := mem_standingAfter.mp he
    · exact h.standing_recorded e he
    · exact hu
  · refine List.pairwise_append.mpr ⟨h.standing_distinct.filter _, List.pairwise_singleton _ _, fun e he e' he' => ?_⟩
    obtain rfl := List.mem_singleton.mp he'
    exact of_decide_eq_true (List.mem_filter.mp he).2
  · refine List.pairwise_append.mpr ⟨h.standing_ordered.filter _, List.pairwise_singleton _ _, fun e he e' he' => ?_⟩
    obtain rfl := List.mem_singleton.mp he'
    have hold := (List.mem_filter.mp he).1
    exact ⟨h.turn_lt e hold, hlast e hold⟩
  · intro e he
    obtain ⟨he, -⟩ | rfl := mem_standingAfter.mp he
    · exact (h.turn_lt e he).trans (Nat.lt_succ_self _)
    · exact Nat.lt_succ_self _

theorem replay_append (ops : List ContinuityOp) (op : ContinuityOp) : replay (ops ++ [op]) = (replay ops).step op := by
  rw [replay, List.foldl_append]
  rfl

theorem standing_times {ops : List ContinuityOp} {t : ℤ} (h : ∀ op ∈ ops, op.nowMs ≤ t) :
    ∀ e ∈ (replay ops).standing, e.upsert.nowMs ≤ t := by
  induction ops using List.reverseRecOn with
  | nil => exact fun e he => absurd he List.not_mem_nil
  | append_singleton ops op ih =>
    have hops := ih fun o ho => h o (List.mem_append_left _ ho)
    have hop := h op (List.mem_append_right _ (List.mem_singleton.mpr rfl))
    rw [replay_append]
    cases op with
    | purge nowMs => exact hops
    | upsert u =>
      cases hu : u.recorded with
      | false =>
        rw [step_unrecorded hu]
        exact hops
      | true =>
        rw [step_recorded hu]
        intro e he
        obtain he | he := List.mem_append.mp he
        · exact hops e (List.mem_filter.mp he).1
        · obtain rfl := List.mem_singleton.mp he
          exact hop

theorem tracks_replay {now : ℤ} {ops : List ContinuityOp} (htimes : ops.Pairwise fun op next => op.nowMs ≤ next.nowMs)
    (hnow : ∀ op ∈ ops, op.nowMs ≤ now) : Tracks now (replay ops) := by
  induction ops using List.reverseRecOn with
  | nil => exact tracks_empty now
  | append_singleton ops op ih =>
    obtain ⟨hbefore, -, hlast⟩ := List.pairwise_append.mp htimes
    have htracks := ih hbefore fun o ho => hnow o (List.mem_append_left _ ho)
    have hop : ∀ o ∈ ops, o.nowMs ≤ op.nowMs := fun o ho => hlast o ho op (List.mem_singleton.mpr rfl)
    rw [replay_append]
    cases op with
    | purge nowMs => exact htracks.purge (hnow _ (List.mem_append_right _ (List.mem_singleton.mpr rfl)))
    | upsert u =>
      cases hu : u.recorded with
      | false => rwa [step_unrecorded hu]
      | true => exact htracks.upsert hu (standing_times hop)

end Tracking

section Lookup

variable {now : ℤ} {r : ContinuityRun} {key scope : Bytes}

theorem mem_candidates {e : ContinuityEntry} : e ∈ r.candidates key scope now ↔ e ∈ r.standing ∧
    e.upsert.continuityKey = key ∧ e.upsert.apiKeyScope = scope ∧ now < e.upsert.expiresAtMs := by
  simp [ContinuityRun.candidates, and_assoc]

def Matches (key scope : Bytes) (now : ℤ) (row : ProxyResponseContinuityRecord) : Bool :=
  row.continuityKey = key && row.apiKeyScope = scope && row.expiresAtMs > now

theorem matches_iff {row : ProxyResponseContinuityRecord} {e : ContinuityEntry} (he : e ∈ r.standing)
    (h : Reflects row e.upsert) : Matches key scope now row = true ↔ e ∈ r.candidates key scope now := by
  rw [mem_candidates, ← h.continuityKey, ← h.apiKeyScope, ← h.expiresAtMs]
  simp [Matches, he, and_assoc]

theorem key_ne_nil (h : Tracks now r) {e : ContinuityEntry} (he : e ∈ r.candidates key scope now) : key ≠ [] := by
  obtain ⟨hstanding, hkey, -⟩ := mem_candidates.mp he
  have hrecorded := h.standing_recorded e hstanding
  rintro rfl
  simp [ContinuityUpsert.recorded, hkey] at hrecorded

theorem wellFormed_of_reflects (h : Tracks now r) {row : ProxyResponseContinuityRecord} {e : ContinuityEntry}
    (he : e ∈ r.standing) (hreflects : Reflects row e.upsert) : wellFormed row = true := by
  have hrecorded := h.standing_recorded e he
  rwa [ContinuityUpsert.recorded, ← hreflects.continuityKey, ← hreflects.responseId] at hrecorded

theorem find_eq_none_iff (h : Tracks now r) : r.rows.find key scope now = none ↔ r.candidates key scope now = [] := by
  constructor
  · intro hfind
    rw [List.eq_nil_iff_forall_not_mem]
    intro e he
    have hkey := key_ne_nil h he
    obtain ⟨hstanding, -, -, hexpires⟩ := mem_candidates.mp he
    obtain ⟨row, hrow, hreflects⟩ := h.standing_kept e hstanding hexpires
    have hmatch : row ∈ r.rows.filter (Matches key scope now) :=
      List.mem_filter.mpr ⟨hrow, (matches_iff hstanding hreflects).mpr he⟩
    rw [ResponseContinuityTable.find, if_neg hkey] at hfind
    change (latest (r.rows.filter (Matches key scope now))).filter wellFormed = none at hfind
    cases hlatest : latest (r.rows.filter (Matches key scope now)) with
    | none => rw [latest_eq_none.mp hlatest] at hmatch; cases hmatch
    | some best =>
      obtain ⟨e', he', hreflects'⟩ := h.rows_standing best (List.mem_filter.mp (mem_of_latest hlatest)).1
      rw [hlatest, Option.filter_some_pos (wellFormed_of_reflects h he' hreflects')] at hfind
      cases hfind
  · intro hnone
    cases hfind : r.rows.find key scope now with
    | none => rfl
    | some record =>
      unfold ResponseContinuityTable.find at hfind
      split_ifs at hfind
      obtain ⟨hrow, hmatch⟩ := List.mem_filter.mp (mem_of_latest (Option.filter_eq_some_iff.mp hfind).1)
      obtain ⟨e, he, hreflects⟩ := h.rows_standing record hrow
      have hcandidate := (matches_iff he hreflects).mp hmatch
      rw [hnone] at hcandidate
      cases hcandidate

theorem find_last_candidate (h : Tracks now r) {e : ContinuityEntry} {earlier : List ContinuityEntry}
    (hlast : r.candidates key scope now = earlier ++ [e])
    (htie : e.inserted = true ∨ ∀ e' ∈ earlier, e'.upsert.nowMs < e.upsert.nowMs) :
    ∃ record, r.rows.find key scope now = some record ∧ Reflects record e.upsert := by
  have he : e ∈ r.candidates key scope now := by rw [hlast]; simp
  obtain ⟨hstanding, -, -, hexpires⟩ := mem_candidates.mp he
  obtain ⟨row, hrow, hreflects⟩ := h.standing_kept e hstanding hexpires
  have hmatch := (matches_iff hstanding hreflects).mpr he
  have hordered : (earlier ++ [e]).Pairwise fun a b => a.turn < b.turn ∧ a.upsert.nowMs ≤ b.upsert.nowMs := by
    rw [← hlast]
    exact h.standing_ordered.filter _
  have hbefore : ∀ e' ∈ earlier, e'.turn < e.turn ∧ e'.upsert.nowMs ≤ e.upsert.nowMs := fun e' he' =>
    (List.pairwise_append.mp hordered).2.2 e' he' e (List.mem_singleton.mpr rfl)
  obtain ⟨before, after, hsplit⟩ := List.append_of_mem (List.mem_filter.mpr ⟨hrow, hmatch⟩)
  have hdistinct := h.rows_distinct.filter (Matches key scope now)
  have hrows := h.rows_ordered.filter (Matches key scope now)
  rw [hsplit] at hdistinct hrows
  -- Every other row that matches is that of an earlier candidate.
  have hothers : ∀ row' ∈ before ++ after, ∃ e' ∈ earlier, Reflects row' e'.upsert := by
    intro row' hrow'
    have hmem : row' ∈ r.rows.filter (Matches key scope now) := by
      rw [hsplit, List.mem_append, List.mem_cons]
      rw [List.mem_append] at hrow'
      tauto
    have hnot : ¬ SamePrimaryKey row' row := by
      obtain ⟨-, hafter, hcross⟩ := List.pairwise_append.mp hdistinct
      obtain hin | hin := List.mem_append.mp hrow'
      · exact hcross row' hin row List.mem_cons_self
      · exact fun hsame => (List.pairwise_cons.mp hafter).1 row' hin ⟨hsame.1.symm, hsame.2.symm⟩
    obtain ⟨hin, hmatch'⟩ := List.mem_filter.mp hmem
    obtain ⟨e', he', hreflects'⟩ := h.rows_standing row' hin
    have hcandidate := (matches_iff he' hreflects').mp hmatch'
    rw [hlast, List.mem_append, List.mem_singleton] at hcandidate
    obtain hearlier | rfl := hcandidate
    · exact ⟨e', hearlier, hreflects'⟩
    · exact absurd ⟨hreflects'.responseId.trans hreflects.responseId.symm,
        hreflects'.apiKeyScope.trans hreflects.apiKeyScope.symm⟩ hnot
  refine ⟨row, ?_, hreflects⟩
  rw [ResponseContinuityTable.find, if_neg (key_ne_nil h he)]
  change (latest (r.rows.filter (Matches key scope now))).filter wellFormed = some row
  rw [hsplit, latest_of_last, Option.filter_some_pos (wellFormed_of_reflects h hstanding hreflects)]
  · intro row' hin
    obtain ⟨e', he', hreflects'⟩ := hothers row' (List.mem_append_left _ hin)
    rw [hreflects'.updatedAtMs, hreflects.updatedAtMs]
    exact (hbefore e' he').2
  · intro row' hin
    obtain ⟨e', he', hreflects'⟩ := hothers row' (List.mem_append_right _ hin)
    obtain hinserted | hlate := htie
    · have hstanding' : e' ∈ r.standing := (mem_candidates.mp (by rw [hlast]; exact List.mem_append_left _ he')).1
      have hafter := (List.pairwise_append.mp hrows).2.1
      have hturn := (List.pairwise_cons.mp hafter).1 row' hin e hstanding e' hstanding' hreflects hreflects' hinserted
      exact absurd hturn (not_lt.mpr (hbefore e' he').1.le)
    · rw [hreflects'.updatedAtMs, hreflects.updatedAtMs]
      exact hlate e' he'

/-- A lookup returns the latest recording of its key and scope that stands and has not expired: one that inserted its
row, or that was made later than the others. -/
theorem lookup_returns_latest_standing (ops : List ContinuityOp)
    (htimes : ops.Pairwise fun op next => op.nowMs ≤ next.nowMs) (key scope : Bytes) (now : ℤ)
    (hnow : ∀ op ∈ ops, op.nowMs ≤ now) :
    ((replay ops).rows.find key scope now = none ↔ (replay ops).candidates key scope now = []) ∧
      ∀ earlier e, (replay ops).candidates key scope now = earlier ++ [e] →
        (e.inserted = true ∨ ∀ e' ∈ earlier, e'.upsert.nowMs < e.upsert.nowMs) →
          ∃ record, (replay ops).rows.find key scope now = some record ∧ Reflects record e.upsert := by
  have htracks := tracks_replay htimes hnow
  exact ⟨find_eq_none_iff htracks, fun earlier e hlast htie => find_last_candidate htracks hlast htie⟩

def sampleOps : List ContinuityOp :=
  [.upsert ⟨[1], [], [7], [], 5, 10, []⟩, .upsert ⟨[1], [], [8], [], 5, 10, []⟩, .purge 6]

theorem second_recording_found :
    ∃ record, (replay sampleOps).rows.find [1] [] 6 = some record ∧ Reflects record ⟨[1], [], [8], [], 5, 10, []⟩ :=
  (lookup_returns_latest_standing sampleOps (by decide) [1] [] 6 (by decide)).2
    [⟨⟨[1], [], [7], [], 5, 10, []⟩, 0, true⟩] ⟨⟨[1], [], [8], [], 5, 10, []⟩, 1, true⟩ (by decide) (.inl rfl)

/-- A response that is recorded under a second key is gone from the first, and one recorded again within the same
millisecond as another stays behind it. -/
theorem recorded_response_is_not_found :
    (replay [.upsert ⟨[1], [], [7], [], 5, 10, []⟩, .upsert ⟨[2], [], [7], [], 5, 10, []⟩]).rows.find [1] [] 5 = none ∧
      ((replay [.upsert ⟨[1], [], [7], [], 5, 10, []⟩, .upsert ⟨[1], [], [8], [], 5, 10, []⟩,
        .upsert ⟨[1], [], [7], [], 5, 10, []⟩]).rows.find [1] [] 5).map ProxyResponseContinuityRecord.responseId =
        some [8] := by decide

end Lookup

end Tightrope.Db
