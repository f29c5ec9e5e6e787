import Tightrope.Library.FlatMap
import Tightrope.Library.Runs
import Tightrope.Sync.Checksum
import Tightrope.Sync.Hlc

namespace Tightrope.Sync

open Bytes Runs

inductive CdcOp where
  | insert
  | update
  | delete
  deriving DecidableEq

def CdcOp.label : CdcOp → Bytes
  | .insert => ofString "INSERT"
  | .update => ofString "UPDATE"
  | .delete => ofString "DELETE"

structure CdcRow (V : Type) where
  values : V
  hlcWall : Option Int64 := some 0
  hlcCounter : Option Int64 := some 0
  hlcSite : Option Int64 := some 0
  deriving DecidableEq

structure CdcEntry where
  hlcWall : Int64
  hlcCounter : Int64
  siteId : Int64
  tableName : Bytes
  rowPk : Bytes
  op : CdcOp
  oldValues : Option Bytes
  newValues : Option Bytes
  checksum : Bytes
  deriving DecidableEq

structure CdcTombstone where
  deletedAt : Int64
  siteId : Int64
  deriving DecidableEq

structure CdcState (K V : Type) [LinearOrder K] where
  clock : HlcClock
  timesRead : ℕ := 0
  rows : FlatMap K (CdcRow V) := .empty
  journal : List CdcEntry := []
  tombstones : List (Bytes × CdcTombstone) := []

structure CdcTable (K V : Type) where
  time : ℕ → UInt64
  sha256 : Bytes → Bytes
  tableName : Bytes
  rowPk : K → Bytes
  tracked : V → Bytes

inductive RowChange (K V : Type) where
  | insert (key : K) (new : CdcRow V)
  | update (oldKey : K) (old : CdcRow V) (key : K) (new : CdcRow V)
  | delete (key : K) (old : CdcRow V)

namespace RowChange

variable {K V : Type}

def op : RowChange K V → CdcOp
  | insert _ _ => .insert
  | update _ _ _ _ => .update
  | delete _ _ => .delete

def key : RowChange K V → K
  | insert k _ => k
  | update _ _ k _ => k
  | delete k _ => k

end RowChange

/-- A statement of the application; an UPDATE or DELETE selects its rows by its WHERE clause. -/
inductive CdcStatement (K V : Type) where
  | insert (rows : List (K × CdcRow V))
  | update (select : K → CdcRow V → Bool) (assign : K → CdcRow V → K × CdcRow V)
  | delete (select : K → CdcRow V → Bool)

section Triggers

variable {K V : Type} [LinearOrder K] (t : CdcTable K V)

namespace CdcState

def hlcNowWall (s : CdcState K V) : CdcState K V :=
  { s with clock := s.clock.onLocalEvent (t.time s.timesRead), timesRead := s.timesRead + 1 }

def wall (s : CdcState K V) : Int64 := s.clock.snapshot.wall.toInt64

def hlcNowCounter (s : CdcState K V) : Int64 := s.clock.snapshot.counter.toUInt64.toInt64

def hlcSiteId (s : CdcState K V) : Int64 := s.clock.snapshot.siteId.toUInt64.toInt64

def insertJournal (s : CdcState K V) (key : K) (op : CdcOp) (old new : Option (CdcRow V)) : CdcState K V :=
  let s := s.hlcNowWall t
  let oldValues := old.map fun row => t.tracked row.values
  let newValues := new.map fun row => t.tracked row.values
  { s with
    journal := s.journal ++ [{
      hlcWall := s.wall
      hlcCounter := s.hlcNowCounter
      siteId := s.hlcSiteId
      tableName := t.tableName
      rowPk := t.rowPk key
      op := op
      oldValues := oldValues
      newValues := newValues
      checksum := journalChecksum t.sha256 (cstr t.tableName) (cstr (t.rowPk key)) op.label (cstr (oldValues.getD []))
        (cstr (newValues.getD [])) }] }

-- `UPDATE t SET _hlc_wall = .., _hlc_counter = .., _hlc_site = .. WHERE key = NEW.key`, without its triggers.
def stampRow (s : CdcState K V) (key : K) (row : CdcRow V) : CdcState K V :=
  let s := s.hlcNowWall t
  { s with
    rows := s.rows.insert key
      { row with hlcWall := some s.wall, hlcCounter := some s.hlcNowCounter, hlcSite := some s.hlcSiteId } }

end CdcState

def sqlNe (a : Option Int64) (b : Int64) : Bool := a.elim false (· ≠ b)

def updateTrigger (s : CdcState K V) (old : CdcRow V) (key : K) (new : CdcRow V) : CdcState K V :=
  let s := s.hlcNowWall t
  if sqlNe old.hlcWall s.wall || sqlNe old.hlcCounter s.hlcNowCounter then
    (s.insertJournal t key .update (some old) (some new)).stampRow t key new
  else s

def insertTrigger (s : CdcState K V) (key : K) (new : CdcRow V) : CdcState K V :=
  let s := (s.insertJournal t key .insert none (some new)).stampRow t key new
  match s.rows.find? key with
  | none => s
  | some stamped => updateTrigger t s new key stamped

def deleteTrigger (s : CdcState K V) (key : K) (old : CdcRow V) : CdcState K V :=
  let s := (s.insertJournal t key .delete (some old) none).hlcNowWall t
  { s with
    tombstones := s.tombstones.filter (fun row => row.1 ≠ t.rowPk key) ++ [(t.rowPk key, ⟨s.wall, s.hlcSiteId⟩)] }

end Triggers

section Statements

variable {K V : Type} [LinearOrder K] (t : CdcTable K V)

def CdcStatement.changes (s : CdcState K V) : CdcStatement K V → List (RowChange K V)
  | .insert rows => rows.map fun row => .insert row.1 row.2
  | .update select assign =>
    (s.rows.entries.filter fun row => select row.1 row.2).map fun row =>
      .update row.1 row.2 (assign row.1 row.2).1 (assign row.1 row.2).2
  | .delete select => (s.rows.entries.filter fun row => select row.1 row.2).map fun row => .delete row.1 row.2

namespace RowChange

def admitted (taken : K → Bool) : RowChange K V → Bool
  | insert k _ => !taken k
  | update oldKey _ k _ => k = oldKey || !taken k
  | delete _ _ => true

def rekey (taken : K → Bool) : RowChange K V → K → Bool
  | insert k _, x => x = k || taken x
  | update oldKey _ k _, x => x = k || (x ≠ oldKey && taken x)
  | delete k _, x => x ≠ k && taken x

def apply (s : CdcState K V) : RowChange K V → CdcState K V
  | insert k new => insertTrigger t { s with rows := s.rows.insert k new } k new
  | update oldKey old k new =>
    updateTrigger t { s with rows := (s.rows.erase oldKey).insert k new } old k new
  | delete k old => deleteTrigger t { s with rows := s.rows.erase k } k old

end RowChange

def CdcState.taken (s : CdcState K V) (k : K) : Bool := (s.rows.find? k).isSome

def applyChanges (s : CdcState K V) : List (RowChange K V) → CdcState K V × Bool
  | [] => (s, true)
  | change :: rest => if change.admitted s.taken then applyChanges (change.apply t s) rest else (s, false)

def CdcState.execute (s : CdcState K V) (statement : CdcStatement K V) : CdcState K V :=
  match applyChanges t s (statement.changes s) with
  | (s', true) => s'
  | (s', false) => { s with clock := s'.clock, timesRead := s'.timesRead }

def Refused (taken : K → Bool) : List (RowChange K V) → Prop
  | [] => False
  | change :: rest => change.admitted taken = false ∨ Refused (change.rekey taken) rest

instance Refused.decidable : ∀ (taken : K → Bool) (changes : List (RowChange K V)), Decidable (Refused taken changes)
  | _, [] => .isFalse id
  | taken, change :: rest =>
    @instDecidableOr _ _ _ (Refused.decidable (change.rekey taken) rest)

def CdcState.changed (s : CdcState K V) (statement : CdcStatement K V) : List (RowChange K V) :=
  if Refused s.taken (statement.changes s) then [] else statement.changes s

def latestEntry (s : CdcState K V) (k : K) : Option CdcEntry :=
  (s.journal.filter fun e => e.rowPk = t.rowPk k).getLast?

/-- Each changed row has exactly one new entry, with its operation. -/
def JournaledOnce (s : CdcState K V) (statement : CdcStatement K V) : Prop :=
  ∃ entries, (s.execute t statement).journal = s.journal ++ entries ∧
    entries.map (fun e => (e.op, e.rowPk)) = (s.changed statement).map fun c => (c.op, t.rowPk c.key)

/-- An inserted or updated row carries the clock of its latest entry. -/
def CarriesClock (s : CdcState K V) (statement : CdcStatement K V) : Prop :=
  ∀ c ∈ s.changed statement, c.op ≠ .delete → ∀ row, (s.execute t statement).rows.find? c.key = some row →
    ∃ e, latestEntry t (s.execute t statement) c.key = some e ∧
      row.hlcWall = some e.hlcWall ∧ row.hlcCounter = some e.hlcCounter ∧ row.hlcSite = some e.siteId

end Statements

section TriggerEffects

variable {K V : Type} [LinearOrder K] {t : CdcTable K V} {s : CdcState K V} {k : K}

theorem counter_ne_succ (c : UInt32) : (c + 1).toUInt64.toInt64 ≠ c.toUInt64.toInt64 := by
  intro h
  have hnat : (c + 1).toNat = c.toNat := by
    simpa using congrArg UInt64.toNat (MachineWords.toInt64_inj.mp h)
  have hlt := c.toNat_lt
  rw [UInt32.toNat_add] at hnat
  have hone : (1 : UInt32).toNat = 1 := rfl
  omega

def Stale (t : CdcTable K V) (s : CdcState K V) (k : K) : Prop :=
  ∃ row e, s.rows.find? k = some row ∧ s.journal.getLast? = some e ∧ e.rowPk = t.rowPk k ∧
    row.hlcCounter ≠ some e.hlcCounter

theorem stale_stampRow (op : CdcOp) (old new : Option (CdcRow V)) (row : CdcRow V) :
    Stale t ((s.insertJournal t k op old new).stampRow t k row) k := by
  refine ⟨_, _, FlatMap.find?_insert _ _ _ _ |>.trans (if_pos rfl), List.getLast?_append_of_ne_nil _ (by simp), rfl, ?_⟩
  simp only [ne_eq, Option.some.injEq]
  exact counter_ne_succ _

theorem journal_stampRow (op : CdcOp) (old new : Option (CdcRow V)) (row : CdcRow V) :
    ∃ e : CdcEntry, e.op = op ∧ e.rowPk = t.rowPk k ∧
      ((s.insertJournal t k op old new).stampRow t k row).journal = s.journal ++ [e] := ⟨_, rfl, rfl, rfl⟩

theorem Stale.hlcNowWall (h : Stale t s k) : Stale t (s.hlcNowWall t) k := h

theorem updateTrigger_cases (s : CdcState K V) (old : CdcRow V) (k : K) (new : CdcRow V) :
    updateTrigger t s old k new = s.hlcNowWall t ∨
    (Stale t (updateTrigger t s old k new) k ∧
      ∃ e : CdcEntry, e.op = .update ∧ e.rowPk = t.rowPk k ∧
        (updateTrigger t s old k new).journal = s.journal ++ [e]) := by
  unfold updateTrigger
  dsimp only
  split_ifs
  · exact .inr ⟨stale_stampRow .update (some old) (some new) new, journal_stampRow .update (some old) (some new) new⟩
  · exact .inl rfl

theorem insertTrigger_spec (s : CdcState K V) (k : K) (new : CdcRow V) :
    Stale t (insertTrigger t s k new) k := by
  have hstale : Stale t ((s.insertJournal t k .insert none (some new)).stampRow t k new) k :=
    stale_stampRow .insert none (some new) new
  unfold insertTrigger
  dsimp only
  split
  · exact hstale
  · rename_i stamped _
    obtain heq | ⟨h, -⟩ := updateTrigger_cases (t := t)
      ((s.insertJournal t k .insert none (some new)).stampRow t k new) new k stamped
    · rw [heq]
      exact hstale.hlcNowWall
    · exact h

theorem latestEntry_eq {e : CdcEntry} (hlast : s.journal.getLast? = some e) (hpk : e.rowPk = t.rowPk k) :
    latestEntry t s k = some e := by
  obtain ⟨front, hfront⟩ := List.getLast?_eq_some_iff.mp hlast
  rw [latestEntry, hfront, List.filter_append]
  simp [hpk]

theorem taken_stampRow (row : CdcRow V) (h : s.taken k = true) : (s.stampRow t k row).taken = s.taken := by
  funext x
  simp only [CdcState.taken, CdcState.stampRow, CdcState.hlcNowWall, FlatMap.find?_insert]
  split_ifs with hx
  · rw [hx]
    exact h.symm
  · rfl

theorem taken_updateTrigger (old new : CdcRow V) (h : s.taken k = true) :
    (updateTrigger t s old k new).taken = s.taken := by
  unfold updateTrigger
  dsimp only
  split_ifs
  · exact taken_stampRow new h
  · rfl

theorem taken_insertTrigger (new : CdcRow V) (h : s.taken k = true) : (insertTrigger t s k new).taken = s.taken := by
  have hstamp : ((s.insertJournal t k .insert none (some new)).stampRow t k new).taken = s.taken :=
    taken_stampRow new h
  unfold insertTrigger
  dsimp only
  split
  · exact hstamp
  · rw [taken_updateTrigger]
    · exact hstamp
    · rw [hstamp]
      exact h

theorem taken_apply (change : RowChange K V) : (change.apply t s).taken = change.rekey s.taken := by
  cases change with
  | insert k new =>
    rw [RowChange.apply, taken_insertTrigger]
    · funext x
      simp only [CdcState.taken, FlatMap.find?_insert, RowChange.rekey]
      split_ifs with hx <;> simp [hx]
    · simp [CdcState.taken]
  | update oldKey old k new =>
    rw [RowChange.apply, taken_updateTrigger]
    · funext x
      simp only [CdcState.taken, FlatMap.find?_insert, FlatMap.find?_erase, RowChange.rekey]
      split_ifs with hx hold
      · simp [hx]
      · simp [hx, ← hold]
      · simp [hx, hold]
    · simp [CdcState.taken]
  | delete k old =>
    funext x
    simp only [CdcState.taken, RowChange.apply, deleteTrigger, CdcState.insertJournal, CdcState.hlcNowWall,
      FlatMap.find?_erase, RowChange.rekey]
    split_ifs with hx <;> simp [hx]

end TriggerEffects

section Statements

variable {K V : Type} [LinearOrder K] {t : CdcTable K V} {s : CdcState K V}

theorem applyChanges_ok_iff (s : CdcState K V) (changes : List (RowChange K V)) :
    (applyChanges t s changes).2 = true ↔ ¬ Refused s.taken changes := by
  induction changes generalizing s with
  | nil => simp [applyChanges, Refused]
  | cons change rest ih =>
    by_cases h : change.admitted s.taken = true
    · simp only [applyChanges, h, ↓reduceIte, ih, Refused, taken_apply, Bool.true_eq_false, false_or]
    · simp [applyChanges, Refused, h]

theorem applyChanges_append {front : List (RowChange K V)} {last : RowChange K V}
    (h : (applyChanges t s (front ++ [last])).2 = true) :
    (applyChanges t s front).2 = true ∧
      (applyChanges t s (front ++ [last])).1 = last.apply t (applyChanges t s front).1 := by
  induction front generalizing s with
  | nil =>
    simp only [List.nil_append, applyChanges] at h ⊢
    split_ifs at h ⊢ with hadm
    exact ⟨trivial, rfl⟩
  | cons change front ih =>
    simp only [List.cons_append, applyChanges] at h ⊢
    split_ifs at h ⊢ with hadm
    exact ih h

theorem journal_applyChanges {P : RowChange K V → Prop} {Q : List (RowChange K V) → List CdcEntry → Prop}
    (hnil : Q [] [])
    (hstep : ∀ s c, P c → ∃ es', (c.apply t s).journal = s.journal ++ es' ∧
      ∀ cs es, Q cs es → Q (c :: cs) (es' ++ es))
    {changes : List (RowChange K V)} (hP : ∀ c ∈ changes, P c) (hok : (applyChanges t s changes).2 = true) :
    ∃ es, (applyChanges t s changes).1.journal = s.journal ++ es ∧ Q changes es := by
  induction changes generalizing s with
  | nil => exact ⟨[], by simp [applyChanges], hnil⟩
  | cons change rest ih =>
    simp only [applyChanges] at hok ⊢
    split_ifs at hok ⊢ with hadm
    obtain ⟨first, hfirst, hq⟩ := hstep s change (hP change (by simp))
    obtain ⟨es, hes, hrest⟩ := ih (fun c hc => hP c (by simp [hc])) hok
    exact ⟨first ++ es, by rw [hes, hfirst, List.append_assoc], hq rest es hrest⟩

theorem execute_of_not_refused {statement : CdcStatement K V} (h : ¬ Refused s.taken (statement.changes s)) :
    s.execute t statement = (applyChanges t s (statement.changes s)).1 := by
  have hok := (applyChanges_ok_iff (t := t) s _).mpr h
  unfold CdcState.execute
  split
  · rename_i s' heq
    rw [heq]
  · rename_i s' heq
    rw [heq] at hok
    cases hok

theorem journal_execute_of_refused {statement : CdcStatement K V} (h : Refused s.taken (statement.changes s)) :
    (s.execute t statement).journal = s.journal := by
  have hok := (applyChanges_ok_iff (t := t) s (statement.changes s)).not.mpr (not_not_intro h)
  unfold CdcState.execute
  split
  · rename_i s' heq
    rw [heq] at hok
    exact absurd rfl hok
  · rfl

theorem journal_updates {changes : List (RowChange K V)} (hupdate : ∀ c ∈ changes, c.op = .update)
    (hok : (applyChanges t s changes).2 = true) :
    ∃ es, (applyChanges t s changes).1.journal = s.journal ++ es ∧ es.length ≤ changes.length := by
  apply journal_applyChanges (Q := fun cs es => es.length ≤ cs.length) le_rfl _ hupdate hok
  intro s c hc
  cases c with
  | insert k new => cases hc
  | delete k old => cases hc
  | update oldKey old k new =>
    obtain heq | ⟨-, e, -, -, heq⟩ :=
      updateTrigger_cases (t := t) { s with rows := (s.rows.erase oldKey).insert k new } old k new
    · refine ⟨[], ?_, fun cs es h => ?_⟩
      · rw [RowChange.apply, heq]
        simp [CdcState.hlcNowWall]
      · simp only [List.nil_append, List.length_cons]
        omega
    · refine ⟨[e], heq, fun cs es h => ?_⟩
      simp only [List.cons_append, List.nil_append, List.length_cons]
      omega

theorem journal_deletes {changes : List (RowChange K V)} (hdelete : ∀ c ∈ changes, c.op = .delete)
    (hok : (applyChanges t s changes).2 = true) :
    ∃ es, (applyChanges t s changes).1.journal = s.journal ++ es ∧
      es.map (fun e => (e.op, e.rowPk)) = changes.map fun c => (c.op, t.rowPk c.key) := by
  apply journal_applyChanges
    (Q := fun cs es => es.map (fun e => (e.op, e.rowPk)) = cs.map fun c => (c.op, t.rowPk c.key)) rfl _ hdelete hok
  intro s c hc
  cases c with
  | insert k new => cases hc
  | update oldKey old k new => cases hc
  | delete k old =>
    refine ⟨_, rfl, fun cs es h => ?_⟩
    simp only [List.cons_append, List.nil_append, List.map_cons, h]
    rfl

/-- The statement is refused by the primary key, or it neither inserts nor updates a row. -/
def WritesNoRow (s : CdcState K V) (statement : CdcStatement K V) : Prop :=
  Refused s.taken (statement.changes s) ∨ ∀ c ∈ statement.changes s, c.op = .delete

theorem changes_uniform (s : CdcState K V) (statement : CdcStatement K V) :
    ∃ op, ∀ c ∈ statement.changes s, c.op = op := by
  cases statement with
  | insert rows =>
    refine ⟨.insert, fun c hc => ?_⟩
    obtain ⟨row, -, rfl⟩ := List.mem_map.mp hc
    rfl
  | update select assign =>
    refine ⟨.update, fun c hc => ?_⟩
    obtain ⟨row, -, rfl⟩ := List.mem_map.mp hc
    rfl
  | delete select =>
    refine ⟨.delete, fun c hc => ?_⟩
    obtain ⟨row, -, rfl⟩ := List.mem_map.mp hc
    rfl

theorem not_carriesClock_of_stale {statement : CdcStatement K V} {c : RowChange K V} (hc : c ∈ s.changed statement)
    (hop : c.op ≠ .delete) (h : Stale t (s.execute t statement) c.key) : ¬ CarriesClock t s statement := by
  intro hcarries
  obtain ⟨row, e, hrow, hlast, hpk, hne⟩ := h
  obtain ⟨e', he', -, hcounter, -⟩ := hcarries c hc hop row hrow
  rw [latestEntry_eq hlast hpk] at he'
  rw [← Option.some.inj he'] at hcounter
  exact hne hcounter

theorem fails_of_writes {statement : CdcStatement K V} {front : List (RowChange K V)} {last : RowChange K V}
    (hchanges : statement.changes s = front ++ [last]) (hadmitted : ¬ Refused s.taken (statement.changes s))
    (hop : ∀ c ∈ statement.changes s, c.op = last.op) (hlast : last.op ≠ .delete) :
    ¬ (JournaledOnce t s statement ∧ CarriesClock t s statement) := by
  rintro ⟨⟨entries, hjournal, hentries⟩, hcarries⟩
  have hchanged : s.changed statement = front ++ [last] := by rw [CdcState.changed, if_neg hadmitted, hchanges]
  have hexec := execute_of_not_refused (t := t) hadmitted
  rw [hchanges] at hexec hop hadmitted
  have hok := (applyChanges_ok_iff (t := t) s _).mpr hadmitted
  obtain ⟨hfront, hstate⟩ := applyChanges_append hok
  have hmem : last ∈ s.changed statement := by simp [hchanged]
  rw [hexec, hstate] at hjournal
  cases last with
  | delete k old => exact hlast rfl
  | insert k new =>
    apply not_carriesClock_of_stale hmem hlast _ hcarries
    rw [hexec, hstate]
    exact insertTrigger_spec _ k new
  | update oldKey old k new =>
    obtain heq | ⟨hstale, -⟩ := updateTrigger_cases (t := t)
      { (applyChanges t s front).1 with rows := ((applyChanges t s front).1.rows.erase oldKey).insert k new } old k new
    · -- The trigger did not fire, and the rows before have one entry each at most.
      obtain ⟨es, hes, hlength⟩ := journal_updates (fun c hc => hop c (by simp [hc])) hfront
      rw [RowChange.apply, heq] at hjournal
      have hsame : es = entries := List.append_cancel_left (hes.symm.trans hjournal)
      have hcount := congrArg List.length hentries
      simp only [hchanged, List.length_map, List.length_append, List.length_cons, List.length_nil, ← hsame] at hcount
      omega
    · apply not_carriesClock_of_stale hmem hlast _ hcarries
      rw [hexec, hstate]
      exact hstale

theorem journals_once_iff (s : CdcState K V) (statement : CdcStatement K V) :
    (JournaledOnce t s statement ∧ CarriesClock t s statement) ↔ WritesNoRow s statement := by
  constructor
  · intro h
    by_contra hwrites
    rw [WritesNoRow, not_or] at hwrites
    obtain ⟨hadmitted, hnot⟩ := hwrites
    obtain ⟨op, hop⟩ := changes_uniform s statement
    have hne : statement.changes s ≠ [] := by
      intro hnil
      apply hnot
      simp [hnil]
    obtain ⟨front, last, hchanges⟩ : ∃ front last, statement.changes s = front ++ [last] :=
      ⟨_, _, (List.dropLast_append_getLast hne).symm⟩
    have hlast : last.op = op := hop last (by simp [hchanges])
    refine fails_of_writes hchanges hadmitted (fun c hc => (hop c hc).trans hlast.symm) ?_ h
    intro hdelete
    apply hnot
    intro c hc
    rw [hop c hc, ← hlast, hdelete]
  · intro h
    by_cases hrefused : Refused s.taken (statement.changes s)
    · have hchanged : s.changed statement = [] := if_pos hrefused
      refine ⟨⟨[], ?_, by simp [hchanged]⟩, by simp [CarriesClock, hchanged]⟩
      rw [journal_execute_of_refused hrefused, List.append_nil]
    · have hdelete := h.resolve_left hrefused
      have hchanged : s.changed statement = statement.changes s := if_neg hrefused
      obtain ⟨es, hes, hmap⟩ := journal_deletes hdelete ((applyChanges_ok_iff (t := t) s _).mpr hrefused)
      refine ⟨⟨es, ?_, ?_⟩, ?_⟩
      · rw [execute_of_not_refused hrefused, hes]
      · rw [hchanged, hmap]
      · intro c hc hop
        exact absurd (hdelete c (hchanged ▸ hc)) hop

/-- Over any sequence of statements the triggers journal each changed row once with the row's own clock exactly
when no statement inserts or updates a row. -/
theorem cdc_journals_once_iff_writes_no_row (t : CdcTable K V) (s : CdcState K V)
    (statements : List (CdcStatement K V)) :
    AllSteps (CdcState.execute t) (fun s st => JournaledOnce t s st ∧ CarriesClock t s st) s statements ↔
      AllSteps (CdcState.execute t) WritesNoRow s statements :=
  allSteps_congr _ journals_once_iff

end Statements

def sampleEmail : Bytes := ofString "\x7b\"email\":\"a@b.c\"\x7d"

def sampleAccountKey : Bytes := ofString "\x7b\"id\":1\x7d"

def sampleAccounts : CdcTable ℕ Unit where
  time := fun _ => 1700000000000
  sha256 := sha256On [
    (journalPayload (ofString "accounts") sampleAccountKey (ofString "INSERT") [] sampleEmail, [
      137, 192, 252, 1, 13, 118, 77, 104, 144, 59, 61, 247, 17, 142, 187, 176, 138, 103, 118, 124,
      86, 41, 66, 161, 71, 107, 40, 79, 79, 205, 47, 5]),
    (journalPayload (ofString "accounts") sampleAccountKey (ofString "UPDATE") sampleEmail sampleEmail, [
      51, 189, 179, 113, 211, 139, 91, 141, 87, 221, 210, 82, 143, 95, 111, 95, 27, 151, 245, 144,
      162, 103, 163, 9, 188, 164, 237, 161, 114, 225, 196, 133])]
  tableName := ofString "accounts"
  rowPk := fun n => ofString "\x7b\"id\":" ++ decimal n ++ ofString "\x7d"
  tracked := fun _ => sampleEmail

/-- One INSERT leaves an INSERT entry at counter 1 and an UPDATE entry at counter 4, and the row at counter 5. -/
theorem insert_journals_an_update :
    let s : CdcState ℕ Unit := ⟨HlcClock.new 7 0 0, 0, .empty, [], []⟩
    let s' := s.execute sampleAccounts (.insert [(1, ⟨(), some 0, some 0, some 0⟩)])
    s'.journal.map (fun e => (e.op, e.hlcCounter)) = [(.insert, 1), (.update, 4)] ∧
      (s'.rows.find? 1).map (·.hlcCounter) = some (some 5) ∧
      ¬ AllSteps (CdcState.execute sampleAccounts)
        (fun s st => JournaledOnce sampleAccounts s st ∧ CarriesClock sampleAccounts s st) s
        [.insert [(1, ⟨(), some 0, some 0, some 0⟩)]] := by
  refine ⟨by decide, by decide, ?_⟩
  rintro ⟨h, -⟩
  have hwrites := (journals_once_iff _ _).mp h
  revert hwrites
  unfold WritesNoRow
  decide

end Tightrope.Sync
