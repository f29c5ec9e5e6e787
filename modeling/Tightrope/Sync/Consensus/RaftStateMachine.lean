import Tightrope.Library.Runs
import Tightrope.Sync.Consensus.RaftStorage

namespace Tightrope.Sync.Consensus

open MachineWords Runs SqliteRaftStorage

structure InMemoryStateMachine where
  storage : SqliteRaftStorage
  commitIndex : UInt64
  committedPayloads : List Bytes

def InMemoryStateMachine.construct (storage : SqliteRaftStorage) : InMemoryStateMachine where
  storage := storage
  commitIndex := storage.maxCommittedIndex.getD 0
  committedPayloads := storage.loadAllCommitted

def InMemoryStateMachine.commit (lib : RaftLibraries) (faults : StorageFaults) (m : InMemoryStateMachine)
    (logIdx : UInt64) (data : Bytes) : InMemoryStateMachine where
  storage := (appendCommitted lib faults m.storage logIdx data).getD m.storage
  commitIndex := logIdx
  committedPayloads := m.committedPayloads ++ [data]

inductive MachineCall where
  | commit (faults : StorageFaults) (logIdx : UInt64) (data : Bytes)
  | restart

section Recovery

variable (lib : RaftLibraries)

def InMemoryStateMachine.step (m : InMemoryStateMachine) : MachineCall → InMemoryStateMachine
  | .commit faults logIdx data => m.commit lib faults logIdx data
  | .restart => .construct m.storage

/-- A new instance over the same storage is in the state of the running one. -/
def Recovers (m : InMemoryStateMachine) : Prop :=
  (InMemoryStateMachine.construct m.storage).commitIndex = m.commitIndex ∧
    (InMemoryStateMachine.construct m.storage).committedPayloads = m.committedPayloads

instance (m : InMemoryStateMachine) : Decidable (Recovers m) := inferInstanceAs (Decidable (_ ∧ _))

def KeepsRecovery (m : InMemoryStateMachine) : MachineCall → Prop
  | .commit faults logIdx data => (¬ faults.statementFails ∧ lib.payloadFits data ∧ data ≠ []) ∧
      ∀ e ∈ m.storage.committed.entries, e.1 ≤ logIdx.toInt64 ∧ (e.1 = logIdx.toInt64 → e.2 = [])
  | .restart => True

def payloads (rows : List (Int64 × Bytes)) : List Bytes := (rows.map Prod.snd).filter (· ≠ [])

theorem payloads_cons (row : Int64 × Bytes) (rows : List (Int64 × Bytes)) :
    payloads (row :: rows) = if row.2 = [] then payloads rows else row.2 :: payloads rows := by
  rw [payloads, List.map_cons, List.filter_cons]
  by_cases h : row.2 = [] <;> simp [h, payloads]

theorem payloads_insertEntry_last {key : Int64} {data : Bytes} {rows : List (Int64 × Bytes)}
    (hsorted : rows.Pairwise (fun a b => a.1 < b.1)) (hdata : data ≠ [])
    (hrows : ∀ e ∈ rows, e.1 ≤ key ∧ (e.1 = key → e.2 = [])) :
    payloads (FlatMap.insertEntry key data rows) = payloads rows ++ [data] := by
  induction rows with
  | nil => simp [FlatMap.insertEntry, payloads, hdata]
  | cons row rows ih =>
    obtain ⟨hbelow, hsorted⟩ := List.pairwise_cons.mp hsorted
    obtain ⟨hle, hempty⟩ := hrows row List.mem_cons_self
    rw [FlatMap.insertEntry, if_neg (not_lt.mpr hle)]
    by_cases hkey : key = row.1
    · have hnil : rows = [] := by
        apply List.eq_nil_iff_forall_not_mem.mpr
        intro e he
        have hup := (hrows e (List.mem_cons_of_mem _ he)).1
        rw [hkey] at hup
        exact absurd (hbelow e he) (not_lt.mpr hup)
      rw [if_pos hkey, hnil, payloads_cons, payloads_cons, if_neg hdata, if_pos (hempty hkey.symm)]
      rfl
    · rw [if_neg hkey, payloads_cons, payloads_cons, ih hsorted fun e he => hrows e (List.mem_cons_of_mem _ he)]
      split_ifs <;> rfl

theorem filter_key_eq_nil {key : Int64} {rows : List (Int64 × Bytes)} (h : ∀ e ∈ rows, key < e.1) :
    rows.filter (fun e => e.1 = key) = [] := by
  apply List.filter_eq_nil_iff.mpr
  intro e he
  rw [decide_eq_true_eq]
  exact (h e he).ne'

theorem length_payloads_insertEntry {key : Int64} {data : Bytes} {rows : List (Int64 × Bytes)}
    (hsorted : rows.Pairwise (fun a b => a.1 < b.1)) :
    (payloads (FlatMap.insertEntry key data rows)).length + (payloads (rows.filter fun e => e.1 = key)).length =
      (payloads rows).length + (payloads [(key, data)]).length := by
  induction rows with
  | nil => simp [FlatMap.insertEntry, payloads]
  | cons row rows ih =>
    obtain ⟨hbelow, hsorted⟩ := List.pairwise_cons.mp hsorted
    rw [FlatMap.insertEntry]
    by_cases hlt : key < row.1
    · have hnone := @filter_key_eq_nil key (row :: rows) fun e he => by
        obtain rfl | he := List.mem_cons.mp he
        · exact hlt
        · exact hlt.trans (hbelow e he)
      rw [if_pos hlt, hnone, payloads_cons (key, data), payloads_cons (key, data)]
      split_ifs <;> simp [payloads]
    · by_cases heq : key = row.1
      · have hnone := @filter_key_eq_nil key rows fun e he => heq ▸ hbelow e he
        rw [if_neg hlt, if_pos heq, List.filter_cons_of_pos (by simp [heq]), hnone, payloads_cons (key, data),
          payloads_cons (key, data), payloads_cons row, payloads_cons row]
        split_ifs <;> simp [payloads]
      · have hrest := ih hsorted
        rw [if_neg hlt, if_neg heq, List.filter_cons_of_neg (by simp [Ne.symm heq]), payloads_cons row,
          payloads_cons row]
        split_ifs
        · exact hrest
        · rw [List.length_cons, List.length_cons]
          omega

theorem of_length_payloads_insertEntry {key : Int64} {data : Bytes} {rows : List (Int64 × Bytes)}
    (hsorted : rows.Pairwise (fun a b => a.1 < b.1))
    (h : (payloads (FlatMap.insertEntry key data rows)).length = (payloads rows).length + 1) :
    data ≠ [] ∧ ∀ e ∈ rows, e.1 = key → e.2 = [] := by
  have hcount := @length_payloads_insertEntry key data rows hsorted
  have hdata : data ≠ [] := by
    rintro rfl
    have hzero : (payloads [(key, [])]).length = 0 := rfl
    omega
  have hone : (payloads [(key, data)]).length = 1 := by
    rw [payloads_cons, if_neg hdata]
    rfl
  refine ⟨hdata, ?_⟩
  intro e he hkey
  by_contra hne
  have hmem : e.2 ∈ payloads (rows.filter fun e => e.1 = key) := by
    rw [payloads, List.mem_filter]
    refine ⟨List.mem_map_of_mem (List.mem_filter.mpr ⟨he, ?_⟩), ?_⟩
    · rwa [decide_eq_true_eq]
    · rwa [decide_eq_true_eq]
  have hpos := List.length_pos_of_mem hmem
  omega

variable {lib}

def withCommitted (s : SqliteRaftStorage) (logIdx : UInt64) (data : Bytes) : SqliteRaftStorage :=
  { s with committed := s.committed.insert logIdx.toInt64 data }

theorem commitIndex_construct_iff (s : SqliteRaftStorage) (logIdx : UInt64) (data : Bytes) :
    (InMemoryStateMachine.construct (withCommitted s logIdx data)).commitIndex = logIdx ↔
      ∀ e ∈ s.committed.entries, e.1 ≤ logIdx.toInt64 := by
  obtain ⟨last, hlast⟩ := FlatMap.exists_lastKey?_insert s.committed logIdx.toInt64 data
  have hindex : (InMemoryStateMachine.construct (withCommitted s logIdx data)).commitIndex = last.toUInt64 := by
    rw [InMemoryStateMachine.construct, maxCommittedIndex, withCommitted, hlast]
    rfl
  rw [hindex, ← @FlatMap.lastKey?_insert_eq_some _ _ _ _ _ data, hlast, Option.some_inj]
  constructor
  · rintro rfl
    rw [Int64.toInt64_toUInt64]
  · rintro rfl
    exact UInt64.toUInt64_toInt64 logIdx

theorem committedPayloads_construct_iff (s : SqliteRaftStorage) (logIdx : UInt64) (data : Bytes)
    (hkeys : ∀ e ∈ s.committed.entries, e.1 ≤ logIdx.toInt64) :
    (InMemoryStateMachine.construct (withCommitted s logIdx data)).committedPayloads = s.loadAllCommitted ++ [data] ↔
      data ≠ [] ∧ ∀ e ∈ s.committed.entries, e.1 = logIdx.toInt64 → e.2 = [] := by
  change payloads (FlatMap.insertEntry logIdx.toInt64 data s.committed.entries) =
    payloads s.committed.entries ++ [data] ↔ _
  constructor
  · intro h
    apply of_length_payloads_insertEntry s.committed.sorted
    rw [h, List.length_append, List.length_singleton]
  · rintro ⟨hdata, hempty⟩
    exact payloads_insertEntry_last s.committed.sorted hdata fun e he => ⟨hkeys e he, hempty e he⟩

theorem recovers_commit_iff {m : InMemoryStateMachine} (h : Recovers m) (faults : StorageFaults) (logIdx : UInt64)
    (data : Bytes) : Recovers (m.commit lib faults logIdx data) ↔ KeepsRecovery lib m (.commit faults logIdx data) := by
  have hpayloads : m.storage.loadAllCommitted = m.committedPayloads := h.2
  rw [Recovers, InMemoryStateMachine.commit, appendCommitted, KeepsRecovery, ← hpayloads]
  by_cases hfails : faults.statementFails ∨ ¬ lib.payloadFits data
  · rw [if_pos hfails]
    constructor
    · rintro ⟨-, hlist⟩
      have hlength := congrArg List.length hlist
      simp [InMemoryStateMachine.construct] at hlength
    · rintro ⟨⟨hok, hfits, -⟩, -⟩
      exact absurd hfails (by simp [hok, hfits])
  · rw [if_neg hfails, Option.getD_some]
    obtain ⟨hok, hfits⟩ := not_or.mp hfails
    change (InMemoryStateMachine.construct (withCommitted m.storage logIdx data)).commitIndex = logIdx ∧
      (InMemoryStateMachine.construct (withCommitted m.storage logIdx data)).committedPayloads = _ ↔ _
    rw [commitIndex_construct_iff]
    constructor
    · rintro ⟨hkeys, hlist⟩
      obtain ⟨hdata, hempty⟩ := (committedPayloads_construct_iff _ _ _ hkeys).mp hlist
      exact ⟨⟨hok, not_not.mp hfits, hdata⟩, fun e he => ⟨hkeys e he, hempty e he⟩⟩
    · rintro ⟨⟨-, -, hdata⟩, hrows⟩
      have hkeys : ∀ e ∈ m.storage.committed.entries, e.1 ≤ logIdx.toInt64 := fun e he => (hrows e he).1
      exact ⟨hkeys, (committedPayloads_construct_iff _ _ _ hkeys).mpr ⟨hdata, fun e he => (hrows e he).2⟩⟩

theorem recovers_step_iff {m : InMemoryStateMachine} (h : Recovers m) (call : MachineCall) :
    Recovers (m.step lib call) ↔ KeepsRecovery lib m call := by
  cases call with
  | commit faults logIdx data => exact recovers_commit_iff h faults logIdx data
  | restart => exact ⟨fun _ => trivial, fun _ => ⟨rfl, rfl⟩⟩

variable (lib)

/-- In a run from an empty store the running instance can be recovered in every state exactly when every commit
stores a payload that is not empty, under a key no earlier one lies above and none of these is stored at. -/
theorem recovery_matches_running_iff (calls : List MachineCall) :
    AllStates (InMemoryStateMachine.step lib) Recovers (.construct {}) calls ↔
      AllSteps (InMemoryStateMachine.step lib) (KeepsRecovery lib) (.construct {}) calls :=
  allStates_iff_allSteps _ (fun _ call hm => recovers_step_iff hm call) ⟨rfl, rfl⟩

/-- Commits come in the order of their indices. -/
def InOrder (m : InMemoryStateMachine) : MachineCall → Prop
  | .commit _ logIdx _ => m.commitIndex ≤ logIdx
  | .restart => True

instance (m : InMemoryStateMachine) (call : MachineCall) : Decidable (InOrder m call) :=
  match call with
  | .commit _ _ _ => inferInstanceAs (Decidable (_ ≤ _))
  | .restart => inferInstanceAs (Decidable True)

theorem empty_or_replayed_payload_not_recovered :
    (AllSteps (InMemoryStateMachine.step nuraftAndSqlite) InOrder (.construct {}) [.commit {} 1 []] ∧
      ¬ Recovers (run (InMemoryStateMachine.step nuraftAndSqlite) (.construct {}) [.commit {} 1 []])) ∧
    AllSteps (InMemoryStateMachine.step nuraftAndSqlite) InOrder (.construct {})
        [.commit {} 1 [7], .restart, .commit {} 1 [7]] ∧
      ¬ Recovers (run (InMemoryStateMachine.step nuraftAndSqlite) (.construct {})
        [.commit {} 1 [7], .restart, .commit {} 1 [7]]) := by
  decide

end Recovery

end Tightrope.Sync.Consensus
