import Mathlib.Logic.Function.Basic
import Tightrope.Library.Runs
import Tightrope.Sync.Crdt.OrSet

namespace Tightrope.Sync.Crdt

open Runs

structure Cluster where
  trail : UInt32 → List ORSet

inductive ReplicaOp where
  | add (site : UInt32) (element : Bytes)
  | remove (site : UInt32) (element : Bytes)
  | merge (site source : UInt32) (age : ℕ)
  deriving DecidableEq

namespace Cluster

def initial : Cluster := ⟨fun _ => [.empty]⟩

def current (c : Cluster) (site : UInt32) : ORSet := (c.trail site).headD .empty

def snapshot (c : Cluster) (source : UInt32) (age : ℕ) : ORSet := (c.trail source).getD age .empty

def advance (c : Cluster) (site : UInt32) (s : ORSet) : Cluster :=
  ⟨Function.update c.trail site (s :: c.trail site)⟩

def step (c : Cluster) : ReplicaOp → Cluster
  | .add site element => c.advance site ((c.current site).add element site)
  | .remove site element => c.advance site ((c.current site).remove element)
  | .merge site source age => c.advance site ((c.current site).merge (c.snapshot source age))

@[simp] theorem current_advance (c : Cluster) (site site' : UInt32) (s : ORSet) :
    (c.advance site s).current site' = if site' = site then s else c.current site' := by
  by_cases h : site' = site <;> simp [current, advance, h]

end Cluster

section Law

variable (site : UInt32) (element : Bytes) (observed : TagSet)

def MergesOnlyObserved (c : Cluster) : ReplicaOp → Prop
  | .add s e => ¬ (s = site ∧ e = element)
  | .remove _ _ => True
  | .merge s source age => s = site → ∀ tag ∈ (c.snapshot source age).tags element, tag ∈ observed

def AddWins (c : Cluster) : ReplicaOp → Prop
  | .add _ _ => True
  | .remove _ _ => True
  | .merge s source age => s = site → (∃ tag ∈ (c.snapshot source age).tags element, tag ∉ observed) →
      ((c.step (.merge s source age)).current site).contains element = true

def MergesNoTag (c : Cluster) : ReplicaOp → Prop
  | .add _ _ => True
  | .remove _ _ => True
  | .merge s source age => s = site → ∀ tag, tag ∉ (c.snapshot source age).tags element

def Absent (c : Cluster) : Prop := (c.current site).contains element = false

end Law

def ObservedRemoveLaw (before : List ReplicaOp) (site : UInt32) (element : Bytes) (after : List ReplicaOp) :
    Prop :=
  let c := run Cluster.step .initial before
  let observed := (c.current site).tags element
  let removed := c.step (.remove site element)
  (AllSteps Cluster.step (MergesOnlyObserved site element observed) removed after →
    AllStates Cluster.step (Absent site element) removed after) ∧
  AllSteps Cluster.step (AddWins site element observed) removed after

variable {site : UInt32} {element : Bytes} {observed : TagSet}

theorem absent_iff (c : Cluster) : Absent site element c ↔ ∀ tag, tag ∉ (c.current site).tags element := by
  rw [Absent, ← Bool.not_eq_true, ORSet.contains_iff]
  exact not_exists

theorem addWins (c : Cluster) (op : ReplicaOp) : AddWins site element observed c op := by
  cases op with
  | add s e => trivial
  | remove s e => trivial
  | merge s source age =>
    rintro rfl ⟨tag, htag, -⟩
    rw [ORSet.contains_iff]
    refine ⟨tag, ?_⟩
    simp only [Cluster.step, Cluster.current_advance, ↓reduceIte, ORSet.tags_merge, FlatSet.mem_sup]
    exact .inr htag

theorem absent_step_iff (c : Cluster) (op : ReplicaOp) (hop : MergesOnlyObserved site element observed c op)
    (h : Absent site element c) : Absent site element (c.step op) ↔ MergesNoTag site element c op := by
  rw [absent_iff] at h ⊢
  cases op with
  | add s e =>
    simp only [MergesNoTag, iff_true, Cluster.step, Cluster.current_advance]
    split_ifs with hs
    · have he : element ≠ e := fun heq => hop ⟨hs.symm, heq.symm⟩
      rw [ORSet.tags_add_of_ne _ _ he, ← hs]
      exact h
    · exact h
  | remove s e =>
    simp only [MergesNoTag, iff_true, Cluster.step, Cluster.current_advance]
    split_ifs with hs
    · rw [ORSet.tags_remove, ← hs]
      split_ifs
      · exact FlatSet.not_mem_empty
      · exact h
    · exact h
  | merge s source age =>
    simp only [MergesNoTag, Cluster.step, Cluster.current_advance]
    split_ifs with hs
    · simp [hs.symm, ORSet.tags_merge, FlatSet.mem_sup, h]
    · simpa [Ne.symm hs] using h

theorem absent_run_iff (c : Cluster) (ops : List ReplicaOp)
    (hops : AllSteps Cluster.step (MergesOnlyObserved site element observed) c ops)
    (h : Absent site element c) :
    AllStates Cluster.step (Absent site element) c ops ↔ AllSteps Cluster.step (MergesNoTag site element) c ops := by
  induction ops generalizing c with
  | nil => exact ⟨fun _ => trivial, fun _ => h⟩
  | cons op ops ih =>
    constructor
    · rintro ⟨-, hrest⟩
      have hnext := hrest.start
      exact ⟨(absent_step_iff c op hops.1 h).mp hnext, (ih _ hops.2 hnext).mp hrest⟩
    · rintro ⟨hop, hrest⟩
      have hnext := (absent_step_iff c op hops.1 h).mpr hop
      exact ⟨h, (ih _ hops.2 hnext).mpr hrest⟩

theorem absent_remove (c : Cluster) : Absent site element (c.step (.remove site element)) := by
  rw [absent_iff]
  simp [Cluster.step, ORSet.tags_remove]

theorem allSteps_addWins (c : Cluster) (ops : List ReplicaOp) :
    AllSteps Cluster.step (AddWins site element observed) c ops := by
  induction ops generalizing c with
  | nil => trivial
  | cons op ops ih => exact ⟨addWins c op, ih _⟩

theorem observedRemove_iff (before : List ReplicaOp) (site : UInt32) (element : Bytes) (after : List ReplicaOp) :
    ObservedRemoveLaw before site element after ↔
      let c := run Cluster.step .initial before
      let removed := c.step (.remove site element)
      AllSteps Cluster.step (MergesOnlyObserved site element ((c.current site).tags element)) removed after →
        AllSteps Cluster.step (MergesNoTag site element) removed after := by
  simp only [ObservedRemoveLaw, allSteps_addWins, and_true]
  constructor
  · intro h hops
    exact (absent_run_iff _ _ hops (absent_remove _)).mp (h hops)
  · intro h hops
    exact (absent_run_iff _ _ hops (absent_remove _)).mpr (h hops)

theorem removed_element_reappears :
    ¬ ObservedRemoveLaw [.add 1 [10], .merge 2 1 0] 1 [10] [.merge 1 2 0] := by
  intro h
  have hobserved : AllSteps Cluster.step (MergesOnlyObserved 1 [10]
      (((run Cluster.step .initial [.add 1 [10], .merge 2 1 0]).current 1).tags [10]))
      ((run Cluster.step .initial [.add 1 [10], .merge 2 1 0]).step (.remove 1 [10])) [.merge 1 2 0] := by
    refine ⟨fun _ tag htag => ?_, trivial⟩
    exact htag
  have hfinal := (h.1 hobserved).final
  unfold Absent at hfinal
  exact absurd hfinal (by decide)

end Tightrope.Sync.Crdt
