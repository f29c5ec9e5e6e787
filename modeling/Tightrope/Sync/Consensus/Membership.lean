import Mathlib.Data.Finset.Card
import Mathlib.Data.List.Destutter
import Tightrope.Library.MachineWords
import Tightrope.Library.Runs

namespace Tightrope.Sync.Consensus

open MachineWords Runs

def requiredQuorum (members : ℕ) : ℕ := if members = 0 then 0 else members / 2 + 1

def normalize (members : List UInt32) : List UInt32 := ((members.filter (· ≠ 0)).mergeSort (· ≤ ·)).destutter (· ≠ ·)

theorem normalize_eq_dedup (members : List UInt32) :
    normalize members = ((members.filter (· ≠ 0)).mergeSort (· ≤ ·)).dedup := by
  have hsorted : ((members.filter (· ≠ 0)).mergeSort (· ≤ ·)).Pairwise (· ≤ ·) := by
    have h := @List.pairwise_mergeSort UInt32 (fun a b => decide (a ≤ b))
      (fun a b c hab hbc => by simpa using (of_decide_eq_true hab).trans (of_decide_eq_true hbc))
      (fun a b => by simpa using le_total a b) (members.filter (· ≠ 0))
    exact h.imp fun hab => of_decide_eq_true hab
  exact hsorted.destutter_eq_dedup

theorem nodup_normalize (members : List UInt32) : (normalize members).Nodup := by
  rw [normalize_eq_dedup]
  exact List.nodup_dedup _

theorem mem_normalize {members : List UInt32} {id : UInt32} : id ∈ normalize members ↔ id ∈ members ∧ id ≠ 0 := by
  rw [normalize_eq_dedup, List.mem_dedup, List.mem_mergeSort, List.mem_filter, decide_eq_true_eq]

/-- The duplicate-free lists `normalize` leaves are part of the type; only the constructor lets an empty one in. -/
structure Membership where
  members : List UInt32
  jointMembers : Option (List UInt32) := none
  members_nodup : members.Nodup
  joint_nodup : ∀ next ∈ jointMembers, next.Nodup
  joint_nonempty : ∀ next ∈ jointMembers, next ≠ []
  deriving DecidableEq

def hasMajorityFor (members : List UInt32) (votes : Finset UInt32) : Bool :=
  members.countP (· ∈ votes) ≥ requiredQuorum members.length

namespace Membership

def create (members : List UInt32) : Membership := ⟨normalize members, none, nodup_normalize members, nofun, nofun⟩

def size (m : Membership) : ℕ := m.members.length

def quorumSize (m : Membership) : ℕ := requiredQuorum m.members.length

def contains (m : Membership) (nodeId : UInt32) : Bool := nodeId ∈ m.members

def hasMajority (m : Membership) (votes : Finset UInt32) : Bool := hasMajorityFor m.members votes

def hasJointMajority (m : Membership) (votes : Finset UInt32) : Bool :=
  match m.jointMembers with
  | none => m.hasMajority votes
  | some next => hasMajorityFor m.members votes && hasMajorityFor next votes

def inJointConsensus (m : Membership) : Bool := m.jointMembers.isSome

def beginJointConsensus (m : Membership) (nextMembers : List UInt32) : Membership × Bool :=
  if m.jointMembers.isSome then (m, false)
  else if h : normalize nextMembers = [] then (m, false)
  else ({ m with
    jointMembers := some (normalize nextMembers)
    joint_nodup := by rintro _ ⟨rfl⟩; exact nodup_normalize nextMembers
    joint_nonempty := by rintro _ ⟨rfl⟩; exact h }, true)

def commitJointConsensus (m : Membership) : Membership × Bool :=
  match h : m.jointMembers with
  | none => (m, false)
  | some next => (⟨next, none, m.joint_nodup next (by rw [h]; rfl), nofun, nofun⟩, true)

def resetMembers (m : Membership) (members : List UInt32) : Membership :=
  if normalize members = [] then m else ⟨normalize members, none, nodup_normalize members, nofun, nofun⟩

end Membership

inductive MembershipOp
  | beginJointConsensus (nextMembers : List UInt32)
  | commitJointConsensus
  | resetMembers (members : List UInt32)

namespace Membership

def act (m : Membership) : MembershipOp → Membership × Bool
  | .beginJointConsensus nextMembers => m.beginJointConsensus nextMembers
  | .commitJointConsensus => m.commitJointConsensus
  | .resetMembers members => (m.resetMembers members, false)

def step (m : Membership) (op : MembershipOp) : Membership := (m.act op).1

/-- Every vote set accepted in the one state shares a voter with every vote set accepted in the other. -/
def QuorumsIntersect (m m' : Membership) : Prop :=
  ∀ votes votes', m.hasJointMajority votes = true → m'.hasJointMajority votes' = true →
    ∃ node, node ∈ votes ∧ node ∈ votes'

def ChangeKeepsQuorums (m : Membership) (op : MembershipOp) : Prop :=
  (m.act op).2 = true → QuorumsIntersect m (m.step op)

end Membership

theorem countP_eq_card {members : List UInt32} (h : members.Nodup) (votes : Finset UInt32) :
    members.countP (· ∈ votes) = (members.toFinset ∩ votes).card := by
  have hfilter : members.toFinset ∩ votes = (members.filter (· ∈ votes)).toFinset := by
    ext node
    simp
  rw [hfilter, List.toFinset_card_of_nodup (h.filter _), List.countP_eq_length_filter]

theorem majorities_intersect {members : List UInt32} (hnodup : members.Nodup) (hne : members ≠ [])
    {votes votes' : Finset UInt32} (h : hasMajorityFor members votes = true)
    (h' : hasMajorityFor members votes' = true) : ∃ node, node ∈ votes ∧ node ∈ votes' := by
  have hlength : members.length ≠ 0 := fun hzero => hne (List.length_eq_zero_iff.mp hzero)
  simp only [hasMajorityFor, requiredQuorum, if_neg hlength, ge_iff_le, decide_eq_true_eq,
    countP_eq_card hnodup] at h h'
  have hcard : members.toFinset.card < (members.toFinset ∩ votes).card + (members.toFinset ∩ votes').card := by
    rw [List.toFinset_card_of_nodup hnodup]
    omega
  obtain ⟨node, hnode⟩ := Finset.inter_nonempty_of_card_lt_card_add_card Finset.inter_subset_left
    Finset.inter_subset_left hcard
  simp only [Finset.mem_inter] at hnode
  exact ⟨node, hnode.1.2, hnode.2.2⟩

namespace Membership

theorem hasMajorityFor_members {m : Membership} {votes : Finset UInt32} (h : m.hasJointMajority votes = true) :
    hasMajorityFor m.members votes = true := by
  unfold hasJointMajority at h
  split at h
  · exact h
  · rw [Bool.and_eq_true] at h
    exact h.1

theorem hasMajorityFor_joint {m : Membership} {votes : Finset UInt32} (h : m.hasJointMajority votes = true)
    {next : List UInt32} (hnext : m.jointMembers = some next) : hasMajorityFor next votes = true := by
  simp only [hasJointMajority, hnext, Bool.and_eq_true] at h
  exact h.2

theorem quorumsIntersect_self {m : Membership} (hne : m.members ≠ []) : QuorumsIntersect m m := by
  intro votes votes' h h'
  exact majorities_intersect m.members_nodup hne (hasMajorityFor_members h) (hasMajorityFor_members h')

theorem members_beginJointConsensus (m : Membership) (nextMembers : List UInt32) :
    (m.beginJointConsensus nextMembers).1.members = m.members := by
  unfold beginJointConsensus
  split_ifs <;> rfl

theorem commitJointConsensus_cases (m : Membership) :
    m.commitJointConsensus = (m, false) ∨
      ∃ next, m.jointMembers = some next ∧ m.commitJointConsensus.1.members = next := by
  unfold commitJointConsensus
  split
  · exact .inl rfl
  · rename_i next hnext
    exact .inr ⟨next, hnext, rfl⟩

theorem changeKeepsQuorums {m : Membership} (hne : m.members ≠ []) (op : MembershipOp) : ChangeKeepsQuorums m op := by
  intro hok votes votes' h h'
  have hafter := hasMajorityFor_members h'
  cases op with
  | beginJointConsensus nextMembers =>
    simp only [step, act, members_beginJointConsensus] at hafter
    exact majorities_intersect m.members_nodup hne (hasMajorityFor_members h) hafter
  | commitJointConsensus =>
    obtain hrefused | ⟨next, hnext, hmembers⟩ := m.commitJointConsensus_cases
    · simp [act, hrefused] at hok
    · simp only [step, act, hmembers] at hafter
      exact majorities_intersect (m.joint_nodup next hnext) (m.joint_nonempty next hnext)
        (hasMajorityFor_joint h hnext) hafter
  | resetMembers members => cases hok

theorem members_ne_nil_step {m : Membership} (hne : m.members ≠ []) (op : MembershipOp) : (m.step op).members ≠ [] := by
  cases op with
  | beginJointConsensus nextMembers =>
    simp only [step, act, members_beginJointConsensus]
    exact hne
  | commitJointConsensus =>
    obtain hrefused | ⟨next, hnext, hmembers⟩ := m.commitJointConsensus_cases
    · simp only [step, act, hrefused]
      exact hne
    · simp only [step, act, hmembers]
      exact m.joint_nonempty next hnext
  | resetMembers members =>
    simp only [step, act, resetMembers]
    split_ifs with hempty
    · exact hne
    · exact hempty

end Membership

theorem create_members_ne_nil {members : List UInt32} :
    (Membership.create members).members ≠ [] ↔ ∃ id ∈ members, id ≠ 0 := by
  constructor
  · intro hne
    obtain ⟨id, hid⟩ := List.exists_mem_of_ne_nil _ hne
    exact ⟨id, mem_normalize.mp hid⟩
  · rintro ⟨id, hid⟩
    exact List.ne_nil_of_mem (mem_normalize.mpr hid)

theorem quorums_intersect_iff (members : List UInt32) :
    (∀ ops, AllStates Membership.step (fun m => Membership.QuorumsIntersect m m) (.create members) ops ∧
        AllSteps Membership.step Membership.ChangeKeepsQuorums (.create members) ops) ↔
      ∃ id ∈ members, id ≠ 0 := by
  rw [← create_members_ne_nil]
  constructor
  · intro h hempty
    have hself := (h []).1.start
    have hnone : (Membership.create members).hasJointMajority ∅ = true := by
      have hmembers : normalize members = [] := hempty
      simp [Membership.hasJointMajority, Membership.create, Membership.hasMajority, hasMajorityFor, hmembers,
        requiredQuorum]
    obtain ⟨node, hnode, -⟩ := hself ∅ ∅ hnone hnone
    exact absurd hnode (Finset.notMem_empty node)
  · intro hne ops
    have hnonempty : AllStates Membership.step (fun m => m.members ≠ []) (.create members) ops := by
      apply allStates_of_step _ (P := fun _ _ => True)
      · exact fun m op h _ => Membership.members_ne_nil_step h op
      · exact hne
      · exact allSteps_of_forall _ fun _ _ => trivial
    exact ⟨hnonempty.mono _ fun m h => Membership.quorumsIntersect_self h,
      hnonempty.allSteps _ fun m op h => Membership.changeKeepsQuorums h op⟩

theorem empty_membership_quorums_disjoint :
    (Membership.create [0]).hasJointMajority {1} = true ∧ (Membership.create [0]).hasJointMajority {2} = true ∧
      ¬ Membership.QuorumsIntersect (.create [0]) (.create [0]) := by
  have hone : (Membership.create [0]).hasJointMajority {1} = true := by decide +kernel
  have htwo : (Membership.create [0]).hasJointMajority {2} = true := by decide +kernel
  refine ⟨hone, htwo, ?_⟩
  intro h
  obtain ⟨node, hnode, hnode'⟩ := h {1} {2} hone htwo
  rw [Finset.mem_singleton] at hnode hnode'
  rw [hnode] at hnode'
  exact absurd hnode' (by decide)

end Tightrope.Sync.Consensus
