import Tightrope.Bridge.PeerEndpoints
import Tightrope.Bridge.RejectedCommands

namespace Tightrope.Bridge

open Bytes Tightrope.Core MachineWords Runs Sync Sync.Discovery

-- What a refresh does to peers and raft members after it has gone over the peers.
inductive PeerChange where
  | reconcile (candidate : SiteIdReconciliation)
  | prune (active : List UInt32)
  | evict (siteId : UInt32)
  deriving DecidableEq

-- A round of the reconciliation loop: the bridge it starts from and its candidate.
structure Reconciliation where
  bridge : Bridge
  candidate : SiteIdReconciliation

def addressOf (b : Bridge) (siteId : UInt32) : Option Bytes := (b.peer? siteId).map hostPortToString

def discovered? (b : Bridge) (siteId : UInt32) : Option PeerEndpoint :=
  b.cluster.bind fun c => (c.peerManager.discoveredPeers.find? siteId).map SeenPeer.endpoint

def ActiveCluster.without (c : ActiveCluster) (siteId : UInt32) : ActiveCluster :=
  c.withPeers (c.peerManager.removePeer siteId).1

/-- A removal takes the peer out: it is a manual one, and raft drops the member now or later. -/
structure ActiveCluster.RemovalTakes (c : ActiveCluster) (replies : ℕ → RaftReply) (siteId : UInt32) : Prop where
  manual : (c.peerManager.manualPeers.find? siteId).isSome = true
  raft : RaftTakes c.raftNode { replies }

/-- A removal makes raft drop the member, whether or not the peer is taken out then. -/
structure ActiveCluster.DropsMember (c : ActiveCluster) (replies : ℕ → RaftReply) (siteId : UInt32) : Prop where
  known : (c.peerManager.endpoint? siteId).isSome = true
  running : c.raftNode.running = true
  applied : membershipChange replies = .ok ()

section Changes

variable (isAddress : Bytes → Bool) (getenv : Bytes → Option Bytes) (call : RefreshCall)

def changePeers (b : Bridge) : PeerChange → Bridge
  | .reconcile candidate => reconcileSiteId isAddress getenv call b candidate
  | .prune active => { b with cluster := b.cluster.map fun c => c.pruneProbes active }
  | .evict siteId => b.evictPeer call siteId

/-- An addition passes the checks that come before its first write. -/
structure ActiveCluster.Admits (c : ActiveCluster) (env : AddPeerEnv) (address : Bytes) (siteId : UInt32)
    (endpoint : PeerEndpoint) : Prop where
  passed : c.admitPeer isAddress getenv env address = .ok (siteId, endpoint)
  nonzero : siteId ≠ 0

/-- An addition passes all the checks, and raft takes the member now or later. -/
structure ActiveCluster.AdditionTakes (c : ActiveCluster) (env : AddPeerEnv) (address : Bytes) (siteId : UInt32)
    (endpoint : PeerEndpoint) : Prop extends c.Admits isAddress getenv env address siteId endpoint where
  routed : (raftEndpointFromSyncEndpoint endpoint siteId).isSome = true
  raft : RaftTakes c.raftNode env

namespace Reconciliation

variable (m : Reconciliation)

def replies : ℕ → RaftReply := call.removeReplies m.candidate.observedSiteId

def env : AddPeerEnv := call.addEnv m.candidate.observedSiteId

def removed : Bridge × Bool := m.bridge.clusterRemovePeer (m.replies call) (decimal m.candidate.observedSiteId.toNat)

def added : Bridge × Bool := (m.removed call).1.clusterAddPeer isAddress getenv (m.env call) m.candidate.address

def result : Bridge := reconcileSiteId isAddress getenv call m.bridge m.candidate

-- Both commands of the round succeed.
def Completes : Prop := (m.removed call).2 = true ∧ (m.added isAddress getenv call).2 = true

/-- The removal takes the peer out, and the addition then comes to its first write. -/
def Readmits (siteId : UInt32) (endpoint : PeerEndpoint) : Prop :=
  ∃ c, m.bridge.cluster = some c ∧ c.RemovalTakes (m.replies call) m.candidate.observedSiteId ∧
    (c.without m.candidate.observedSiteId).Admits isAddress getenv (m.env call) m.candidate.address siteId endpoint

/-- The removal takes the peer out, and the addition takes too. -/
def MovesTo (siteId : UInt32) (endpoint : PeerEndpoint) : Prop :=
  ∃ c, m.bridge.cluster = some c ∧ c.RemovalTakes (m.replies call) m.candidate.observedSiteId ∧
    (c.without m.candidate.observedSiteId).AdditionTakes isAddress getenv (m.env call) m.candidate.address
      siteId endpoint

def TakesOut (siteId : UInt32) : Prop :=
  m.candidate.observedSiteId = siteId ∧ ∃ c, m.bridge.cluster = some c ∧ c.RemovalTakes (m.replies call) siteId

def Joins (siteId : UInt32) (endpoint : PeerEndpoint) : Prop :=
  m.MovesTo isAddress getenv call siteId endpoint ∧ membershipChange (m.env call).replies = .ok ()

def Drops (siteId : UInt32) : Prop :=
  m.candidate.observedSiteId = siteId ∧ ∃ c, m.bridge.cluster = some c ∧ c.DropsMember (m.replies call) siteId

end Reconciliation

-- An eviction that raft applies.
def Evicts (b : Bridge) (other siteId : UInt32) : Prop :=
  other = siteId ∧ b.cluster.isSome = true ∧ call.evictionReply siteId = .applied

/-- The change takes the peer out or writes it anew. -/
def TouchesPeer (siteId : UInt32) (b : Bridge) : PeerChange → Prop
  | .reconcile candidate =>
    Reconciliation.TakesOut call ⟨b, candidate⟩ siteId ∨
      ∃ endpoint, Reconciliation.Readmits isAddress getenv call ⟨b, candidate⟩ siteId endpoint
  | .prune _ => False
  | .evict other => b.Evicts call other siteId

/-- A change that touches the peer adds one at the address, or adds none while discovery knows one there. -/
def LeavesPeer (siteId : UInt32) (address : Bytes) (b : Bridge) : PeerChange → Prop
  | .reconcile candidate =>
    (∃ endpoint, Reconciliation.MovesTo isAddress getenv call ⟨b, candidate⟩ siteId endpoint ∧
        hostPortToString endpoint = address) ∨
      (∀ endpoint, ¬ Reconciliation.MovesTo isAddress getenv call ⟨b, candidate⟩ siteId endpoint) ∧
        (b.discovered? siteId).map hostPortToString = some address
  | .prune _ => False
  | .evict _ => (b.discovered? siteId).map hostPortToString = some address

/-- The change makes raft drop the member or add it. -/
def TouchesMember (siteId : UInt32) (b : Bridge) : PeerChange → Prop
  | .reconcile candidate =>
    Reconciliation.Drops call ⟨b, candidate⟩ siteId ∨
      ∃ endpoint, Reconciliation.Joins isAddress getenv call ⟨b, candidate⟩ siteId endpoint
  | .prune _ => False
  | .evict other => b.Evicts call other siteId

def LeavesMember (siteId : UInt32) (member : Option Bytes) (b : Bridge) : PeerChange → Prop
  | .reconcile candidate =>
    (∃ endpoint, Reconciliation.Joins isAddress getenv call ⟨b, candidate⟩ siteId endpoint ∧
        raftEndpointFromSyncEndpoint endpoint siteId = member) ∨
      (∀ endpoint, ¬ Reconciliation.Joins isAddress getenv call ⟨b, candidate⟩ siteId endpoint) ∧ member = none
  | .prune _ => False
  | .evict _ => member = none

/-- The last change that touches the peer, if any does, leaves it at the address. -/
def Stands (b : Bridge) (changes : List PeerChange) (siteId : UInt32) (address : Bytes) : Prop :=
  LastTouchGood (changePeers isAddress getenv call) (TouchesPeer isAddress getenv call siteId)
    (LeavesPeer isAddress getenv call siteId address) (b.addressOf siteId = some address) b changes

/-- The last change that touches the member, if any does, leaves it as given. -/
def MemberStands (b : Bridge) (changes : List PeerChange) (siteId : UInt32) (member : Option Bytes) : Prop :=
  LastTouchGood (changePeers isAddress getenv call) (TouchesMember isAddress getenv call siteId)
    (LeavesMember isAddress getenv call siteId member) (b.member? siteId = member) b changes

end Changes

section Clusters

variable {b : Bridge} {c : ActiveCluster} {siteId : UInt32}

theorem withCluster_self (h : b.cluster = some c) : b.withCluster c = b := by
  unfold withCluster
  rw [← h]

theorem discovered?_of_cluster (h : b.cluster = some c) :
    b.discovered? siteId = (c.peerManager.discoveredPeers.find? siteId).map SeenPeer.endpoint := by
  rw [discovered?, h, Option.bind_some]

theorem peer?_of_cluster (h : b.cluster = some c) : b.peer? siteId = c.peerManager.endpoint? siteId := by
  rw [peer?, h, Option.bind_some]

theorem member?_of_cluster (h : b.cluster = some c) : b.member? siteId = c.raftNode.members.find? siteId := by
  rw [member?, h, Option.bind_some]

end Clusters

section Removal

variable {b : Bridge} {c c' : ActiveCluster} {replies : ℕ → RaftReply} {siteId other : UInt32}

/-- The checks of an addition see no difference between the two clusters. -/
structure ActiveCluster.SameChecks (c c' : ActiveCluster) : Prop where
  config : c'.config = c.config
  peers : c'.peerManager = c.peerManager
  next : c'.nextPeerSiteId = c.nextPeerSiteId
  running : c'.raftNode.running = c.raftNode.running

/-- What a removal leaves of the raft members. -/
structure ActiveCluster.MembersAfter (c : ActiveCluster) (replies : ℕ → RaftReply) (siteId : UInt32)
    (c' : ActiveCluster) : Prop where
  dropped : c.DropsMember replies siteId → c'.raftNode.members = c.raftNode.members.erase siteId
  kept : ¬ c.DropsMember replies siteId → c'.raftNode.members = c.raftNode.members

theorem parsePositiveU32_decimal (h : siteId ≠ 0) : parsePositiveU32 (decimal siteId.toNat) = some siteId := by
  have hpos : 0 < siteId.toNat := Nat.pos_of_ne_zero fun hzero => h (UInt32.toNat_inj.mp hzero)
  rw [parsePositiveU32, parsePositiveBelow_decimal hpos siteId.toNat_lt, Option.map_some, UInt32.ofNat_toNat]

theorem without_of_absent (h : c.peerManager.manualPeers.find? siteId = none) : c.without siteId = c := by
  have herase : c.peerManager.manualPeers.erase siteId = c.peerManager.manualPeers := by
    apply FlatMap.ext_find?
    intro other
    rw [FlatMap.find?_erase]
    split_ifs with hother
    · rw [hother, h]
    · rfl
  unfold ActiveCluster.without ActiveCluster.withPeers PeerManager.removePeer
  rw [herase]

theorem dropPeer_of_manual (h : (c.peerManager.manualPeers.find? siteId).isSome = true) :
    b.dropPeer c siteId = (b.withCluster ((c.without siteId).forgetProbes siteId)).succeed := by
  unfold dropPeer
  rw [if_neg]
  · rfl
  · change ¬ (c.peerManager.manualPeers.find? siteId).isSome = false
    rw [h]
    exact Bool.noConfusion

theorem dropPeer_of_absent (h : c.peerManager.manualPeers.find? siteId = none) :
    ∃ error, b.dropPeer c siteId = (b.withCluster c).fail error := by
  unfold dropPeer
  rw [if_pos]
  · exact ⟨_, congrArg (fun c => (b.withCluster c).fail _) (without_of_absent h)⟩
  · change (c.peerManager.manualPeers.find? siteId).isSome = false
    rw [h]
    rfl

theorem endpoint?_isSome_of_manual (h : (c.peerManager.manualPeers.find? siteId).isSome = true) :
    (c.peerManager.endpoint? siteId).isSome = true := by
  obtain ⟨peer, hpeer⟩ := Option.isSome_iff_exists.mp h
  rw [endpoint?_eq, hpeer]
  rfl

theorem removed_of_takes (hcluster : b.cluster = some c) (hsite : siteId ≠ 0) (h : c.RemovalTakes replies siteId) :
    ∃ c', b.clusterRemovePeer replies (decimal siteId.toNat) = (b.withCluster c').succeed ∧
      (c.without siteId).SameChecks c' ∧ c.MembersAfter replies siteId c' := by
  have hsome := endpoint?_isSome_of_manual h.manual
  have hknown : ¬ (c.peerManager.endpoint? siteId).isNone = true := by
    rw [← Option.not_isSome, hsome]
    exact Bool.false_ne_true
  have hrunning : ¬ c.raftNode.running = false := by
    rw [h.raft.running]
    exact Bool.noConfusion
  unfold clusterRemovePeer
  simp only [hcluster, parsePositiveU32_decimal hsite, if_neg hknown, if_neg hrunning]
  cases hchange : membershipChange replies with
  | ok =>
    have hdrops : c.DropsMember replies siteId := ⟨hsome, h.raft.running, hchange⟩
    exact ⟨_, dropPeer_of_manual h.manual, ⟨rfl, rfl, rfl, rfl⟩, fun _ => rfl, fun hnot => absurd hdrops hnot⟩
  | error raftError =>
    have hretry : isRetryableMembershipError raftError = true := h.raft.taken raftError hchange
    simp only [if_pos hretry]
    refine ⟨_, dropPeer_of_manual h.manual, ⟨rfl, rfl, rfl, rfl⟩, fun hdrops => ?_, fun _ => rfl⟩
    rw [hdrops.applied] at hchange
    cases hchange

/-- A removal that does not take leaves the peers; raft may have dropped the member. -/
theorem removed_of_refused (hcluster : b.cluster = some c) (hsite : siteId ≠ 0) (h : ¬ c.RemovalTakes replies siteId) :
    ∃ c' error, b.clusterRemovePeer replies (decimal siteId.toNat) = (b.withCluster c').fail error ∧
      c'.peerManager = c.peerManager ∧ c.MembersAfter replies siteId c' := by
  have hunchanged (error : Bytes) (hnot : ¬ c.DropsMember replies siteId) :
      ∃ c' error', b.fail error = (b.withCluster c').fail error' ∧ c'.peerManager = c.peerManager ∧
        c.MembersAfter replies siteId c' :=
    ⟨c, error, by rw [withCluster_self hcluster], rfl, fun hdrops => absurd hdrops hnot, fun _ => rfl⟩
  unfold clusterRemovePeer
  simp only [hcluster, parsePositiveU32_decimal hsite]
  by_cases hknown : (c.peerManager.endpoint? siteId).isNone = true
  · rw [if_pos hknown]
    apply hunchanged
    intro hdrops
    rw [← Option.not_isSome, hdrops.known] at hknown
    cases hknown
  · rw [if_neg hknown]
    by_cases hrunning : c.raftNode.running = false
    · rw [if_pos hrunning]
      apply hunchanged
      intro hdrops
      rw [hdrops.running] at hrunning
      cases hrunning
    · rw [if_neg hrunning]
      have hsome : (c.peerManager.endpoint? siteId).isSome = true := by
        rwa [← Option.not_isNone, Bool.not_eq_true', ← Bool.not_eq_true]
      have habsent (htaken : ∀ error, membershipChange replies = .error error →
          isRetryableMembershipError error = true) : c.peerManager.manualPeers.find? siteId = none := by
        by_contra hmanual
        exact h ⟨Option.isSome_iff_ne_none.mpr hmanual, eq_true_of_ne_false hrunning, htaken⟩
      cases hchange : membershipChange replies with
      | ok =>
        have hdrops : c.DropsMember replies siteId := ⟨hsome, eq_true_of_ne_false hrunning, hchange⟩
        obtain ⟨error, hdrop⟩ := @dropPeer_of_absent b (c.leaveRaft siteId) siteId (habsent fun error herror => by
          rw [hchange] at herror
          cases herror)
        exact ⟨_, error, hdrop, rfl, fun _ => rfl, fun hnot => absurd hdrops hnot⟩
      | error raftError =>
        have hnot : ¬ c.DropsMember replies siteId := fun hdrops => by
          rw [hdrops.applied] at hchange
          cases hchange
        simp only
        split_ifs with hretry
        · obtain ⟨error, hdrop⟩ := @dropPeer_of_absent b c siteId (habsent fun error herror => by
            rw [hchange] at herror
            cases herror
            exact hretry)
          exact ⟨c, error, hdrop, rfl, fun hdrops => absurd hdrops hnot, fun _ => rfl⟩
        · exact hunchanged _ hnot

end Removal

section Addition

variable {isAddress : Bytes → Bool} {getenv : Bytes → Option Bytes} {b : Bridge} {c c' : ActiveCluster}
  {env : AddPeerEnv}
  {address : Bytes} {siteId : UInt32} {endpoint : PeerEndpoint}

theorem admits_congr (h : c.SameChecks c') : c'.Admits isAddress getenv env address siteId endpoint ↔
    c.Admits isAddress getenv env address siteId endpoint := by
  have hsame : c'.admitPeer isAddress getenv env address = c.admitPeer isAddress getenv env address := by
    unfold ActiveCluster.admitPeer ActiveCluster.unusedSiteId
    rw [h.config, h.peers, h.next]
  exact ⟨fun ⟨hpassed, hne⟩ => ⟨hsame ▸ hpassed, hne⟩, fun ⟨hpassed, hne⟩ => ⟨hsame ▸ hpassed, hne⟩⟩

theorem additionTakes_congr (h : c.SameChecks c') : c'.AdditionTakes isAddress getenv env address siteId endpoint ↔
    c.AdditionTakes isAddress getenv env address siteId endpoint :=
  ⟨fun ⟨hadmits, hrouted, hraft⟩ => ⟨(admits_congr h).mp hadmits, hrouted, h.running ▸ hraft.running, hraft.taken⟩,
    fun ⟨hadmits, hrouted, hraft⟩ => ⟨(admits_congr h).mpr hadmits, hrouted, h.running ▸ hraft.running, hraft.taken⟩⟩

theorem ActiveCluster.Admits.unique {other : UInt32} {endpoint' : PeerEndpoint}
    (h : c.Admits isAddress getenv env address siteId endpoint)
    (h' : c.Admits isAddress getenv env address other endpoint') : siteId = other ∧ endpoint = endpoint' :=
  Prod.mk.inj (Except.ok.inj (h.passed.symm.trans h'.passed))

theorem addManualPeer_of_admits (h : c.Admits isAddress getenv env address siteId endpoint) :
    c.peerManager.addManualPeer isAddress siteId endpoint env.nowMs =
      ({ c.peerManager with manualPeers := c.peerManager.manualPeers.insert siteId ⟨endpoint, env.nowMs⟩ }, true) := by
  rw [PeerManager.addManualPeer, if_neg]
  rw [isValid_of_admitPeer h.passed]
  exact not_or.mpr ⟨h.nonzero, Bool.noConfusion⟩

theorem proposePeer_taken (h : (b.proposePeer c env address siteId endpoint).2 = true) :
    (raftEndpointFromSyncEndpoint endpoint siteId).isSome = true ∧ RaftTakes c.raftNode env := by
  unfold proposePeer at h
  by_cases hrunning : c.raftNode.running = false
  · simp only [if_pos hrunning] at h
    cases h
  · simp only [if_neg hrunning] at h
    cases hraft : raftEndpointFromSyncEndpoint endpoint siteId with
    | none =>
      rw [hraft] at h
      cases h
    | some raftEndpoint =>
      refine ⟨rfl, eq_true_of_ne_false hrunning, fun error herror => ?_⟩
      simp only [hraft, herror] at h
      by_contra hretry
      rw [if_neg hretry] at h
      cases h

theorem clusterAddPeer_of_takes (hcluster : b.cluster = some c)
    (h : c.AdditionTakes isAddress getenv env address siteId endpoint) :
    ∃ c', b.clusterAddPeer isAddress getenv env address = (b.withCluster c').succeed ∧
      c'.peerManager =
        { c.peerManager with manualPeers := c.peerManager.manualPeers.insert siteId ⟨endpoint, env.nowMs⟩ } ∧
      (membershipChange env.replies = .ok () → ∃ raftEndpoint,
        raftEndpointFromSyncEndpoint endpoint siteId = some raftEndpoint ∧
          c'.raftNode.members = c.raftNode.members.insert siteId raftEndpoint) ∧
      (membershipChange env.replies ≠ .ok () → c'.raftNode.members = c.raftNode.members) := by
  obtain ⟨raftEndpoint, hraft⟩ := Option.isSome_iff_exists.mp h.routed
  have hrunning : ¬ c.raftNode.running = false := by
    rw [h.raft.running]
    exact Bool.noConfusion
  unfold clusterAddPeer
  simp only [hcluster, h.passed, addManualPeer_of_admits h.toAdmits, Bool.true_eq_false, if_false]
  unfold proposePeer
  simp only [ActiveCluster.withPeers, if_neg hrunning, hraft]
  cases hchange : membershipChange env.replies with
  | ok => exact ⟨_, rfl, rfl, fun _ => ⟨raftEndpoint, rfl, rfl⟩, fun hnot => absurd rfl hnot⟩
  | error raftError =>
    simp only [if_pos (h.raft.taken raftError hchange)]
    exact ⟨_, rfl, rfl, nofun, fun _ => rfl⟩

/-- An addition that fails after its first write takes a manual peer with that id out. -/
theorem clusterAddPeer_of_withdrawn (hcluster : b.cluster = some c)
    (h : c.Admits isAddress getenv env address siteId endpoint)
    (hnot : ¬ c.AdditionTakes isAddress getenv env address siteId endpoint) :
    ∃ error, b.clusterAddPeer isAddress getenv env address = (b.withCluster (c.without siteId)).fail error := by
  have hadded := addManualPeer_of_admits h
  have htaken : (c.peerManager.addManualPeer isAddress siteId endpoint env.nowMs).2 = true := by rw [hadded]
  have hremoved := removePeer_addManualPeer htaken
  have hrejected : (b.proposePeer (c.withPeers (c.peerManager.addManualPeer isAddress siteId endpoint env.nowMs).1) env
      address siteId endpoint).2 = false := by
    rw [← Bool.not_eq_true]
    intro haccepted
    obtain ⟨hrouted, hraft⟩ := proposePeer_taken haccepted
    exact hnot ⟨h, hrouted, hraft⟩
  obtain ⟨error, hresult⟩ := proposePeer_rejected hrejected
  refine ⟨error, ?_⟩
  unfold clusterAddPeer
  simp only [hcluster, h.passed, htaken, Bool.true_eq_false, if_false]
  rw [hresult]
  exact congrArg (fun peers => (b.withCluster (c.withPeers peers)).fail error) hremoved

theorem clusterAddPeer_of_unadmitted (hcluster : b.cluster = some c)
    (h : ∀ siteId endpoint, ¬ c.Admits isAddress getenv env address siteId endpoint) :
    ∃ error, b.clusterAddPeer isAddress getenv env address = b.fail error := by
  unfold clusterAddPeer
  simp only [hcluster]
  cases hpassed : c.admitPeer isAddress getenv env address with
  | error error => exact ⟨error, rfl⟩
  | ok admitted =>
    obtain ⟨siteId, endpoint⟩ := admitted
    have hzero : siteId = 0 := by
      by_contra hne
      exact h siteId endpoint ⟨hpassed, hne⟩
    have hrejected : (c.peerManager.addManualPeer isAddress siteId endpoint env.nowMs).2 = false := by
      rw [PeerManager.addManualPeer, if_pos (.inl hzero)]
    simp only [if_pos hrejected]
    exact ⟨_, rfl⟩

theorem peer?_of_withdrawn (hcluster : b.cluster = some c)
    (h : c.Admits isAddress getenv env address siteId endpoint)
    (hnot : ¬ c.AdditionTakes isAddress getenv env address siteId endpoint) :
    (b.clusterAddPeer isAddress getenv env address).1.peer? siteId =
      (c.peerManager.discoveredPeers.find? siteId).map SeenPeer.endpoint := by
  obtain ⟨error, hresult⟩ := clusterAddPeer_of_withdrawn hcluster h hnot
  rw [hresult]
  exact endpoint?_removePeer.trans (if_pos rfl)

theorem peer?_of_unadmitted (hcluster : b.cluster = some c)
    (h : ∀ endpoint, ¬ c.Admits isAddress getenv env address siteId endpoint) :
    (b.clusterAddPeer isAddress getenv env address).1.peer? siteId = c.peerManager.endpoint? siteId := by
  by_cases hadmits : ∃ other endpoint, c.Admits isAddress getenv env address other endpoint
  · obtain ⟨other, endpoint, hadmits⟩ := hadmits
    have hne : siteId ≠ other := fun heq => h endpoint (heq ▸ hadmits)
    by_cases htakes : c.AdditionTakes isAddress getenv env address other endpoint
    · obtain ⟨c', hresult, hpeers, -⟩ := clusterAddPeer_of_takes hcluster htakes
      rw [hresult]
      change c'.peerManager.endpoint? siteId = _
      rw [hpeers, endpoint?_eq, endpoint?_eq, FlatMap.find?_insert, if_neg hne]
    · obtain ⟨error, hresult⟩ := clusterAddPeer_of_withdrawn hcluster hadmits htakes
      rw [hresult]
      exact endpoint?_removePeer.trans (if_neg hne)
  · obtain ⟨error, hresult⟩ := clusterAddPeer_of_unadmitted hcluster fun other endpoint hadmitted =>
      hadmits ⟨other, endpoint, hadmitted⟩
    rw [hresult]
    exact peer?_of_cluster hcluster

theorem member?_of_joined (hcluster : b.cluster = some c)
    (h : c.AdditionTakes isAddress getenv env address siteId endpoint) (hok : membershipChange env.replies = .ok ()) :
    (b.clusterAddPeer isAddress getenv env address).1.member? siteId =
      raftEndpointFromSyncEndpoint endpoint siteId := by
  obtain ⟨c', hresult, -, hjoined, -⟩ := clusterAddPeer_of_takes hcluster h
  obtain ⟨raftEndpoint, hraft, hmembers⟩ := hjoined hok
  rw [hresult, hraft]
  change c'.raftNode.members.find? siteId = _
  rw [hmembers, FlatMap.find?_insert, if_pos rfl]

theorem member?_of_not_joined (hcluster : b.cluster = some c)
    (h : ∀ endpoint, c.AdditionTakes isAddress getenv env address siteId endpoint →
      membershipChange env.replies ≠ .ok ()) :
    (b.clusterAddPeer isAddress getenv env address).1.member? siteId = c.raftNode.members.find? siteId := by
  by_cases hadmits : ∃ other endpoint, c.Admits isAddress getenv env address other endpoint
  · obtain ⟨other, endpoint, hadmits⟩ := hadmits
    by_cases htakes : c.AdditionTakes isAddress getenv env address other endpoint
    · obtain ⟨c', hresult, -, hjoined, hpending⟩ := clusterAddPeer_of_takes hcluster htakes
      rw [hresult]
      change c'.raftNode.members.find? siteId = _
      by_cases hok : membershipChange env.replies = .ok ()
      · obtain ⟨raftEndpoint, -, hmembers⟩ := hjoined hok
        have hne : siteId ≠ other := fun heq => h endpoint (heq ▸ htakes) hok
        rw [hmembers, FlatMap.find?_insert, if_neg hne]
      · rw [hpending hok]
    · obtain ⟨error, hresult⟩ := clusterAddPeer_of_withdrawn hcluster hadmits htakes
      rw [hresult]
      rfl
  · obtain ⟨error, hresult⟩ := clusterAddPeer_of_unadmitted hcluster fun other endpoint hadmitted =>
      hadmits ⟨other, endpoint, hadmitted⟩
    rw [hresult]
    exact member?_of_cluster hcluster

end Addition

section Rounds

variable {isAddress : Bytes → Bool} {getenv : Bytes → Option Bytes} {call : RefreshCall} {m : Reconciliation}
  {c : ActiveCluster} {siteId : UInt32} {endpoint : PeerEndpoint}

theorem removed_of_disabled (h : m.bridge.cluster = none) :
    m.removed call = m.bridge.fail (ofString "cluster is not enabled") := by
  rw [Reconciliation.removed, clusterRemovePeer, h]

namespace Reconciliation

theorem result_of_removed (h : (m.removed call).2 = true) :
    m.result isAddress getenv call = (m.added isAddress getenv call).1 :=
  if_pos h

theorem result_of_not_removed (h : (m.removed call).2 = false) :
    m.result isAddress getenv call = (m.removed call).1 :=
  if_neg (Bool.eq_false_iff.mp h)

/-- The addition of a round meets the cluster without the peer. -/
theorem removal_of_takes (hcluster : m.bridge.cluster = some c) (hsite : m.candidate.observedSiteId ≠ 0)
    (h : c.RemovalTakes (m.replies call) m.candidate.observedSiteId) :
    ∃ c', (m.removed call).2 = true ∧ (m.removed call).1.cluster = some c' ∧
      (c.without m.candidate.observedSiteId).SameChecks c' ∧
        c.MembersAfter (m.replies call) m.candidate.observedSiteId c' := by
  obtain ⟨c', hremoved, hsame, hmembers⟩ := removed_of_takes hcluster hsite h
  refine ⟨c', ?_, ?_, hsame, hmembers⟩
  · rw [removed, hremoved]
    rfl
  · rw [removed, hremoved]
    rfl

theorem removal_of_refused (hcluster : m.bridge.cluster = some c) (hsite : m.candidate.observedSiteId ≠ 0)
    (h : ¬ c.RemovalTakes (m.replies call) m.candidate.observedSiteId) :
    ∃ c', (m.removed call).2 = false ∧ (m.removed call).1.cluster = some c' ∧ c'.peerManager = c.peerManager ∧
      c.MembersAfter (m.replies call) m.candidate.observedSiteId c' := by
  obtain ⟨c', error, hremoved, hpeers, hmembers⟩ := removed_of_refused hcluster hsite h
  refine ⟨c', ?_, ?_, hpeers, hmembers⟩
  · rw [removed, hremoved]
    rfl
  · rw [removed, hremoved]
    rfl

theorem completes_of_movesTo (hsite : m.candidate.observedSiteId ≠ 0)
    (h : m.MovesTo isAddress getenv call siteId endpoint) :
    m.Completes isAddress getenv call ∧
      (∃ c', (m.removed call).1.cluster = some c' ∧
        c'.admitPeer isAddress getenv (m.env call) m.candidate.address = .ok (siteId, endpoint)) ∧
      (m.result isAddress getenv call).peer? siteId = some endpoint := by
  obtain ⟨c, hcluster, hremoval, haddition⟩ := h
  obtain ⟨c', hremoved, hleft, hsame, -⟩ := removal_of_takes hcluster hsite hremoval
  have htakes := (additionTakes_congr hsame).mpr haddition
  obtain ⟨c'', hadded, hpeers, -⟩ := clusterAddPeer_of_takes hleft htakes
  refine ⟨⟨hremoved, ?_⟩, ⟨c', hleft, htakes.passed⟩, ?_⟩
  · rw [added, hadded]
    rfl
  · rw [result_of_removed hremoved, added, hadded]
    change c''.peerManager.endpoint? siteId = some endpoint
    rw [hpeers, endpoint?_eq, FlatMap.find?_insert, if_pos rfl]
    rfl

theorem exists_movesTo (hsite : m.candidate.observedSiteId ≠ 0) (h : m.Completes isAddress getenv call) :
    ∃ siteId endpoint, m.MovesTo isAddress getenv call siteId endpoint := by
  obtain ⟨hremoved, hadded⟩ := h
  cases hcluster : m.bridge.cluster with
  | none =>
    rw [removed_of_disabled hcluster] at hremoved
    cases hremoved
  | some c =>
    by_cases hremoval : c.RemovalTakes (m.replies call) m.candidate.observedSiteId
    · obtain ⟨c', -, hleft, hsame, -⟩ := removal_of_takes hcluster hsite hremoval
      by_contra hnone
      have hrefused (siteId : UInt32) (endpoint : PeerEndpoint) :
          ¬ c'.AdditionTakes isAddress getenv (m.env call) m.candidate.address siteId endpoint := fun htakes =>
        hnone ⟨siteId, endpoint, c, hcluster, hremoval, (additionTakes_congr hsame).mp htakes⟩
      by_cases hadmits : ∃ siteId endpoint,
          c'.Admits isAddress getenv (m.env call) m.candidate.address siteId endpoint
      · obtain ⟨siteId, endpoint, hadmits⟩ := hadmits
        obtain ⟨error, hresult⟩ := clusterAddPeer_of_withdrawn hleft hadmits (hrefused siteId endpoint)
        rw [added, hresult] at hadded
        cases hadded
      · obtain ⟨error, hresult⟩ := clusterAddPeer_of_unadmitted hleft fun siteId endpoint hadmitted =>
          hadmits ⟨siteId, endpoint, hadmitted⟩
        rw [added, hresult] at hadded
        cases hadded
    · obtain ⟨c', hnot, -⟩ := removal_of_refused hcluster hsite hremoval
      rw [hnot] at hremoved
      cases hremoved

theorem MovesTo.unique {endpoint' : PeerEndpoint} (h : m.MovesTo isAddress getenv call siteId endpoint)
    (h' : m.MovesTo isAddress getenv call siteId endpoint') : endpoint = endpoint' := by
  obtain ⟨c, hcluster, -, haddition⟩ := h
  obtain ⟨c', hcluster', -, haddition'⟩ := h'
  obtain rfl := Option.some.inj (hcluster.symm.trans hcluster')
  exact (haddition.toAdmits.unique haddition'.toAdmits).2

theorem completes_iff (hsite : m.candidate.observedSiteId ≠ 0) :
    m.Completes isAddress getenv call ↔ ∃ siteId endpoint, m.MovesTo isAddress getenv call siteId endpoint :=
  ⟨exists_movesTo hsite, fun ⟨_, _, hmoves⟩ => (completes_of_movesTo hsite hmoves).1⟩

/-- What the removal leaves under a site id. -/
theorem removed_effect (hcluster : m.bridge.cluster = some c) (hsite : m.candidate.observedSiteId ≠ 0) :
    ∃ c', (m.removed call).1.cluster = some c' ∧
      (m.TakesOut call siteId → c'.peerManager.endpoint? siteId = m.bridge.discovered? siteId) ∧
      (¬ m.TakesOut call siteId → c'.peerManager.endpoint? siteId = m.bridge.peer? siteId) ∧
      c'.peerManager.discoveredPeers = c.peerManager.discoveredPeers ∧
      (m.Drops call siteId → c'.raftNode.members.find? siteId = none) ∧
      (¬ m.Drops call siteId → c'.raftNode.members.find? siteId = m.bridge.member? siteId) := by
  have hmember (c' : ActiveCluster) (h : c.MembersAfter (m.replies call) m.candidate.observedSiteId c') :
      (m.Drops call siteId → c'.raftNode.members.find? siteId = none) ∧
        (¬ m.Drops call siteId → c'.raftNode.members.find? siteId = m.bridge.member? siteId) := by
    constructor
    · rintro ⟨rfl, c'', hc, hdrops⟩
      obtain rfl := Option.some.inj (hcluster.symm.trans hc)
      rw [h.dropped hdrops, FlatMap.find?_erase, if_pos rfl]
    · intro hnot
      rw [member?_of_cluster hcluster]
      by_cases hdrops : c.DropsMember (m.replies call) m.candidate.observedSiteId
      · have hne : siteId ≠ m.candidate.observedSiteId := fun heq => hnot ⟨heq.symm, c, hcluster, heq ▸ hdrops⟩
        rw [h.dropped hdrops, FlatMap.find?_erase, if_neg hne]
      · rw [h.kept hdrops]
  by_cases hremoval : c.RemovalTakes (m.replies call) m.candidate.observedSiteId
  · obtain ⟨c', -, hleft, hsame, hmembers⟩ := removal_of_takes hcluster hsite hremoval
    refine ⟨c', hleft, ?_, ?_, ?_, hmember c' hmembers⟩
    · rintro ⟨rfl, -⟩
      rw [hsame.peers, discovered?_of_cluster hcluster]
      exact endpoint?_removePeer.trans (if_pos rfl)
    · intro hnot
      have hne : siteId ≠ m.candidate.observedSiteId := fun heq => hnot ⟨heq.symm, c, hcluster, heq ▸ hremoval⟩
      rw [hsame.peers, peer?_of_cluster hcluster]
      exact endpoint?_removePeer.trans (if_neg hne)
    · rw [hsame.peers]
      rfl
  · obtain ⟨c', -, hleft, hpeers, hmembers⟩ := removal_of_refused hcluster hsite hremoval
    refine ⟨c', hleft, ?_, ?_, by rw [hpeers], hmember c' hmembers⟩
    · rintro ⟨rfl, c'', hc, htakes⟩
      obtain rfl := Option.some.inj (hcluster.symm.trans hc)
      exact absurd htakes hremoval
    · intro _
      rw [hpeers, peer?_of_cluster hcluster]

theorem peer?_result_of_movesTo (hsite : m.candidate.observedSiteId ≠ 0)
    (h : m.MovesTo isAddress getenv call siteId endpoint) :
    (m.result isAddress getenv call).peer? siteId = some endpoint :=
  (completes_of_movesTo hsite h).2.2

theorem peer?_result_of_touched (hsite : m.candidate.observedSiteId ≠ 0)
    (h : m.TakesOut call siteId ∨ ∃ endpoint, m.Readmits isAddress getenv call siteId endpoint)
    (hnot : ∀ endpoint, ¬ m.MovesTo isAddress getenv call siteId endpoint) :
    (m.result isAddress getenv call).peer? siteId = m.bridge.discovered? siteId := by
  have htaken : ∃ c, m.bridge.cluster = some c ∧ c.RemovalTakes (m.replies call) m.candidate.observedSiteId := by
    obtain ⟨rfl, htaken⟩ | ⟨endpoint, c, hcluster, htakes, -⟩ := h
    · exact htaken
    · exact ⟨c, hcluster, htakes⟩
  obtain ⟨c, hcluster, htakes⟩ := htaken
  obtain ⟨c', hremoved, hleft, hsame, -⟩ := removal_of_takes hcluster hsite htakes
  obtain ⟨c'', hleft', htaken, -, hdiscovered, -⟩ := @removed_effect call m c siteId hcluster hsite
  obtain rfl := Option.some.inj (hleft.symm.trans hleft')
  rw [result_of_removed hremoved, added]
  by_cases hadmits : ∃ endpoint, c'.Admits isAddress getenv (m.env call) m.candidate.address siteId endpoint
  · obtain ⟨endpoint, hadmits⟩ := hadmits
    rw [peer?_of_withdrawn hleft hadmits, hdiscovered, discovered?_of_cluster hcluster]
    intro htakes'
    exact hnot endpoint ⟨c, hcluster, htakes, (additionTakes_congr hsame).mp htakes'⟩
  · rw [peer?_of_unadmitted hleft fun endpoint hadmitted => hadmits ⟨endpoint, hadmitted⟩, htaken]
    obtain hout | ⟨endpoint, c'', hc, -, hadmitted⟩ := h
    · exact hout
    · obtain rfl := Option.some.inj (hcluster.symm.trans hc)
      exact absurd ⟨endpoint, (admits_congr hsame).mpr hadmitted⟩ hadmits

theorem peer?_result_of_kept (hsite : m.candidate.observedSiteId ≠ 0) (hout : ¬ m.TakesOut call siteId)
    (hnot : ∀ endpoint, ¬ m.Readmits isAddress getenv call siteId endpoint) :
    (m.result isAddress getenv call).peer? siteId = m.bridge.peer? siteId := by
  cases hcluster : m.bridge.cluster with
  | none =>
    have hremoved := @removed_of_disabled call m hcluster
    have hrefused : (m.removed call).2 = false := by
      rw [hremoved]
      rfl
    rw [result_of_not_removed hrefused, hremoved]
    rfl
  | some c =>
    obtain ⟨c', hleft, -, hpeer, -⟩ := @removed_effect call m c siteId hcluster hsite
    by_cases htakes : c.RemovalTakes (m.replies call) m.candidate.observedSiteId
    · obtain ⟨c'', hremoved, hleft', hsame, -⟩ := removal_of_takes hcluster hsite htakes
      obtain rfl := Option.some.inj (hleft.symm.trans hleft')
      rw [result_of_removed hremoved, added, peer?_of_unadmitted hleft, hpeer hout]
      intro endpoint hadmitted
      exact hnot endpoint ⟨c, hcluster, htakes, (admits_congr hsame).mp hadmitted⟩
    · obtain ⟨-, hremoved, -⟩ := removal_of_refused hcluster hsite htakes
      rw [result_of_not_removed hremoved, peer?_of_cluster hleft, hpeer hout]

theorem member?_result_of_joins (hsite : m.candidate.observedSiteId ≠ 0)
    (h : m.Joins isAddress getenv call siteId endpoint) :
    (m.result isAddress getenv call).member? siteId = raftEndpointFromSyncEndpoint endpoint siteId := by
  obtain ⟨⟨c, hcluster, hremoval, haddition⟩, hok⟩ := h
  obtain ⟨c', hremoved, hleft, hsame, -⟩ := removal_of_takes hcluster hsite hremoval
  rw [result_of_removed hremoved, added, member?_of_joined hleft ((additionTakes_congr hsame).mpr haddition) hok]

/-- What raft has under a site id that no member joins under is what the removal leaves there. -/
theorem member?_result_of_not_joined (hsite : m.candidate.observedSiteId ≠ 0) (hcluster : m.bridge.cluster = some c)
    (hnot : ∀ endpoint, ¬ m.Joins isAddress getenv call siteId endpoint) :
    (m.result isAddress getenv call).member? siteId = (m.removed call).1.member? siteId := by
  by_cases htakes : c.RemovalTakes (m.replies call) m.candidate.observedSiteId
  · obtain ⟨c', hremoved, hleft, hsame, -⟩ := removal_of_takes hcluster hsite htakes
    rw [result_of_removed hremoved, added, member?_of_not_joined hleft, member?_of_cluster hleft]
    intro endpoint haddition hok
    exact hnot endpoint ⟨⟨c, hcluster, htakes, (additionTakes_congr hsame).mp haddition⟩, hok⟩
  · obtain ⟨-, hremoved, -⟩ := removal_of_refused hcluster hsite htakes
    rw [result_of_not_removed hremoved]

theorem member?_result_of_dropped (hsite : m.candidate.observedSiteId ≠ 0) (h : m.Drops call siteId)
    (hnot : ∀ endpoint, ¬ m.Joins isAddress getenv call siteId endpoint) :
    (m.result isAddress getenv call).member? siteId = none := by
  obtain ⟨c, hcluster, -⟩ := h.2
  obtain ⟨c', hleft, -, -, -, hdropped, -⟩ := @removed_effect call m c siteId hcluster hsite
  rw [member?_result_of_not_joined hsite hcluster hnot, member?_of_cluster hleft, hdropped h]

theorem member?_result_of_kept (hsite : m.candidate.observedSiteId ≠ 0) (h : ¬ m.Drops call siteId)
    (hnot : ∀ endpoint, ¬ m.Joins isAddress getenv call siteId endpoint) :
    (m.result isAddress getenv call).member? siteId = m.bridge.member? siteId := by
  cases hcluster : m.bridge.cluster with
  | none =>
    have hremoved := @removed_of_disabled call m hcluster
    have hrefused : (m.removed call).2 = false := by
      rw [hremoved]
      rfl
    rw [result_of_not_removed hrefused, hremoved]
    rfl
  | some c =>
    obtain ⟨c', hleft, -, -, -, -, hkept⟩ := @removed_effect call m c siteId hcluster hsite
    rw [member?_result_of_not_joined hsite hcluster hnot, member?_of_cluster hleft, hkept h]

end Reconciliation

end Rounds

section Steps

variable {isAddress : Bytes → Bool} {getenv : Bytes → Option Bytes} {call : RefreshCall} {b : Bridge} {siteId : UInt32}
  {address : Bytes} {change : PeerChange}

/-- The site id that a reconciliation looks at is not 0. -/
def PeerChange.Named : PeerChange → Prop
  | .reconcile candidate => candidate.observedSiteId ≠ 0
  | _ => True

theorem evictPeer_of_evicts (h : b.Evicts call siteId siteId) :
    (b.evictPeer call siteId).peer? siteId = b.discovered? siteId ∧
      (b.evictPeer call siteId).member? siteId = none := by
  obtain ⟨-, hsome, happlied⟩ := h
  obtain ⟨c, hcluster⟩ := Option.isSome_iff_exists.mp hsome
  unfold evictPeer
  simp only [hcluster, happlied]
  constructor
  · rw [discovered?_of_cluster hcluster]
    exact endpoint?_removePeer.trans (if_pos rfl)
  · change (c.raftNode.members.erase siteId).find? siteId = none
    rw [FlatMap.find?_erase, if_pos rfl]

theorem evictPeer_of_kept {other : UInt32} (h : ¬ b.Evicts call other siteId) :
    (b.evictPeer call other).peer? siteId = b.peer? siteId ∧
      (b.evictPeer call other).member? siteId = b.member? siteId := by
  unfold evictPeer
  split
  · rename_i c hcluster happlied
    have hne : siteId ≠ other := by
      rintro rfl
      exact h ⟨rfl, by rw [hcluster]; rfl, happlied⟩
    constructor
    · rw [peer?_of_cluster hcluster]
      exact endpoint?_removePeer.trans (if_neg hne)
    · rw [member?_of_cluster hcluster]
      change (c.raftNode.members.erase other).find? siteId = _
      rw [FlatMap.find?_erase, if_neg hne]
  · exact ⟨rfl, rfl⟩

theorem addressOf_change_of_touched (hnamed : change.Named)
    (h : TouchesPeer isAddress getenv call siteId b change) :
    (changePeers isAddress getenv call b change).addressOf siteId = some address ↔
      LeavesPeer isAddress getenv call siteId address b change := by
  cases change with
  | reconcile candidate =>
    have hsite : (⟨b, candidate⟩ : Reconciliation).candidate.observedSiteId ≠ 0 := hnamed
    change ((Reconciliation.result isAddress getenv call ⟨b, candidate⟩).peer? siteId).map hostPortToString = _ ↔ _
    by_cases hmoves : ∃ endpoint, Reconciliation.MovesTo isAddress getenv call ⟨b, candidate⟩ siteId endpoint
    · obtain ⟨endpoint, hmoves⟩ := hmoves
      rw [Reconciliation.peer?_result_of_movesTo hsite hmoves, Option.map_some, Option.some.injEq]
      constructor
      · exact fun haddress => .inl ⟨endpoint, hmoves, haddress⟩
      · rintro (⟨endpoint', hmoves', haddress⟩ | ⟨hnone, -⟩)
        · rw [hmoves.unique hmoves', haddress]
        · exact absurd hmoves (hnone endpoint)
    · have hnone (endpoint : PeerEndpoint) := fun hmove => hmoves ⟨endpoint, hmove⟩
      rw [Reconciliation.peer?_result_of_touched hsite h hnone]
      constructor
      · exact fun haddress => .inr ⟨hnone, haddress⟩
      · rintro (hmove | ⟨-, haddress⟩)
        · exact absurd (hmove.imp fun _ h => h.1) hmoves
        · exact haddress
  | prune active => exact h.elim
  | evict other =>
    obtain rfl := h.1
    change ((b.evictPeer call other).peer? other).map hostPortToString = _ ↔ _
    rw [(evictPeer_of_evicts h).1]
    rfl

theorem addressOf_change_of_kept (hnamed : change.Named)
    (h : ¬ TouchesPeer isAddress getenv call siteId b change) :
    (changePeers isAddress getenv call b change).addressOf siteId = b.addressOf siteId := by
  cases change with
  | reconcile candidate =>
    have hsite : (⟨b, candidate⟩ : Reconciliation).candidate.observedSiteId ≠ 0 := hnamed
    obtain ⟨hout, hnot⟩ := not_or.mp h
    exact congrArg (Option.map hostPortToString)
      (Reconciliation.peer?_result_of_kept hsite hout fun endpoint hadmits => hnot ⟨endpoint, hadmits⟩)
  | prune active =>
    unfold changePeers addressOf peer?
    cases b.cluster <;> rfl
  | evict other => exact congrArg (Option.map hostPortToString) (evictPeer_of_kept h).1

theorem member?_change_of_touched {member : Option Bytes} (hnamed : change.Named)
    (h : TouchesMember isAddress getenv call siteId b change) :
    (changePeers isAddress getenv call b change).member? siteId = member ↔
      LeavesMember isAddress getenv call siteId member b change := by
  cases change with
  | reconcile candidate =>
    have hsite : (⟨b, candidate⟩ : Reconciliation).candidate.observedSiteId ≠ 0 := hnamed
    change (Reconciliation.result isAddress getenv call ⟨b, candidate⟩).member? siteId = _ ↔ _
    by_cases hjoins : ∃ endpoint, Reconciliation.Joins isAddress getenv call ⟨b, candidate⟩ siteId endpoint
    · obtain ⟨endpoint, hjoins⟩ := hjoins
      rw [Reconciliation.member?_result_of_joins hsite hjoins]
      constructor
      · exact fun hmember => .inl ⟨endpoint, hjoins, hmember⟩
      · rintro (⟨endpoint', hjoins', hmember⟩ | ⟨hnone, -⟩)
        · rw [hjoins.1.unique hjoins'.1, hmember]
        · exact absurd hjoins (hnone endpoint)
    · have hnone (endpoint : PeerEndpoint) := fun hjoin => hjoins ⟨endpoint, hjoin⟩
      rw [Reconciliation.member?_result_of_dropped hsite (h.resolve_right hjoins) hnone, eq_comm]
      constructor
      · exact fun hmember => .inr ⟨hnone, hmember⟩
      · rintro (hjoin | ⟨-, hmember⟩)
        · exact absurd (hjoin.imp fun _ h => h.1) hjoins
        · exact hmember
  | prune active => exact h.elim
  | evict other =>
    obtain rfl := h.1
    change (b.evictPeer call other).member? other = _ ↔ member = none
    rw [(evictPeer_of_evicts h).2, eq_comm]

theorem member?_change_of_kept (hnamed : change.Named)
    (h : ¬ TouchesMember isAddress getenv call siteId b change) :
    (changePeers isAddress getenv call b change).member? siteId = b.member? siteId := by
  cases change with
  | reconcile candidate =>
    have hsite : (⟨b, candidate⟩ : Reconciliation).candidate.observedSiteId ≠ 0 := hnamed
    obtain ⟨hdrops, hnot⟩ := not_or.mp h
    exact Reconciliation.member?_result_of_kept hsite hdrops fun endpoint hjoins => hnot ⟨endpoint, hjoins⟩
  | prune active =>
    unfold changePeers member?
    cases b.cluster <;> rfl
  | evict other => exact (evictPeer_of_kept h).2

/-- Over a list of changes the last one that touches the peer decides. -/
theorem addressOf_run_iff {changes : List PeerChange} (hnamed : ∀ change ∈ changes, change.Named) :
    (run (changePeers isAddress getenv call) b changes).addressOf siteId = some address ↔
      b.Stands isAddress getenv call changes siteId address :=
  @final_iff_lastTouchGood _ _ _ _ _ (fun b => b.addressOf siteId = some address) changes
    (fun _ change hmem h => addressOf_change_of_touched (hnamed change hmem) h)
    (fun _ change hmem h => by rw [addressOf_change_of_kept (hnamed change hmem) h]) b

theorem member?_run_iff {changes : List PeerChange} {member : Option Bytes}
    (hnamed : ∀ change ∈ changes, change.Named) :
    (run (changePeers isAddress getenv call) b changes).member? siteId = member ↔
      b.MemberStands isAddress getenv call changes siteId member :=
  @final_iff_lastTouchGood _ _ _ _ _ (fun b => b.member? siteId = member) changes
    (fun _ change hmem h => member?_change_of_touched (hnamed change hmem) h)
    (fun _ change hmem h => by rw [member?_change_of_kept (hnamed change hmem) h]) b

end Steps

end Tightrope.Bridge
