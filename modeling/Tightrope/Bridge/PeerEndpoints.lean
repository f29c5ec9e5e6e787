import Tightrope.Bridge.ClusterInvariants
import Tightrope.Library.Runs

namespace Tightrope.Bridge

open Bytes Tightrope.Core MachineWords Runs Sync Sync.Discovery

def SeparateEndpoints (peers : FlatMap UInt32 SeenPeer) : Prop :=
  ∀ siteId other peer peer', peers.find? siteId = some peer → peers.find? other = some peer' →
    peer.endpoint = peer'.endpoint → siteId = other

/-- No two manual peers have the same endpoint. -/
def ActiveCluster.OneSiteEach (c : ActiveCluster) : Prop := SeparateEndpoints c.peerManager.manualPeers

def OneSiteEach (b : Bridge) : Prop := Throughout ActiveCluster.OneSiteEach b

structure ActiveCluster.Unclaimed (c : ActiveCluster) (siteId : UInt32) : Prop where
  remote : siteId ≠ c.config.siteId
  unknown : ∀ peer ∈ c.peerManager.membershipProposals, peer.siteId ≠ siteId
  noMember : c.raftNode.members.find? siteId = none

def AddPeerEnv.answer (env : AddPeerEnv) : Option UInt32 := env.probe.remoteSiteId.filter fun _ => env.probe.ok

def ActiveCluster.usedSiteIds (c : ActiveCluster) : List UInt32 :=
  c.config.siteId :: c.peerManager.membershipProposals.map PeerRecord.siteId

section Definitions

variable (isAddress : Bytes → Bool) (getenv : Bytes → Option Bytes)

def AddCall.AllocatesUnclaimed (add : AddCall) : Prop :=
  ∀ c siteId endpoint, add.bridge.cluster = some c → add.env.answer = none →
    c.admitPeer isAddress getenv add.env add.address = .ok (siteId, endpoint) → c.Unclaimed siteId

structure AddCall.Admitted (add : AddCall) (c : ActiveCluster) : Prop where
  secret : c.config.requireHandshakeAuth = true ∧ c.config.clusterSharedSecret ≠ []
  probed : add.env.probe.ok = true ∨ shouldProbePeerOnAdd getenv = false

structure AddCall.Proceeds (add : AddCall) (c : ActiveCluster) : Prop extends add.Admitted getenv c where
  remote : add.env.answer ≠ some c.config.siteId
  agrees : ∀ siteId existing, add.env.answer = some siteId → c.peerManager.endpoint? siteId = some existing →
    hostPortToString existing = add.address
  takes : RaftTakes c.raftNode add.env

/-- The endpoint is that of no other manual peer than the one that answers the probe, and where none answers, an id is
free below each raft member that the peer manager does not know. -/
structure AddCall.Clear (add : AddCall) : Prop where
  endpoint : ∀ c, add.bridge.cluster = some c → add.Proceeds getenv c →
    ∀ endpoint, parseHostPort isAddress add.address = some endpoint →
    ∀ siteId peer, c.peerManager.manualPeers.find? siteId = some peer → peer.endpoint = endpoint →
      add.env.answer = some siteId
  members : ∀ c, add.bridge.cluster = some c → add.Admitted getenv c → add.env.answer = none →
    ∀ member raftEndpoint, c.raftNode.members.find? member = some raftEndpoint → max 1 c.nextPeerSiteId ≤ member →
      member ∈ c.usedSiteIds ∨ ∃ free, max 1 c.nextPeerSiteId ≤ free ∧ free < member ∧ free ∉ c.usedSiteIds

inductive PeerStep where
  | add (env : AddPeerEnv) (address : Bytes)
  | remove (replies : ℕ → RaftReply) (siteId : Bytes)
  | refresh (inflight : InflightState) (telemetry : TelemetryMap) (call : RefreshCall)
  | servers (raftNode : RaftNode)

def peerStep (b : Bridge) : PeerStep → Bridge
  | .add env address => (b.clusterAddPeer isAddress getenv env address).1
  | .remove replies siteId => (b.clusterRemovePeer replies siteId).1
  | .refresh inflight telemetry call => (refreshClusterPeers isAddress getenv b inflight telemetry call).bridge
  | .servers raftNode => { b with cluster := b.cluster.map fun c => { c with raftNode } }

def addsMade (b : Bridge) : PeerStep → List AddCall
  | .add env address => [⟨b, env, address⟩]
  | .refresh inflight telemetry call => refreshAdds isAddress getenv b inflight telemetry call
  | _ => []

end Definitions

section Allocation

theorem toNat_add_one {k : UInt32} (h : k ≠ 0xFFFFFFFF) : (k + 1).toNat = k.toNat + 1 := by
  have hlt := k.toNat_lt
  have hne : k.toNat ≠ 4294967295 := fun heq => h (UInt32.toNat_inj.mp heq)
  rw [UInt32.toNat_add]
  change (k.toNat + 1) % 2 ^ 32 = k.toNat + 1
  omega

theorem firstUnusedSiteId_spec {used : List UInt32} {rounds : ℕ} {start siteId : UInt32}
    (h : firstUnusedSiteId used rounds start = some siteId) :
    start ≤ siteId ∧ siteId ∉ used ∧ ∀ k, start ≤ k → k < siteId → k ∈ used := by
  induction rounds generalizing start with
  | zero => cases h
  | succ rounds ih =>
    rw [firstUnusedSiteId] at h
    split_ifs at h with hused hlast
    · obtain ⟨hle, hfree, hbelow⟩ := ih h
      have hnext := toNat_add_one hlast
      rw [UInt32.le_iff_toNat_le, hnext] at hle
      refine ⟨UInt32.le_iff_toNat_le.mpr (by omega), hfree, ?_⟩
      intro k hk hlt
      by_cases hstart : k = start
      · exact hstart ▸ hused
      · apply hbelow k _ hlt
        have hne : k.toNat ≠ start.toNat := fun heq => hstart (UInt32.toNat_inj.mp heq)
        rw [UInt32.le_iff_toNat_le] at hk ⊢
        omega
    · obtain rfl := Option.some.inj h
      refine ⟨UInt32.le_refl _, hused, ?_⟩
      intro k hk hlt
      exact absurd hlt (UInt32.not_lt.mpr hk)

end Allocation

section Additions

variable {isAddress : Bytes → Bool} {getenv : Bytes → Option Bytes} {c : ActiveCluster} {siteId : UInt32}
  {endpoint : PeerEndpoint}

theorem admitPeer_ok {add : AddCall} (h : c.admitPeer isAddress getenv add.env add.address = .ok (siteId, endpoint)) :
    add.Admitted getenv c ∧ parseHostPort isAddress add.address = some endpoint ∧
      add.env.answer.or c.unusedSiteId = some siteId ∧ add.env.answer ≠ some c.config.siteId ∧
      ∀ remote existing, add.env.answer = some remote → c.peerManager.endpoint? remote = some existing →
        hostPortToString existing = add.address := by
  unfold ActiveCluster.admitPeer at h
  split at h
  · cases h
  · rename_i hsecret
    have hsecret' := not_or.mp hsecret
    cases hparse : parseHostPort isAddress add.address with
    | none =>
      rw [hparse] at h
      cases h
    | some parsed =>
      rw [hparse] at h
      simp only at h
      split at h
      · cases h
      · rename_i hprobe
        have hadmitted : add.Admitted getenv c := by
          refine ⟨⟨eq_true_of_ne_false hsecret'.1, hsecret'.2⟩, ?_⟩
          cases hok : add.env.probe.ok with
          | true => exact .inl rfl
          | false => exact .inr (eq_false_of_ne_true fun hrequired => hprobe ⟨hok, hrequired⟩)
        unfold AddPeerEnv.answer
        split at h
        · rename_i hanswer
          rw [hanswer]
          split at h
          · cases h
          · rename_i found hfound
            cases h
            exact ⟨hadmitted, rfl, hfound, nofun, nofun⟩
        · rename_i remote hanswer
          rw [hanswer]
          split at h
          · cases h
          · rename_i hlocal
            have hremote : some remote ≠ some c.config.siteId := fun heq => hlocal (Option.some.inj heq)
            split at h
            · rename_i hunknown
              cases h
              refine ⟨hadmitted, rfl, rfl, hremote, ?_⟩
              rintro _ existing ⟨⟩ hexisting
              rw [hunknown] at hexisting
              cases hexisting
            · rename_i existing hknown
              split at h
              · cases h
              · rename_i haddress
                cases h
                refine ⟨hadmitted, rfl, rfl, hremote, ?_⟩
                rintro _ existing' ⟨⟩ hexisting
                rw [hknown] at hexisting
                cases hexisting
                exact of_not_not haddress

theorem allocatesUnclaimed_of_clear {add : AddCall} (h : add.Clear isAddress getenv) :
    add.AllocatesUnclaimed isAddress getenv := by
  intro c siteId endpoint hcluster hanswer hpassed
  obtain ⟨hadmitted, -, hsite, -⟩ := admitPeer_ok hpassed
  rw [hanswer] at hsite
  obtain ⟨hstart, hfree, hbelow⟩ := firstUnusedSiteId_spec hsite
  obtain ⟨hremote, hunknown⟩ := not_or.mp (mt List.mem_cons.mpr hfree)
  refine ⟨hremote, fun peer hmem heq => hunknown (List.mem_map.mpr ⟨peer, hmem, heq⟩), ?_⟩
  cases hmember : c.raftNode.members.find? siteId with
  | none => rfl
  | some raftEndpoint =>
    obtain hknown | ⟨free, hle, hlt, hnot⟩ := h.members c hcluster hadmitted hanswer siteId raftEndpoint hmember hstart
    · exact absurd hknown hfree
    · exact absurd (hbelow free hle hlt) hnot

theorem SeparateEndpoints.erase {peers : FlatMap UInt32 SeenPeer} (h : SeparateEndpoints peers) (siteId : UInt32) :
    SeparateEndpoints (peers.erase siteId) := by
  intro first second peer peer' hfirst hsecond
  rw [FlatMap.find?_erase] at hfirst hsecond
  split_ifs at hfirst
  split_ifs at hsecond
  exact h first second peer peer' hfirst hsecond

theorem SeparateEndpoints.insert {peers : FlatMap UInt32 SeenPeer} (h : SeparateEndpoints peers) {siteId : UInt32}
    {seen : SeenPeer} (hfree : ∀ other peer, peers.find? other = some peer → peer.endpoint = seen.endpoint →
      other = siteId) : SeparateEndpoints (peers.insert siteId seen) := by
  intro first second peer peer' hfirst hsecond heq
  rw [FlatMap.find?_insert] at hfirst hsecond
  split_ifs at hfirst hsecond with hf hs hs
  · exact hf.trans hs.symm
  · obtain rfl := Option.some.inj hfirst
    exact hf ▸ (hfree second peer' hsecond heq.symm).symm
  · obtain rfl := Option.some.inj hsecond
    exact (hfree first peer hfirst heq).trans hs.symm
  · exact h first second peer peer' hfirst hsecond heq

theorem oneSiteEach_invariant : ClusterInvariant ActiveCluster.OneSiteEach where
  discovered _ _ hpeers h := by
    unfold ActiveCluster.OneSiteEach ActiveCluster.withPeers
    rw [hpeers]
    exact h
  removed _ siteId h := SeparateEndpoints.erase h siteId
  joined _ _ _ h := h
  left _ _ h := h
  added _ _ _ h := h
  probed _ _ _ _ h := h
  forgotten _ _ h := h
  pruned _ _ h := h
  seen _ _ h := h

theorem oneSiteEach_add {add : AddCall} (h : add.Clear isAddress getenv) :
    add.Keeps isAddress getenv ActiveCluster.OneSiteEach := by
  intro c siteId endpoint hcluster hc hpassed htakes
  obtain ⟨hadmitted, hparse, hsite, hremote, hagrees⟩ := admitPeer_ok hpassed
  unfold PeerManager.addManualPeer
  split_ifs
  · exact hc
  · apply SeparateEndpoints.insert hc
    intro other peer hpeer heq
    have hproceeds : add.Proceeds getenv c := ⟨hadmitted, hremote, hagrees, htakes⟩
    have hanswer := h.endpoint c hcluster hproceeds endpoint hparse other peer hpeer heq
    rw [hanswer] at hsite
    exact Option.some.inj hsite

end Additions

section Runs

variable {isAddress : Bytes → Bool} {getenv : Bytes → Option Bytes} {b : Bridge}

theorem oneSiteEach_peerStep (h : b.OneSiteEach) (a : PeerStep)
    (hclear : ∀ add ∈ addsMade isAddress getenv b a, add.Clear isAddress getenv) :
    (peerStep isAddress getenv b a).OneSiteEach := by
  cases a with
  | add env address =>
    have hadd := hclear _ (List.mem_singleton_self _)
    exact oneSiteEach_invariant.clusterAddPeer ⟨b, env, address⟩ h (oneSiteEach_add hadd)
  | remove replies siteId => exact oneSiteEach_invariant.clusterRemovePeer h replies siteId
  | refresh inflight telemetry call =>
    exact oneSiteEach_invariant.refreshClusterPeers h inflight telemetry call fun add hmem =>
      oneSiteEach_add (hclear add hmem)
  | servers raftNode =>
    intro c hc
    obtain ⟨c', hc', rfl⟩ := Option.map_eq_some_iff.mp hc
    exact h c' hc'

/-- From the start of a cluster on, as long as every addition, also those of a refresh, is clear: each endpoint has one
site id, and an id that an addition allocates is unclaimed. -/
theorem one_endpoint_one_site (isAddress : Bytes → Bool) (getenv : Bytes → Option Bytes) (b : Bridge) (env : EnableEnv)
    (config : ClusterConfig) (steps : List PeerStep)
    (hclear : AllSteps (peerStep isAddress getenv)
      (fun b a => ∀ add ∈ addsMade isAddress getenv b a, add.Clear isAddress getenv)
      (b.withCluster (env.newCluster config)) steps) :
    AllStates (peerStep isAddress getenv) OneSiteEach (b.withCluster (env.newCluster config)) steps ∧
      AllSteps (peerStep isAddress getenv)
        (fun b a => ∀ add ∈ addsMade isAddress getenv b a, add.AllocatesUnclaimed isAddress getenv)
        (b.withCluster (env.newCluster config)) steps := by
  have hstart : (b.withCluster (env.newCluster config)).OneSiteEach := by
    apply Throughout.withCluster
    intro siteId other peer peer' hpeer
    cases hpeer
  constructor
  · exact allStates_of_step _ (fun _ a h => oneSiteEach_peerStep h a) hstart hclear
  · exact hclear.mono _ fun _ _ h add hmem => allocatesUnclaimed_of_clear (h add hmem)

end Runs

section Samples

def singleNodeConfig : ClusterConfig where
  clusterName := ofString "c"
  syncPort := 9000
  clusterSharedSecret := ofString "s"

def emptyNode : Bridge := ({} : Bridge).withCluster (({} : EnableEnv).newCluster singleNodeConfig)

def samplePeerStep : Bridge → PeerStep → Bridge := peerStep (fun _ => false) fun _ => none

def silentTwice : List PeerStep := [.add {} (ofString "node:9000"), .add {} (ofString "node:9000")]

def joinedElsewhere : List PeerStep :=
  [.servers { members := FlatMap.empty.insert 2 (ofString "other:9002") }, .add {} (ofString "node:9000")]

theorem silent_endpoint_gets_two_sites : ¬ AllStates samplePeerStep OneSiteEach emptyNode silentTwice ∧
    ¬ AllSteps samplePeerStep (fun b a => ∀ add ∈ addsMade (fun _ => false) (fun _ => none) b a,
      add.AllocatesUnclaimed (fun _ => false) fun _ => none) emptyNode joinedElsewhere := by
  constructor
  · intro h
    have hpeers : ((run samplePeerStep emptyNode silentTwice).cluster.any fun c =>
        c.peerManager.manualPeers.find? 2 = some ⟨⟨ofString "node", 9000⟩, 0⟩ &&
          c.peerManager.manualPeers.find? 3 = some ⟨⟨ofString "node", 9000⟩, 0⟩) = true := by decide +kernel
    obtain ⟨c, hcluster, hc⟩ := Option.any_eq_true _ _ |>.mp hpeers
    obtain ⟨htwo, hthree⟩ := Bool.and_eq_true_iff.mp hc
    have hsame := h.final _ c hcluster 2 3 _ _ (of_decide_eq_true htwo) (of_decide_eq_true hthree) rfl
    exact absurd hsame (by decide)
  · rintro ⟨-, h, -⟩
    have hjoined : ((run samplePeerStep emptyNode (joinedElsewhere.take 1)).cluster.any fun c =>
        c.admitPeer (fun _ => false) (fun _ => none) {} (ofString "node:9000") = .ok (2, ⟨ofString "node", 9000⟩) &&
          c.raftNode.members.find? 2 ≠ none) = true := by decide +kernel
    obtain ⟨c, hcluster, hc⟩ := Option.any_eq_true _ _ |>.mp hjoined
    obtain ⟨hpassed, hmember⟩ := Bool.and_eq_true_iff.mp hc
    have hunclaimed := h _ (List.mem_singleton_self _) c 2 _ hcluster rfl (of_decide_eq_true hpassed)
    exact of_decide_eq_true hmember hunclaimed.noMember

def AddCall.uncontested (add : AddCall) : Bool :=
  add.bridge.cluster.all fun c =>
    ((parseHostPort (fun _ => false) add.address).all fun endpoint =>
      c.peerManager.manualPeers.entries.all fun peer => peer.2.endpoint ≠ endpoint) &&
    c.raftNode.members.entries.all fun member => member.1 < max 1 c.nextPeerSiteId

theorem clear_of_uncontested {add : AddCall} {getenv : Bytes → Option Bytes} (h : add.uncontested = true) :
    add.Clear (fun _ => false) getenv := by
  constructor
  · intro c hcluster _ endpoint hparse siteId peer hpeer heq
    simp only [AddCall.uncontested, hcluster, hparse, Option.all_some, Bool.and_eq_true, List.all_eq_true] at h
    exact absurd heq (of_decide_eq_true (h.1 _ (FlatMap.mem_entries.mpr hpeer)))
  · intro c hcluster _ _ member raftEndpoint hmember hle
    simp only [AddCall.uncontested, hcluster, Option.all_some, Bool.and_eq_true, List.all_eq_true] at h
    exact absurd hle (UInt32.not_le.mpr (of_decide_eq_true (h.2 _ (FlatMap.mem_entries.mpr hmember))))

def learnedLater : List PeerStep :=
  [.add {} (ofString "node:9000"),
    .refresh {} .empty { nowMs := 10000, probe := fun _ _ => { ok := true, remoteSiteId := some 9 },
                         addEnv := fun _ => { probe := { ok := true, remoteSiteId := some 9 } } },
    .add {} (ofString "other:9000")]

theorem endpoint_keeps_one_site : AllStates samplePeerStep OneSiteEach emptyNode learnedLater ∧
    AllSteps samplePeerStep (fun b a => ∀ add ∈ addsMade (fun _ => false) (fun _ => none) b a,
      add.AllocatesUnclaimed (fun _ => false) fun _ => none) emptyNode learnedLater := by
  have hchecked : AllSteps samplePeerStep (fun b a =>
      (addsMade (fun _ => false) (fun _ => none) b a).all AddCall.uncontested = true) emptyNode learnedLater := by
    decide +kernel
  apply one_endpoint_one_site
  apply hchecked.mono
  intro b a h add hmem
  exact clear_of_uncontested (List.all_eq_true.mp h add hmem)

end Samples

end Tightrope.Bridge
