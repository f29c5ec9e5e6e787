import Tightrope.Bridge.ClusterPeers

namespace Tightrope.Bridge

open Bytes Tightrope.Core MachineWords Sync Sync.Discovery

structure AddCall where
  bridge : Bridge
  env : AddPeerEnv
  address : Bytes

section Adds

variable (isAddress : Bytes → Bool) (getenv : Bytes → Option Bytes)

def reconciliationAdds (call : RefreshCall) : Bridge → List UInt32 → List SiteIdReconciliation → List AddCall
  | _, _, [] => []
  | b, done, candidate :: candidates =>
    if candidate.observedSiteId ∈ done then reconciliationAdds call b done candidates
    else
      let removed := b.clusterRemovePeer (call.removeReplies candidate.observedSiteId)
        (decimal candidate.observedSiteId.toNat)
      (if removed.2 then [⟨removed.1, call.addEnv candidate.observedSiteId, candidate.address⟩] else []) ++
        reconciliationAdds call (reconcileSiteId isAddress getenv call b candidate)
          (done ++ [candidate.observedSiteId]) candidates

def refreshAdds (b : Bridge) (inflight : InflightState) (telemetry : TelemetryMap) (call : RefreshCall) :
    List AddCall :=
  match b.cluster with
  | none => []
  | some c =>
    if call.role ≠ .leader then []
    else
      let pass := refreshPass isAddress getenv b c inflight telemetry call
      reconciliationAdds isAddress getenv call (b.withCluster pass.cluster) []
        (pass.reconciliations.filter fun candidate => candidate.observedSiteId ≠ 0 && candidate.remoteSiteId ≠ 0)

structure RaftTakes (raftNode : RaftNode) (env : AddPeerEnv) : Prop where
  running : raftNode.running = true
  taken : ∀ error, membershipChange env.replies = .error error → isRetryableMembershipError error = true

def AddCall.Keeps (I : ActiveCluster → Prop) (add : AddCall) : Prop :=
  ∀ c siteId endpoint, add.bridge.cluster = some c → I c →
    c.admitPeer isAddress getenv add.env add.address = .ok (siteId, endpoint) → RaftTakes c.raftNode add.env →
    I (c.withPeers (c.peerManager.addManualPeer isAddress siteId endpoint add.env.nowMs).1)

end Adds

def Throughout (I : ActiveCluster → Prop) (b : Bridge) : Prop := ∀ c, b.cluster = some c → I c

structure ClusterInvariant (I : ActiveCluster → Prop) : Prop where
  discovered : ∀ c peers, peers.manualPeers = c.peerManager.manualPeers → I c → I (c.withPeers peers)
  removed : ∀ c siteId, I c → I (c.withPeers (c.peerManager.removePeer siteId).1)
  joined : ∀ c siteId raftEndpoint, I c → I (c.joinRaft siteId raftEndpoint)
  left : ∀ c siteId, I c → I (c.leaveRaft siteId)
  added : ∀ c siteId env, I c → I (c.noteAddProbe siteId env)
  probed : ∀ c siteId nowMs probe, I c → I (c.noteProbe siteId nowMs probe)
  forgotten : ∀ c siteId, I c → I (c.forgetProbes siteId)
  pruned : ∀ c active, I c → I (c.pruneProbes active)
  seen : ∀ c states, I c → I { c with prevPeerStates := states }

theorem Throughout.withCluster {I : ActiveCluster → Prop} {c : ActiveCluster} (h : I c) (b : Bridge) :
    Throughout I (b.withCluster c) := by
  intro c' hc
  obtain rfl := Option.some.inj hc
  exact h

section Discovery

variable {isAddress : Bytes → Bool} {m : PeerManager}

theorem manualPeers_ingest (m : PeerManager) (peer : DiscoveredPeer) :
    (m.ingest isAddress peer).manualPeers = m.manualPeers := by
  unfold PeerManager.ingest
  split_ifs <;> rfl

theorem manualPeers_refreshDiscovery (m : PeerManager) (found : List DiscoveredPeer) :
    (m.refreshDiscovery isAddress found).manualPeers = m.manualPeers := by
  unfold PeerManager.refreshDiscovery
  induction found generalizing m with
  | nil => rfl
  | cons peer found ih => exact (ih (m.ingest isAddress peer)).trans (manualPeers_ingest m peer)

end Discovery

namespace ClusterInvariant

variable {isAddress : Bytes → Bool} {getenv : Bytes → Option Bytes} {I : ActiveCluster → Prop} {b : Bridge}
  {c : ActiveCluster}

theorem proposePeer (h : ClusterInvariant I) (b : Bridge) {env : AddPeerEnv} {siteId : UInt32}
    (hwithdrawn : I (c.withPeers (c.peerManager.removePeer siteId).1)) (hc : RaftTakes c.raftNode env → I c)
    (address : Bytes) (endpoint : PeerEndpoint) : Throughout I (b.proposePeer c env address siteId endpoint).1 := by
  have hremoved := Throughout.withCluster hwithdrawn b
  unfold Bridge.proposePeer
  split
  · exact hremoved
  · rename_i hrunning
    have hrunning' := eq_true_of_ne_false hrunning
    split
    · exact hremoved
    · split
      · rename_i happlied
        have htakes : RaftTakes c.raftNode env := by
          refine ⟨hrunning', ?_⟩
          intro error herror
          rw [happlied] at herror
          cases herror
        exact Throughout.withCluster (h.added _ siteId env (h.joined c siteId _ (hc htakes))) b
      · rename_i raftError hrefused
        split
        · rename_i hretryable
          have htakes : RaftTakes c.raftNode env := by
            refine ⟨hrunning', ?_⟩
            intro error herror
            rw [hrefused] at herror
            cases herror
            exact hretryable
          exact Throughout.withCluster (h.added c siteId env (hc htakes)) b
        · exact hremoved

theorem clusterAddPeer (h : ClusterInvariant I) (add : AddCall) (hb : Throughout I add.bridge)
    (hkeeps : add.Keeps isAddress getenv I) :
    Throughout I (add.bridge.clusterAddPeer isAddress getenv add.env add.address).1 := by
  unfold Bridge.clusterAddPeer
  split
  · exact hb
  · rename_i c hcluster
    split
    · exact hb
    · rename_i siteId endpoint hpassed
      simp only
      split
      · exact hb
      · rename_i hadded
        have hwithdrawn := h.removed c siteId (hb c hcluster)
        rw [← removePeer_addManualPeer (eq_true_of_ne_false hadded)] at hwithdrawn
        exact h.proposePeer _ hwithdrawn (hkeeps c siteId endpoint hcluster (hb c hcluster) hpassed) _ _

theorem dropPeer (h : ClusterInvariant I) (hc : I c) (b : Bridge) (siteId : UInt32) :
    Throughout I (b.dropPeer c siteId).1 := by
  have hremoved := h.removed c siteId hc
  unfold Bridge.dropPeer
  simp only
  split
  · exact Throughout.withCluster hremoved b
  · exact Throughout.withCluster (h.forgotten _ siteId hremoved) b

theorem clusterRemovePeer (h : ClusterInvariant I) (hb : Throughout I b) (replies : ℕ → RaftReply) (siteId : Bytes) :
    Throughout I (b.clusterRemovePeer replies siteId).1 := by
  unfold Bridge.clusterRemovePeer
  split
  · exact hb
  · rename_i c hcluster
    have hc := hb c hcluster
    split
    · exact hb
    · split
      · exact hb
      · split
        · exact hb
        · split
          · exact h.dropPeer (h.left c _ hc) b _
          · split
            · exact h.dropPeer hc b _
            · exact hb

theorem afterDiscovery (h : ClusterInvariant I) (hc : I c) (call : RefreshCall) :
    I (c.afterDiscovery isAddress call) := by
  unfold ActiveCluster.afterDiscovery
  split
  · exact h.discovered c _ (manualPeers_refreshDiscovery c.peerManager call.discovered) hc
  · exact hc

theorem refreshPeer (h : ClusterInvariant I) (ctx : RefreshContext) {pass : RefreshPass} (hpass : I pass.cluster)
    (peer : PeerRecord) : I (ctx.refreshPeer pass peer).cluster := by
  unfold RefreshContext.refreshPeer
  split
  · exact hpass
  · apply h.seen
    cases ctx.shouldProbe pass peer.siteId with
    | false => exact hpass
    | true => exact h.probed _ _ _ _ hpass

theorem foldl_refreshPeer (h : ClusterInvariant I) (ctx : RefreshContext) {pass : RefreshPass} (hpass : I pass.cluster)
    (peers : List PeerRecord) : I (peers.foldl ctx.refreshPeer pass).cluster := by
  induction peers generalizing pass with
  | nil => exact hpass
  | cons peer peers ih => exact ih (h.refreshPeer ctx hpass peer)

theorem reconcileSiteId (h : ClusterInvariant I) (hb : Throughout I b) (call : RefreshCall)
    (candidate : SiteIdReconciliation)
    (hkeeps : ∀ removed, b.clusterRemovePeer (call.removeReplies candidate.observedSiteId)
      (decimal candidate.observedSiteId.toNat) = removed → removed.2 = true →
      (⟨removed.1, call.addEnv candidate.observedSiteId, candidate.address⟩ : AddCall).Keeps isAddress getenv I) :
    Throughout I (Bridge.reconcileSiteId isAddress getenv call b candidate) := by
  have hremoved := h.clusterRemovePeer hb (call.removeReplies candidate.observedSiteId)
    (decimal candidate.observedSiteId.toNat)
  unfold Bridge.reconcileSiteId
  simp only
  split
  · rename_i hok
    exact h.clusterAddPeer ⟨_, call.addEnv candidate.observedSiteId, candidate.address⟩ hremoved (hkeeps _ rfl hok)
  · exact hremoved

theorem foldl_reconcileSiteId (h : ClusterInvariant I) (call : RefreshCall) (candidates : List SiteIdReconciliation)
    {done : List UInt32} (hb : Throughout I b)
    (hkeeps : ∀ add ∈ reconciliationAdds isAddress getenv call b done candidates, add.Keeps isAddress getenv I) :
    Throughout I (candidates.foldl (fun done candidate =>
      if candidate.observedSiteId ∈ done.2 then done
      else (Bridge.reconcileSiteId isAddress getenv call done.1 candidate, done.2 ++ [candidate.observedSiteId]))
      (b, done)).1 := by
  induction candidates generalizing b done with
  | nil => exact hb
  | cons candidate candidates ih =>
    rw [reconciliationAdds] at hkeeps
    rw [List.foldl_cons]
    by_cases hdone : candidate.observedSiteId ∈ done
    · rw [if_pos hdone] at hkeeps ⊢
      exact ih hb hkeeps
    · rw [if_neg hdone] at hkeeps ⊢
      refine ih (h.reconcileSiteId hb call candidate ?_) fun add hmem => hkeeps add (List.mem_append_right _ hmem)
      rintro removed rfl hok
      apply hkeeps
      simp only [if_pos hok]
      exact List.mem_append_left _ (List.mem_singleton_self _)

theorem evictPeers (h : ClusterInvariant I) (hb : Throughout I b) (call : RefreshCall) (candidates : List UInt32) :
    Throughout I (b.evictPeers call candidates) := by
  unfold Bridge.evictPeers
  generalize evictionRemovals call b candidates = removals
  induction removals generalizing b with
  | nil => exact hb
  | cons siteId removals ih =>
    apply ih
    unfold evictPeer
    split
    · rename_i c hcluster _
      have hremoved := h.removed _ siteId (h.left c siteId (hb c hcluster))
      exact Throughout.withCluster (h.forgotten _ siteId hremoved) b
    · exact hb

theorem refreshClusterPeers (h : ClusterInvariant I) (hb : Throughout I b) (inflight : InflightState)
    (telemetry : TelemetryMap) (call : RefreshCall)
    (hkeeps : ∀ add ∈ refreshAdds isAddress getenv b inflight telemetry call, add.Keeps isAddress getenv I) :
    Throughout I (Bridge.refreshClusterPeers isAddress getenv b inflight telemetry call).bridge := by
  unfold Bridge.refreshClusterPeers
  unfold refreshAdds at hkeeps
  cases hcluster : b.cluster with
  | none => exact hb
  | some c =>
    rw [hcluster] at hkeeps
    have hpass : I (refreshPass isAddress getenv b c inflight telemetry call).cluster :=
      h.foldl_refreshPeer _ (h.afterDiscovery (hb c hcluster) call) _
    apply h.evictPeers
    intro c' hc
    obtain ⟨reconciled, hreconciled, rfl⟩ := Option.map_eq_some_iff.mp hc
    refine h.pruned _ _ ?_
    unfold reconcileSiteIds at hreconciled
    by_cases hrole : call.role ≠ .leader
    · rw [if_pos hrole] at hreconciled
      exact Throughout.withCluster hpass b reconciled hreconciled
    · rw [if_neg hrole] at hreconciled
      simp only [if_neg hrole] at hkeeps
      exact h.foldl_reconcileSiteId call _ (Throughout.withCluster hpass b) hkeeps reconciled hreconciled

end ClusterInvariant

end Tightrope.Bridge
