import Tightrope.Bridge.PeerChanges

namespace Tightrope.Bridge

open Bytes Tightrope.Core MachineWords Runs Sync Sync.Discovery

section Definitions

variable (isAddress : Bytes → Bool) (getenv : Bytes → Option Bytes) (call : RefreshCall)

def firstOfEach : List UInt32 → List SiteIdReconciliation → List SiteIdReconciliation
  | _, [] => []
  | done, candidate :: candidates =>
    if candidate.observedSiteId ∈ done then firstOfEach done candidates
    else candidate :: firstOfEach (done ++ [candidate.observedSiteId]) candidates

def RefreshPass.reconciled (pass : RefreshPass) : List SiteIdReconciliation :=
  if call.role ≠ .leader then []
  else firstOfEach [] (pass.reconciliations.filter fun candidate =>
    candidate.observedSiteId ≠ 0 && candidate.remoteSiteId ≠ 0)

def refreshStart (b : Bridge) (inflight : InflightState) (telemetry : TelemetryMap) : Bridge :=
  b.cluster.elim b fun c => b.withCluster (refreshPass isAddress getenv b c inflight telemetry call).cluster

def RefreshPass.changes (pass : RefreshPass) : List PeerChange :=
  (pass.reconciled call).map .reconcile ++ [.prune (pass.statuses.map PeerStatus.siteId)]

def refreshChanges (b : Bridge) (inflight : InflightState) (telemetry : TelemetryMap) : List PeerChange :=
  b.cluster.elim [] fun c =>
    let pass := refreshPass isAddress getenv b c inflight telemetry call
    let pruned := run (changePeers isAddress getenv call) (b.withCluster pass.cluster) (pass.changes call)
    pass.changes call ++ (evictionRemovals call pruned pass.evictionCandidates).map .evict

def PeerChange.candidate? : PeerChange → Option SiteIdReconciliation
  | .reconcile candidate => some candidate
  | _ => none

def rounds : Bridge → List PeerChange → List Reconciliation
  | _, [] => []
  | b, change :: changes =>
    (change.candidate?.map fun candidate => ⟨b, candidate⟩).toList ++
      rounds (changePeers isAddress getenv call b change) changes

namespace Reconciliation

variable (m : Reconciliation)

structure KeepsPeer (before after : Bridge) : Prop where
  moved : m.Completes isAddress getenv call → ∃ c siteId endpoint, (m.removed call).1.cluster = some c ∧
    c.admitPeer isAddress getenv (m.env call) m.candidate.address = .ok (siteId, endpoint) ∧
      after.addressOf siteId = some m.candidate.address
  stayed : ¬ m.Completes isAddress getenv call →
    after.addressOf m.candidate.observedSiteId = some m.candidate.address ∧
      after.member? m.candidate.observedSiteId = before.member? m.candidate.observedSiteId

structure Survives (start : Bridge) (changes : List PeerChange) : Prop where
  moved : ∀ siteId endpoint, m.MovesTo isAddress getenv call siteId endpoint →
    start.Stands isAddress getenv call changes siteId m.candidate.address
  stayed : (∀ siteId endpoint, ¬ m.MovesTo isAddress getenv call siteId endpoint) →
    start.Stands isAddress getenv call changes m.candidate.observedSiteId m.candidate.address ∧
      start.MemberStands isAddress getenv call changes m.candidate.observedSiteId
        (start.member? m.candidate.observedSiteId)

end Reconciliation

end Definitions

section Peers

variable {isAddress : Bytes → Bool} {getenv : Bytes → Option Bytes} {call : RefreshCall} {b : Bridge}
  {c : ActiveCluster}
  {candidates : List SiteIdReconciliation} {candidate : SiteIdReconciliation} {done : List UInt32}

def ActiveCluster.ValidPeers (isAddress : Bytes → Bool) (c : ActiveCluster) : Prop :=
  ∀ siteId peer, c.peerManager.manualPeers.find? siteId = some peer →
    siteId ≠ 0 ∧ isValidHostPort isAddress peer.endpoint = true

theorem validPeers_invariant : ClusterInvariant (ActiveCluster.ValidPeers isAddress) where
  discovered _ _ hpeers h := by
    unfold ActiveCluster.ValidPeers ActiveCluster.withPeers
    rw [hpeers]
    exact h
  removed _ _ h siteId peer hpeer := by
    change (FlatMap.erase _ _).find? siteId = some peer at hpeer
    rw [FlatMap.find?_erase] at hpeer
    split_ifs at hpeer
    exact h siteId peer hpeer
  joined _ _ _ h := h
  left _ _ h := h
  added _ _ _ h := h
  probed _ _ _ _ h := h
  forgotten _ _ h := h
  pruned _ _ h := h
  seen _ _ h := h

theorem validPeers_add (add : AddCall) : add.Keeps isAddress getenv (ActiveCluster.ValidPeers isAddress) := by
  intro c siteId endpoint _ hc hpassed _
  unfold PeerManager.addManualPeer
  split_ifs with hrejected
  · exact hc
  · intro other peer hpeer
    change (c.peerManager.manualPeers.insert siteId _).find? other = some peer at hpeer
    rw [FlatMap.find?_insert] at hpeer
    split_ifs at hpeer with hother
    · obtain rfl := Option.some.inj hpeer
      exact ⟨hother ▸ fun hzero => hrejected (.inl hzero), isValid_of_admitPeer hpassed⟩
    · exact hc other peer hpeer

theorem validPeers_peerStep (h : Throughout (ActiveCluster.ValidPeers isAddress) b) (a : PeerStep) :
    Throughout (ActiveCluster.ValidPeers isAddress) (peerStep isAddress getenv b a) := by
  cases a with
  | add env address => exact validPeers_invariant.clusterAddPeer ⟨b, env, address⟩ h (validPeers_add _)
  | remove replies siteId => exact validPeers_invariant.clusterRemovePeer h replies siteId
  | refresh inflight telemetry call =>
    exact validPeers_invariant.refreshClusterPeers h inflight telemetry call fun add _ => validPeers_add add
  | servers raftNode =>
    intro c hc
    obtain ⟨c', hc', rfl⟩ := Option.map_eq_some_iff.mp hc
    exact h c' hc'

theorem mem_of_mem_firstOfEach (h : candidate ∈ firstOfEach done candidates) : candidate ∈ candidates := by
  induction candidates generalizing done with
  | nil => cases h
  | cons first candidates ih =>
    rw [firstOfEach] at h
    split_ifs at h
    · exact List.mem_cons_of_mem _ (ih h)
    · obtain rfl | h := List.mem_cons.mp h
      · exact List.mem_cons_self
      · exact List.mem_cons_of_mem _ (ih h)

theorem exists_firstOfEach (hmem : candidate ∈ candidates) (hdone : candidate.observedSiteId ∉ done) :
    ∃ first ∈ firstOfEach done candidates, first.observedSiteId = candidate.observedSiteId := by
  induction candidates generalizing done with
  | nil => cases hmem
  | cons first candidates ih =>
    rw [firstOfEach]
    by_cases hsame : candidate.observedSiteId = first.observedSiteId
    · rw [if_neg (hsame ▸ hdone)]
      exact ⟨first, List.mem_cons_self, hsame.symm⟩
    · have hrest : candidate ∈ candidates := (List.mem_cons.mp hmem).resolve_left fun heq => hsame (heq ▸ rfl)
      split_ifs
      · exact ih hrest hdone
      · obtain ⟨other, hother, heq⟩ := @ih (done ++ [first.observedSiteId]) hrest (by simp [hdone, hsame])
        exact ⟨other, List.mem_cons_of_mem _ hother, heq⟩

theorem mem_reconciliations {ctx : RefreshContext} {pass : RefreshPass} {peers : List PeerRecord}
    (h : candidate ∈ (peers.foldl ctx.refreshPeer pass).reconciliations) :
    candidate ∈ pass.reconciliations ∨
      ∃ peer ∈ peers, ctx.reconciliation? peer (ctx.call.probe peer.siteId peer.endpoint) = some candidate := by
  induction peers generalizing pass with
  | nil => exact .inl h
  | cons peer peers ih =>
    obtain h | ⟨other, hmem, hcandidate⟩ := ih h
    · unfold RefreshContext.refreshPeer at h
      split_ifs at h
      · exact .inl h
      · simp only at h
        split_ifs at h
        · obtain h | h := List.mem_append.mp h
          · exact .inl h
          · exact .inr ⟨peer, List.mem_cons_self, Option.mem_toList.mp h⟩
        · exact .inl h
    · exact .inr ⟨other, List.mem_cons_of_mem _ hmem, hcandidate⟩

theorem record_of_manual {peer : PeerRecord} {seen : SeenPeer} (hmem : peer ∈ c.peersToRefresh isAddress)
    (hmanual : c.peerManager.manualPeers.find? peer.siteId = some seen) (hsite : peer.siteId ≠ 0) :
    peer = ⟨peer.siteId, seen.endpoint, true, seen.seenUnixMs⟩ := by
  have hfound : c.peerManager.peers.find? peer.siteId = some ⟨peer.siteId, seen.endpoint, true, seen.seenUnixMs⟩ := by
    rw [find?_peers, hmanual]
    rfl
  unfold ActiveCluster.peersToRefresh at hmem
  obtain hmem | hmem := List.mem_append.mp hmem
  · have hpeer := mem_membershipProposals.mp hmem
    exact Option.some.inj (hpeer.symm.trans hfound)
  · split_ifs at hmem
    · obtain ⟨server, -, hserver⟩ := List.mem_filterMap.mp hmem
      unfold ActiveCluster.raftOnlyPeer at hserver
      split_ifs at hserver with hother
      obtain ⟨endpoint, -, rfl⟩ := Option.map_eq_some_iff.mp hserver
      -- A raft member that the manager knows is refreshed as the manager's peer.
      refine absurd ?_ (not_or.mp (not_or.mp hother).2).2
      exact List.mem_filter.mpr ⟨List.mem_map.mpr ⟨⟨server.1, seen.endpoint, true, seen.seenUnixMs⟩,
        mem_membershipProposals.mpr hfound, rfl⟩, by simpa using hsite⟩
    · cases hmem

theorem reconciliation?_eq {ctx : RefreshContext} {peer : PeerRecord} {probe : PeerProbeResult}
    (h : ctx.reconciliation? peer probe = some candidate) :
    candidate.observedSiteId = peer.siteId ∧ candidate.address = hostPortToString peer.endpoint ∧
      candidate.remoteSiteId ≠ 0 := by
  obtain ⟨remote, hremote, rfl⟩ := Option.map_eq_some_iff.mp h
  have hchecked := (Option.filter_eq_some_iff.mp hremote).2
  simp only [Bool.and_eq_true, decide_eq_true_eq] at hchecked
  exact ⟨rfl, rfl, hchecked.1.1.2⟩

theorem manualPeers_afterDiscovery (c : ActiveCluster) (call : RefreshCall) :
    (c.afterDiscovery isAddress call).peerManager.manualPeers = c.peerManager.manualPeers := by
  unfold ActiveCluster.afterDiscovery
  split
  · exact manualPeers_refreshDiscovery c.peerManager call.discovered
  · rfl

theorem exists_record {inflight : InflightState} {telemetry : TelemetryMap} {seen : SeenPeer}
    (hmem : candidate ∈ (refreshPass isAddress getenv b c inflight telemetry call).reconciliations)
    (hmanual : c.peerManager.manualPeers.find? candidate.observedSiteId = some seen)
    (hsite : candidate.observedSiteId ≠ 0) :
    (refreshContext getenv b c inflight telemetry call).reconciliation?
      ⟨candidate.observedSiteId, seen.endpoint, true, seen.seenUnixMs⟩
        (call.probe candidate.observedSiteId seen.endpoint) = some candidate := by
  obtain h | ⟨peer, hpeer, hcandidate⟩ := mem_reconciliations hmem
  · cases h
  · obtain ⟨hobserved, -, -⟩ := reconciliation?_eq hcandidate
    rw [hobserved] at hmanual hsite ⊢
    rw [← manualPeers_afterDiscovery c call] at hmanual
    have hrecord := record_of_manual hpeer hmanual hsite
    rw [hrecord] at hcandidate
    exact hcandidate

end Peers

section Refresh

variable {isAddress : Bytes → Bool} {getenv : Bytes → Option Bytes} {call : RefreshCall} {b : Bridge}
  {c : ActiveCluster}
  {inflight : InflightState} {telemetry : TelemetryMap}

theorem foldl_reconcileSiteId_eq {done : List UInt32} (candidates : List SiteIdReconciliation) :
    (candidates.foldl (fun done candidate =>
      if candidate.observedSiteId ∈ done.2 then done
      else (reconcileSiteId isAddress getenv call done.1 candidate, done.2 ++ [candidate.observedSiteId]))
        (b, done)).1 =
        run (changePeers isAddress getenv call) b ((firstOfEach done candidates).map .reconcile) := by
  induction candidates generalizing b done with
  | nil => rfl
  | cons candidate candidates ih =>
    rw [List.foldl_cons, firstOfEach]
    by_cases hdone : candidate.observedSiteId ∈ done
    · rw [if_pos hdone, if_pos hdone]
      exact ih
    · rw [if_neg hdone, if_neg hdone]
      exact ih

theorem reconcileSiteIds_eq (pass : RefreshPass) :
    reconcileSiteIds isAddress getenv call b pass.reconciliations =
      run (changePeers isAddress getenv call) b ((pass.reconciled call).map .reconcile) := by
  unfold reconcileSiteIds RefreshPass.reconciled
  split_ifs
  · rfl
  · exact foldl_reconcileSiteId_eq _

theorem bridge_refreshed (hcluster : b.cluster = some c) :
    (refreshClusterPeers isAddress getenv b inflight telemetry call).bridge =
      run (changePeers isAddress getenv call) (refreshStart isAddress getenv call b inflight telemetry)
        (refreshChanges isAddress getenv call b inflight telemetry) := by
  unfold refreshClusterPeers refreshStart refreshChanges
  simp only [hcluster, Option.elim_some]
  generalize refreshPass isAddress getenv b c inflight telemetry call = pass
  have hpruned : run (changePeers isAddress getenv call) (b.withCluster pass.cluster) (pass.changes call) =
      { reconcileSiteIds isAddress getenv call (b.withCluster pass.cluster) pass.reconciliations with
        cluster := (reconcileSiteIds isAddress getenv call (b.withCluster pass.cluster)
          pass.reconciliations).cluster.map fun c => c.pruneProbes (pass.statuses.map PeerStatus.siteId) } := by
    rw [RefreshPass.changes, reconcileSiteIds_eq, run, List.foldl_append]
    rfl
  rw [run, List.foldl_append]
  change _ = ((evictionRemovals call (run _ _ (pass.changes call)) pass.evictionCandidates).map PeerChange.evict).foldl
    _
    (run _ _ (pass.changes call))
  rw [hpruned, List.foldl_map]
  rfl

theorem named_refreshChanges : ∀ change ∈ refreshChanges isAddress getenv call b inflight telemetry, change.Named := by
  unfold refreshChanges
  cases b.cluster with
  | none => exact fun _ h => by cases h
  | some c =>
    intro change h
    simp only [Option.elim_some, RefreshPass.changes, List.mem_append, List.mem_map, List.mem_singleton] at h
    obtain (⟨candidate, hmem, rfl⟩ | rfl) | ⟨siteId, -, rfl⟩ := h
    · unfold RefreshPass.reconciled at hmem
      split_ifs at hmem
      · cases hmem
      · have hfiltered := (List.mem_filter.mp (mem_of_mem_firstOfEach hmem)).2
        simp only [Bool.and_eq_true, decide_eq_true_eq] at hfiltered
        exact hfiltered.1
    · trivial
    · trivial

theorem raftNode_refreshPass : (refreshPass isAddress getenv b c inflight telemetry call).cluster.raftNode =
    c.raftNode := by
  have hdiscovery : (c.afterDiscovery isAddress call).raftNode = c.raftNode := by
    unfold ActiveCluster.afterDiscovery
    split <;> rfl
  unfold refreshPass
  rw [← hdiscovery]
  generalize (c.afterDiscovery isAddress call).peersToRefresh isAddress = peers
  have hpass (pass : RefreshPass) : (peers.foldl (refreshContext getenv b c inflight telemetry call).refreshPeer
      pass).cluster.raftNode = pass.cluster.raftNode := by
    induction peers generalizing pass with
    | nil => rfl
    | cons peer peers ih =>
      rw [List.foldl_cons, ih]
      unfold RefreshContext.refreshPeer
      split
      · rfl
      · simp only
        split <;> rfl
  exact hpass _

theorem member?_refreshStart (b : Bridge) (siteId : UInt32) :
    (refreshStart isAddress getenv call b inflight telemetry).member? siteId = b.member? siteId := by
  unfold refreshStart
  cases hcluster : b.cluster with
  | none => rfl
  | some c =>
    rw [Option.elim_some, member?_of_cluster hcluster, ← raftNode_refreshPass]
    rfl

theorem exists_round {changes : List PeerChange} {candidate : SiteIdReconciliation}
    (h : .reconcile candidate ∈ changes) :
    ∃ m ∈ rounds isAddress getenv call b changes, m.candidate = candidate := by
  induction changes generalizing b with
  | nil => cases h
  | cons change changes ih =>
    obtain rfl | h := List.mem_cons.mp h
    · exact ⟨⟨b, candidate⟩, List.mem_append_left _ (List.mem_singleton_self _), rfl⟩
    · obtain ⟨m, hm, hcandidate⟩ := @ih (changePeers isAddress getenv call b change) h
      exact ⟨m, List.mem_append_right _ hm, hcandidate⟩

theorem keepsPeer_iff {m : Reconciliation} (hcluster : b.cluster = some c)
    (hsite : m.candidate.observedSiteId ≠ 0) :
    m.KeepsPeer isAddress getenv call b (refreshClusterPeers isAddress getenv b inflight telemetry call).bridge ↔
      m.Survives isAddress getenv call (refreshStart isAddress getenv call b inflight telemetry)
        (refreshChanges isAddress getenv call b inflight telemetry) := by
  have hnamed := @named_refreshChanges isAddress getenv call b inflight telemetry
  have haddress (siteId : UInt32) (address : Bytes) := @addressOf_run_iff isAddress getenv call
    (refreshStart isAddress getenv call b inflight telemetry) siteId address _ hnamed
  have hmember (siteId : UInt32) (member : Option Bytes) := @member?_run_iff isAddress getenv call
    (refreshStart isAddress getenv call b inflight telemetry) siteId _ member hnamed
  rw [bridge_refreshed hcluster]
  have hcompletes := @Reconciliation.completes_iff isAddress getenv call m hsite
  constructor
  · intro h
    constructor
    · intro siteId endpoint hmoves
      obtain ⟨hcompleted, ⟨c', hleft, hpassed⟩, -⟩ := Reconciliation.completes_of_movesTo hsite hmoves
      obtain ⟨c'', siteId', endpoint', hleft', hpassed', hfound⟩ := h.moved hcompleted
      obtain rfl := Option.some.inj (hleft.symm.trans hleft')
      obtain ⟨rfl, -⟩ := Prod.mk.inj (Except.ok.inj (hpassed.symm.trans hpassed'))
      exact (haddress _ _).mp hfound
    · intro hnone
      obtain ⟨hfound, hraft⟩ := h.stayed fun hcompleted => by
        obtain ⟨siteId, endpoint, hmoves⟩ := hcompletes.mp hcompleted
        exact hnone siteId endpoint hmoves
      rw [member?_refreshStart]
      exact ⟨(haddress _ _).mp hfound, (hmember _ _).mp hraft⟩
  · intro h
    constructor
    · intro hcompleted
      obtain ⟨siteId, endpoint, hmoves⟩ := hcompletes.mp hcompleted
      obtain ⟨-, ⟨c', hleft, hpassed⟩, -⟩ := Reconciliation.completes_of_movesTo hsite hmoves
      exact ⟨c', siteId, endpoint, hleft, hpassed, (haddress _ _).mpr (h.moved siteId endpoint hmoves)⟩
    · intro hnot
      obtain ⟨hstands, hraft⟩ := h.stayed fun siteId endpoint hmoves => hnot (hcompletes.mpr ⟨siteId, endpoint, hmoves⟩)
      rw [member?_refreshStart] at hraft
      exact ⟨(haddress _ _).mpr hstands, (hmember _ _).mpr hraft⟩

theorem validPeers_reached (b : Bridge) (env : EnableEnv) (config : ClusterConfig) (steps : List PeerStep) :
    Throughout (ActiveCluster.ValidPeers isAddress)
      (run (peerStep isAddress getenv) (b.withCluster (env.newCluster config)) steps) := by
  have hstart : Throughout (ActiveCluster.ValidPeers isAddress) (b.withCluster (env.newCluster config)) :=
    Throughout.withCluster (fun siteId peer hpeer => by cases hpeer) b
  have hsteps : AllSteps (peerStep isAddress getenv) (fun _ _ => True) (b.withCluster (env.newCluster config)) steps :=
    allSteps_of_forall _ fun _ _ => trivial
  have hall : AllStates (peerStep isAddress getenv) (Throughout (ActiveCluster.ValidPeers isAddress))
      (b.withCluster (env.newCluster config)) steps :=
    allStates_of_step _ (fun _ a h _ => validPeers_peerStep h a) hstart hsteps
  exact hall.final

/-- From the start of a cluster on, whatever the commands: each manual peer whose probe answers with another id has its
round in the refresh of a leader, and after the refresh the peer is kept exactly where it survives the rounds and the
evictions of that refresh. -/
theorem reconciliation_keeps_peer_iff (isAddress : Bytes → Bool) (getenv : Bytes → Option Bytes) (b : Bridge)
    (env : EnableEnv) (config : ClusterConfig) (steps : List PeerStep) (inflight : InflightState)
    (telemetry : TelemetryMap) (call : RefreshCall) (hleader : call.role = .leader) :
    let reached := run (peerStep isAddress getenv) (b.withCluster (env.newCluster config)) steps
    let start := refreshStart isAddress getenv call reached inflight telemetry
    let changes := refreshChanges isAddress getenv call reached inflight telemetry
    let refreshed := refreshClusterPeers isAddress getenv reached inflight telemetry call
    ∀ c candidate peer, reached.cluster = some c →
      candidate ∈ (refreshPass isAddress getenv reached c inflight telemetry call).reconciliations →
      c.peerManager.manualPeers.find? candidate.observedSiteId = some peer →
      candidate.address = hostPortToString peer.endpoint ∧
        (∃ m ∈ rounds isAddress getenv call start changes, m.candidate = candidate) ∧
        ∀ m ∈ rounds isAddress getenv call start changes, m.candidate = candidate →
          (m.KeepsPeer isAddress getenv call reached refreshed.bridge ↔
            m.Survives isAddress getenv call start changes) := by
  intro reached start changes refreshed c candidate peer hcluster hmem hmanual
  obtain ⟨hsite, -⟩ := validPeers_reached b env config steps c hcluster candidate.observedSiteId peer hmanual
  have hrecord := exists_record hmem hmanual hsite
  obtain ⟨-, hprinted, hremote⟩ := reconciliation?_eq hrecord
  refine ⟨hprinted, ?_, fun m _ hm => keepsPeer_iff hcluster (hm ▸ hsite)⟩
  have hcandidate : candidate ∈ (refreshPass isAddress getenv reached c inflight telemetry call).reconciliations.filter
      fun candidate => candidate.observedSiteId ≠ 0 && candidate.remoteSiteId ≠ 0 :=
    List.mem_filter.mpr ⟨hmem, by simp [hsite, hremote]⟩
  obtain ⟨first, hfirst, hsame⟩ := exists_firstOfEach hcandidate List.not_mem_nil
  -- The round of an id is that of the one record the manager has under it.
  have hother := (List.mem_filter.mp (mem_of_mem_firstOfEach hfirst)).1
  have hotherRecord := exists_record hother (hsame ▸ hmanual) (hsame ▸ hsite)
  rw [hsame] at hotherRecord
  obtain rfl := Option.some.inj (hotherRecord.symm.trans hrecord)
  apply exists_round
  simp only [changes, refreshChanges, hcluster, Option.elim_some, RefreshPass.changes, RefreshPass.reconciled, hleader]
  exact List.mem_append_left _ (List.mem_append_left _ (List.mem_map_of_mem hfirst))

end Refresh

section Samples

def silentNode : List PeerStep := [.add {} (ofString "node:9000")]

def answeringNine (replies : ℕ → RaftReply) : RefreshCall where
  nowMs := 10000
  probe _ _ := { ok := true, remoteSiteId := some 9 }
  addEnv _ := { probe := { ok := true, remoteSiteId := some 9 }, replies }

def nodeIsNine : SiteIdReconciliation := ⟨2, 9, ofString "node:9000"⟩

def sampleStart (replies : ℕ → RaftReply) (steps : List PeerStep) : Bridge :=
  refreshStart (fun _ => false) (fun _ => none) (answeringNine replies) (run samplePeerStep emptyNode steps) {} .empty

def sampleChanges (replies : ℕ → RaftReply) (steps : List PeerStep) : List PeerChange :=
  refreshChanges (fun _ => false) (fun _ => none) (answeringNine replies) (run samplePeerStep emptyNode steps) {} .empty

def sampleAfter (replies : ℕ → RaftReply) (steps : List PeerStep) : Bridge :=
  (refreshClusterPeers (fun _ => false) (fun _ => none) (run samplePeerStep emptyNode steps) {} .empty
    (answeringNine replies)).bridge

theorem sampleChanges_silentNode : sampleChanges (fun _ => .applied) silentNode =
    [.reconcile nodeIsNine, .prune [2]] := by
  decide +kernel

theorem survives_sample : Reconciliation.Survives (fun _ => false) (fun _ => none) (answeringNine fun _ => .applied)
    ⟨sampleStart (fun _ => .applied) silentNode, nodeIsNine⟩ (sampleStart (fun _ => .applied) silentNode)
      [.reconcile nodeIsNine, .prune [2]] := by
  have happlied : membershipChange (fun _ => .applied) = .ok () := rfl
  have htaken : ∀ error, membershipChange (fun _ => .applied) = .error error →
      isRetryableMembershipError error = true := by
    intro error herror
    rw [happlied] at herror
    cases herror
  have hchecked : ((sampleStart (fun _ => .applied) silentNode).cluster.any fun c =>
      (c.peerManager.manualPeers.find? 2).isSome && c.raftNode.running &&
        (c.without 2).admitPeer (fun _ => false) (fun _ => none) ((answeringNine fun _ => .applied).addEnv 2)
          (ofString "node:9000") = .ok (9, ⟨ofString "node", 9000⟩)) = true := by decide +kernel
  obtain ⟨c, hcluster, hc⟩ := Option.any_eq_true _ _ |>.mp hchecked
  simp only [Bool.and_eq_true, decide_eq_true_eq] at hc
  obtain ⟨⟨hmanual, hrunning⟩, hpassed⟩ := hc
  have hmoves : Reconciliation.MovesTo (fun _ => false) (fun _ => none) (answeringNine fun _ => .applied)
      ⟨sampleStart (fun _ => .applied) silentNode, nodeIsNine⟩ 9 ⟨ofString "node", 9000⟩ :=
    ⟨c, hcluster, ⟨hmanual, hrunning, htaken⟩, ⟨hpassed, by decide⟩, by decide, hrunning, htaken⟩
  constructor
  · rintro siteId endpoint ⟨c', hcluster', -, haddition⟩
    obtain rfl := Option.some.inj (hcluster.symm.trans hcluster')
    obtain ⟨rfl, -⟩ := Prod.mk.inj (Except.ok.inj (hpassed.symm.trans haddition.passed))
    refine .inr ⟨[], _, _, rfl, .inr ⟨⟨ofString "node", 9000⟩, ?_⟩, .inl ⟨_, hmoves, by decide⟩, not_false, trivial⟩
    obtain ⟨c', hc, hremoval, haddition'⟩ := hmoves
    exact ⟨c', hc, hremoval, haddition'.toAdmits⟩
  · exact fun hnone => absurd hmoves (hnone 9 _)

theorem renamed_node_kept : Reconciliation.KeepsPeer (fun _ => false) (fun _ => none) (answeringNine fun _ => .applied)
    ⟨sampleStart (fun _ => .applied) silentNode, nodeIsNine⟩ (run samplePeerStep emptyNode silentNode)
      (sampleAfter (fun _ => .applied) silentNode) := by
  have hrefresh := reconciliation_keeps_peer_iff (fun _ => false) (fun _ => none) {} {} singleNodeConfig silentNode {}
    .empty (answeringNine fun _ => .applied) rfl
  have hreached : ((run samplePeerStep emptyNode silentNode).cluster.any fun c =>
      nodeIsNine ∈ (refreshPass (fun _ => false) (fun _ => none) (run samplePeerStep emptyNode silentNode) c {} .empty
        (answeringNine fun _ => .applied)).reconciliations &&
      c.peerManager.manualPeers.find? 2 = some ⟨⟨ofString "node", 9000⟩, 0⟩) = true := by decide +kernel
  obtain ⟨c, hcluster, hc⟩ := Option.any_eq_true _ _ |>.mp hreached
  obtain ⟨hmem, hmanual⟩ := Bool.and_eq_true_iff.mp hc
  obtain ⟨-, -, hiff⟩ := hrefresh c nodeIsNine _ hcluster (of_decide_eq_true hmem) (of_decide_eq_true hmanual)
  change ∀ m ∈ rounds _ _ _ (sampleStart _ _) (sampleChanges _ _), _ → (_ ↔ _) at hiff
  rw [sampleChanges_silentNode] at hiff
  refine (hiff _ (List.mem_singleton_self _) rfl).mpr ?_
  have hsurvives := survives_sample
  rw [← sampleChanges_silentNode] at hsurvives
  exact hsurvives

theorem refused_node_lost :
    (run samplePeerStep emptyNode silentNode).addressOf 2 = some (ofString "node:9000") ∧
      ((sampleAfter refusing silentNode).cluster.any fun c =>
        c.peerManager.manualPeers.entries = [] && c.peerManager.discoveredPeers.entries = []) = true ∧
      ∃ m ∈ rounds (fun _ => false) (fun _ => none) (answeringNine refusing) (sampleStart refusing silentNode)
        (sampleChanges refusing silentNode), m.candidate = nodeIsNine ∧
          ¬ m.KeepsPeer (fun _ => false) (fun _ => none) (answeringNine refusing)
            (run samplePeerStep emptyNode silentNode) (sampleAfter refusing silentNode) := by
  refine ⟨by decide +kernel, by decide +kernel, ⟨sampleStart refusing silentNode, nodeIsNine⟩, ?_, rfl,
    fun hkeeps => ?_⟩
  · have hchanges : sampleChanges refusing silentNode = [.reconcile nodeIsNine, .prune [2]] := by decide +kernel
    rw [hchanges]
    exact List.mem_singleton_self _
  · have hfailed : (Reconciliation.added (fun _ => false) (fun _ => none) (answeringNine refusing)
        ⟨sampleStart refusing silentNode, nodeIsNine⟩).2 = false := by decide +kernel
    have hgone : (sampleAfter refusing silentNode).addressOf 2 = none := by decide +kernel
    have hstayed := (hkeeps.stayed fun hboth => absurd hboth.2 (Bool.eq_false_iff.mp hfailed)).1
    exact absurd (hgone.symm.trans hstayed) (Option.some_ne_none _).symm

end Samples

end Tightrope.Bridge
