import Tightrope.Bridge.ClusterCommands
import Tightrope.Library.Runs
import Tightrope.Sync.PeerIngress

namespace Tightrope.Bridge

open Bytes Tightrope.Core MachineWords Runs Sync Sync.Discovery

inductive ClusterRole where
  | standalone
  | follower
  | candidate
  | leader
  deriving DecidableEq

-- The ingress counters are copied one by one in the source; here the snapshot they come from is kept whole.
structure PeerStatus where
  siteId : UInt32
  address : Bytes
  state : PeerState := .disconnected
  role : ClusterRole := .follower
  manual : Bool := false
  matchIndex : UInt64 := 0
  replicationLagEntries : UInt64 := 0
  consecutiveHeartbeatFailures : UInt64 := 0
  consecutiveProbeFailures : UInt64 := 0
  lastHeartbeatAt : Option UInt64 := none
  lastProbeAt : Option UInt64 := none
  lastProbeDurationMs : Option UInt64 := none
  lastProbeError : Option Bytes := none
  ingress : Option PeerIngressTelemetry := none

structure SiteIdReconciliation where
  observedSiteId : UInt32
  remoteSiteId : UInt32
  address : Bytes
  deriving DecidableEq

structure RefreshCall where
  nowMs : UInt64
  discovered : List DiscoveredPeer := []
  role : ClusterRole := .leader
  leaderId : Option UInt32 := none
  commitIndex : UInt64 := 0
  matchIndex : FlatMap UInt32 UInt64 := .empty
  probe : UInt32 → PeerEndpoint → PeerProbeResult := fun _ _ => {}
  evictionReply : UInt32 → RaftReply := fun _ => .applied
  removeReplies : UInt32 → ℕ → RaftReply := fun _ _ => .applied
  addEnv : UInt32 → AddPeerEnv := fun _ => {}

section Policy

def heartbeatFailuresSince (nowMs lastHeartbeatMs intervalMs : UInt64) : UInt64 :=
  if intervalMs = 0 ∨ nowMs ≤ lastHeartbeatMs then 0 else (nowMs - lastHeartbeatMs) / intervalMs

def elapsed (lastMs : Option UInt64) (nowMs periodMs : UInt64) : Bool :=
  lastMs.all fun last => last ≤ nowMs && periodMs ≤ nowMs - last

def shouldAttemptDeadPeerEviction (attempts : FlatMap UInt32 UInt64) (siteId : UInt32) (nowMs cooldownMs : UInt64) :
    Bool :=
  elapsed (attempts.find? siteId) nowMs cooldownMs

def syncEndpointFromRaftEndpoint (isAddress : Bytes → Bool) (raftEndpoint : Bytes) (siteId : UInt32) :
    Option PeerEndpoint :=
  if siteId = 0 then none
  else (parseHostPort isAddress raftEndpoint).bind fun parsed =>
    if parsed.port.toNat ≤ siteId.toNat then none
    else some ⟨parsed.host, UInt16.ofNat (parsed.port.toNat - siteId.toNat)⟩

end Policy

section Peers

variable (isAddress : Bytes → Bool)

def kDiscoveryPruneWindowMs : UInt64 := 30000

def ActiveCluster.afterDiscovery (c : ActiveCluster) (call : RefreshCall) : ActiveCluster :=
  if c.config.discoveryEnabled then
    c.withPeers ((c.peerManager.refreshDiscovery isAddress call.discovered).pruneDiscovered
      (if call.nowMs > kDiscoveryPruneWindowMs then call.nowMs - kDiscoveryPruneWindowMs else 0))
  else c

def ActiveCluster.knownSiteIds (c : ActiveCluster) : List UInt32 :=
  (c.peerManager.membershipProposals.map PeerRecord.siteId).filter (· ≠ 0)

def ActiveCluster.raftOnlyPeer (c : ActiveCluster) (server : UInt32 × Bytes) : Option PeerRecord :=
  if server.1 = 0 ∨ server.1 = c.config.siteId ∨ server.1 ∈ c.knownSiteIds then none
  else ((syncEndpointFromRaftEndpoint isAddress server.2 server.1).or (parseHostPort isAddress server.2)).map
    fun endpoint => ⟨server.1, endpoint, true, 0⟩

def ActiveCluster.peersToRefresh (c : ActiveCluster) : List PeerRecord :=
  c.peerManager.membershipProposals ++
    (if c.raftNode.running then c.raftNode.members.entries.filterMap (c.raftOnlyPeer isAddress) else [])

end Peers

structure RefreshContext where
  policy : ReplicationPeerPolicy
  probePolicy : PeerProbePolicy
  call : RefreshCall
  localSiteId : UInt32
  telemetry : UInt32 → Option PeerIngressTelemetry
  attempts : FlatMap UInt32 UInt64

structure RefreshPass where
  cluster : ActiveCluster
  probesAttempted : ℕ := 0
  evictionCandidates : List UInt32 := []
  reconciliations : List SiteIdReconciliation := []
  statuses : List PeerStatus := []

def ActiveCluster.noteProbe (c : ActiveCluster) (siteId : UInt32) (nowMs : UInt64) (probe : PeerProbeResult) :
    ActiveCluster :=
  let prior := (c.peerProbeFailures.find? siteId).getD 0
  { c with
    lastPeerProbeUnixMs := c.lastPeerProbeUnixMs.insert siteId nowMs
    peerProbeLastDurationMs := c.peerProbeLastDurationMs.insert siteId probe.durationMs
    peerProbeFailures := c.peerProbeFailures.insert siteId
      (if probe.ok then 0 else if prior < 0xFFFFFFFFFFFFFFFF then prior + 1 else prior)
    peerProbeLastError := if probe.ok then c.peerProbeLastError.erase siteId
      else c.peerProbeLastError.insert siteId probe.error
    probesMade := c.probesMade ++ [⟨siteId, nowMs, probe.ok⟩] }

namespace RefreshContext

variable (ctx : RefreshContext)

def probeDue (c : ActiveCluster) (siteId : UInt32) : Bool :=
  elapsed (c.lastPeerProbeUnixMs.find? siteId) ctx.call.nowMs ctx.probePolicy.intervalMs

def shouldProbe (pass : RefreshPass) (siteId : UInt32) : Bool :=
  ctx.probePolicy.enabled && pass.probesAttempted < ctx.probePolicy.maxProbesPerRefresh.toNat &&
    ctx.probeDue pass.cluster siteId

def ingressSeen (siteId : UInt32) : Option UInt64 :=
  ((ctx.telemetry siteId).map PeerIngressTelemetry.lastSeenUnixMs).filter (0 < ·)

def roleOf (siteId : UInt32) : ClusterRole := if ctx.call.leaderId = some siteId then .leader else .follower

def livenessIntervalMs (siteId : UInt32) : UInt64 :=
  if (ctx.ingressSeen siteId).isSome then ctx.policy.heartbeatIntervalMs
  else max ctx.policy.heartbeatIntervalMs
    (if ctx.probePolicy.enabled then ctx.probePolicy.intervalMs else ctx.policy.heartbeatIntervalMs)

def failClosedReached (probeFailures : UInt64) : Bool :=
  ctx.probePolicy.failClosed && ctx.probePolicy.failClosedFailures ≤ probeFailures

def stateOf (failures probeFailures : UInt64) (heard : Bool) : PeerState :=
  if ctx.failClosedReached probeFailures then .unreachable
  else if ctx.policy.unreachableAfterFailures ≤ failures then .unreachable
  else if ctx.policy.disconnectAfterFailures ≤ failures then .disconnected
  else if heard then .connected
  else .disconnected

def statusOf (c : ActiveCluster) (peer : PeerRecord) (heardNow : Bool) : PeerStatus :=
  let telemetry := ctx.telemetry peer.siteId
  let lastHeartbeatAt := if heardNow then some ctx.call.nowMs else ctx.ingressSeen peer.siteId
  let probeFailures := (c.peerProbeFailures.find? peer.siteId).getD 0
  let missed := lastHeartbeatAt.elim 0 fun last =>
    heartbeatFailuresSince ctx.call.nowMs last (ctx.livenessIntervalMs peer.siteId)
  let failures := max (telemetry.elim 0 PeerIngressTelemetry.consecutiveFailures) (max missed probeFailures)
  let matchIndex := max (telemetry.elim 0 PeerIngressTelemetry.lastReportedSeqFromPeer)
    ((ctx.call.matchIndex.find? peer.siteId).getD 0)
  { siteId := peer.siteId
    address := hostPortToString peer.endpoint
    state := ctx.stateOf failures probeFailures lastHeartbeatAt.isSome
    role := ctx.roleOf peer.siteId
    manual := peer.manual
    matchIndex
    replicationLagEntries := if ctx.call.commitIndex > matchIndex then ctx.call.commitIndex - matchIndex else 0
    consecutiveHeartbeatFailures := failures
    consecutiveProbeFailures := probeFailures
    lastHeartbeatAt
    lastProbeAt := c.lastPeerProbeUnixMs.find? peer.siteId
    lastProbeDurationMs := c.peerProbeLastDurationMs.find? peer.siteId
    lastProbeError := c.peerProbeLastError.find? peer.siteId
    ingress := telemetry }

def shouldEvict (item : PeerStatus) : Bool :=
  ctx.call.role = .leader && item.role ≠ .leader &&
    (item.state = .unreachable && ctx.policy.evictAfterFailures ≤ item.consecutiveHeartbeatFailures ||
      ctx.failClosedReached item.consecutiveProbeFailures) &&
    shouldAttemptDeadPeerEviction ctx.attempts item.siteId ctx.call.nowMs ctx.policy.evictionCooldownMs

def reconciliation? (peer : PeerRecord) (probe : PeerProbeResult) : Option SiteIdReconciliation :=
  (probe.remoteSiteId.filter fun remote => probe.ok && peer.manual && remote ≠ 0 && remote ≠ peer.siteId &&
    remote ≠ ctx.localSiteId).map fun remote => ⟨peer.siteId, remote, hostPortToString peer.endpoint⟩

def refreshPeer (pass : RefreshPass) (peer : PeerRecord) : RefreshPass :=
  if peer.siteId = ctx.localSiteId then pass
  else
    let probes := ctx.shouldProbe pass peer.siteId
    let probe := ctx.call.probe peer.siteId peer.endpoint
    let c := if probes then pass.cluster.noteProbe peer.siteId ctx.call.nowMs probe else pass.cluster
    let item := ctx.statusOf c peer (probes && probe.ok)
    { cluster := { c with prevPeerStates := c.prevPeerStates.insert peer.siteId item.state }
      probesAttempted := if probes then pass.probesAttempted + 1 else pass.probesAttempted
      evictionCandidates := if ctx.shouldEvict item then pass.evictionCandidates ++ [peer.siteId]
        else pass.evictionCandidates
      reconciliations := if probes then pass.reconciliations ++ (ctx.reconciliation? peer probe).toList
        else pass.reconciliations
      statuses := pass.statuses ++ [item] }

end RefreshContext

section Refresh

variable (isAddress : Bytes → Bool) (getenv : Bytes → Option Bytes)

def refreshContext (b : Bridge) (c : ActiveCluster) (inflight : InflightState) (telemetry : TelemetryMap)
    (call : RefreshCall) : RefreshContext where
  policy := readReplicationPeerPolicy getenv
  probePolicy := readPeerProbePolicy getenv c.config
  call := call
  localSiteId := c.config.siteId
  telemetry := peerIngressTelemetry inflight telemetry
  attempts := b.deadPeerEvictionLastAttemptMs

def refreshPass (b : Bridge) (c : ActiveCluster) (inflight : InflightState) (telemetry : TelemetryMap)
    (call : RefreshCall) : RefreshPass :=
  ((c.afterDiscovery isAddress call).peersToRefresh isAddress).foldl
    (refreshContext getenv b c inflight telemetry call).refreshPeer { cluster := c.afterDiscovery isAddress call }

def reconcileSiteId (call : RefreshCall) (b : Bridge) (candidate : SiteIdReconciliation) : Bridge :=
  let removed := b.clusterRemovePeer (call.removeReplies candidate.observedSiteId)
    (decimal candidate.observedSiteId.toNat)
  if removed.2 then (removed.1.clusterAddPeer isAddress getenv (call.addEnv candidate.observedSiteId)
    candidate.address).1
  else removed.1

def reconcileSiteIds (call : RefreshCall) (b : Bridge) (candidates : List SiteIdReconciliation) : Bridge :=
  if call.role ≠ .leader then b
  else (candidates.filter fun candidate => candidate.observedSiteId ≠ 0 && candidate.remoteSiteId ≠ 0).foldl
    (fun done candidate =>
      if candidate.observedSiteId ∈ done.2 then done
      else (reconcileSiteId isAddress getenv call done.1 candidate, done.2 ++ [candidate.observedSiteId])) (b, [])
    |>.1

def ActiveCluster.pruneProbes (c : ActiveCluster) (active : List UInt32) : ActiveCluster :=
  { c with
    lastPeerProbeUnixMs := c.lastPeerProbeUnixMs.filter fun siteId _ => siteId ∈ active
    peerProbeLastDurationMs := c.peerProbeLastDurationMs.filter fun siteId _ => siteId ∈ active
    peerProbeFailures := c.peerProbeFailures.filter fun siteId _ => siteId ∈ active
    peerProbeLastError := c.peerProbeLastError.filter fun siteId _ => siteId ∈ active }

def evictPeer (call : RefreshCall) (b : Bridge) (siteId : UInt32) : Bridge :=
  match b.cluster, call.evictionReply siteId with
  | some c, .applied =>
    { b with
      cluster := some (((c.leaveRaft siteId).withPeers (c.peerManager.removePeer siteId).1).forgetProbes siteId)
      deadPeerEvictionLastAttemptMs := b.deadPeerEvictionLastAttemptMs.erase siteId }
  | _, _ => { b with deadPeerEvictionLastAttemptMs := b.deadPeerEvictionLastAttemptMs.insert siteId call.nowMs }

def evictionRemovals (call : RefreshCall) (b : Bridge) (candidates : List UInt32) : List UInt32 :=
  if (b.cluster.any fun c => c.raftNode.running) && call.role = .leader then candidates else []

def evictPeers (call : RefreshCall) (b : Bridge) (candidates : List UInt32) : Bridge :=
  (evictionRemovals call b candidates).foldl (evictPeer call) b

def Evicted (call : RefreshCall) (removals : List UInt32) (siteId : UInt32) : Bool :=
  siteId ∈ removals && call.evictionReply siteId = .applied

structure Refreshed where
  bridge : Bridge
  evictionCandidates : List UInt32 := []
  removals : List UInt32 := []
  peers : List PeerStatus := []

def refreshClusterPeers (b : Bridge) (inflight : InflightState) (telemetry : TelemetryMap) (call : RefreshCall) :
    Refreshed :=
  match b.cluster with
  | none => { bridge := b }
  | some c =>
    let pass := refreshPass isAddress getenv b c inflight telemetry call
    let reconciled := reconcileSiteIds isAddress getenv call (b.withCluster pass.cluster) pass.reconciliations
    let active := pass.statuses.map PeerStatus.siteId
    let pruned := { reconciled with cluster := reconciled.cluster.map fun c => c.pruneProbes active }
    let removals := evictionRemovals call pruned pass.evictionCandidates
    { bridge := evictPeers call pruned pass.evictionCandidates
      evictionCandidates := pass.evictionCandidates
      removals
      peers := pass.statuses.filter fun item => !Evicted call removals item.siteId }

end Refresh

/-- The two functions are inverse to each other, and defined where the port leaves room for the site id. -/
def RoutesBothWays (isAddress : Bytes → Bool) (endpoint : PeerEndpoint) (siteId : UInt32) : Prop :=
  ((raftEndpointFromSyncEndpoint endpoint siteId).isSome = true ↔
      0 < siteId.toNat ∧ endpoint.port.toNat + siteId.toNat ≤ 65535) ∧
    ∀ raftEndpoint, raftEndpointFromSyncEndpoint endpoint siteId = some raftEndpoint →
      syncEndpointFromRaftEndpoint isAddress raftEndpoint siteId = some endpoint

section

variable {isAddress : Bytes → Bool} {endpoint : PeerEndpoint} {siteId : UInt32}

theorem toNat_raftPort (endpoint : PeerEndpoint) (siteId : UInt32) :
    (UInt32.ofNat endpoint.port.toNat + siteId).toNat = (endpoint.port.toNat + siteId.toNat) % 2 ^ 32 := by
  have hlt := endpoint.port.toNat_lt
  rw [UInt32.toNat_add, UInt32.toNat_ofNat']
  omega

theorem raftEndpoint_eq_some_iff {raftEndpoint : Bytes} :
    raftEndpointFromSyncEndpoint endpoint siteId = some raftEndpoint ↔
      siteId ≠ 0 ∧ endpoint.port ≠ 0 ∧ 0 < (endpoint.port.toNat + siteId.toNat) % 2 ^ 32 ∧
        (endpoint.port.toNat + siteId.toNat) % 2 ^ 32 ≤ 65535 ∧
        endpoint.host ++ [colon] ++ decimal ((endpoint.port.toNat + siteId.toNat) % 2 ^ 32) = raftEndpoint := by
  have hzero : UInt32.ofNat endpoint.port.toNat + siteId = 0 ↔ (endpoint.port.toNat + siteId.toNat) % 2 ^ 32 = 0 := by
    rw [← toNat_raftPort]
    exact UInt32.toNat_inj.symm
  have hbeyond : UInt32.ofNat endpoint.port.toNat + siteId > 65535 ↔
      65535 < (endpoint.port.toNat + siteId.toNat) % 2 ^ 32 := by
    rw [gt_iff_lt, UInt32.lt_iff_toNat_lt, toNat_raftPort]
    rfl
  simp only [raftEndpointFromSyncEndpoint, hzero, hbeyond, toNat_raftPort]
  split_ifs with h h'
  · simp only [false_iff]
    tauto
  · simp only [false_iff]
    omega
  · rw [Option.some.injEq]
    obtain ⟨hsite, hport⟩ := not_or.mp h
    obtain ⟨hpos, hle⟩ := not_or.mp h'
    exact ⟨fun heq => ⟨hsite, hport, Nat.pos_of_ne_zero hpos, Nat.not_lt.mp hle, heq⟩, fun heq => heq.2.2.2.2⟩

theorem syncEndpoint_of_raftEndpoint (haddress : ∀ text, isAddress text = true → text.head? ≠ some 91)
    (hvalid : isValidHostPort isAddress endpoint = true) (hsite : siteId ≠ 0)
    (hfits : endpoint.port.toNat + siteId.toNat ≤ 65535) :
    syncEndpointFromRaftEndpoint isAddress
      (endpoint.host ++ [colon] ++ decimal (endpoint.port.toNat + siteId.toNat)) siteId = some endpoint := by
  have hport : 0 < endpoint.port.toNat :=
    Nat.pos_of_ne_zero fun hzero => port_ne_zero_of_valid hvalid (UInt16.toNat_inj.mp hzero)
  have hnat : (UInt16.ofNat (endpoint.port.toNat + siteId.toNat)).toNat = endpoint.port.toNat + siteId.toNat := by
    rw [UInt16.toNat_ofNat']
    omega
  have hne : UInt16.ofNat (endpoint.port.toNat + siteId.toNat) ≠ 0 := by
    intro hzero
    rw [hzero] at hnat
    change 0 = _ at hnat
    omega
  have hparse := parseHostPort_plain (isValidHostPort_port hne hvalid)
    (host_unbracketed haddress (isValidHostPort_port hne hvalid))
  rw [hnat] at hparse
  rw [syncEndpointFromRaftEndpoint, if_neg hsite, hparse, Option.bind_some]
  simp only [hnat]
  rw [if_neg (by omega), Nat.add_sub_cancel, UInt16.ofNat_toNat]

/-- The sum of the port and the site id must not pass 2^32: from there on it wraps to a port again. -/
theorem raft_ports_invertible_iff (haddress : ∀ text, isAddress text = true → text.head? ≠ some 91)
    (hvalid : isValidHostPort isAddress endpoint = true) :
    RoutesBothWays isAddress endpoint siteId ↔ endpoint.port.toNat + siteId.toNat ≤ 2 ^ 32 := by
  have hport := port_ne_zero_of_valid hvalid
  have hlt := endpoint.port.toNat_lt
  have hsite : siteId ≠ 0 ↔ 0 < siteId.toNat :=
    ⟨fun hne => Nat.pos_of_ne_zero fun hzero => hne (UInt32.toNat_inj.mp hzero), fun hpos hzero => by
      rw [hzero] at hpos
      exact absurd hpos (by decide)⟩
  constructor
  · rintro ⟨hdefined, -⟩
    by_contra hwraps
    have hbelow := siteId.toNat_lt
    have hsome := hdefined.mp (Option.isSome_iff_exists.mpr
      ⟨_, raftEndpoint_eq_some_iff.mpr ⟨hsite.mpr (by omega), hport, by omega, by omega, rfl⟩⟩)
    omega
  · intro hle
    constructor
    · rw [Option.isSome_iff_exists]
      simp only [raftEndpoint_eq_some_iff]
      constructor
      · rintro ⟨raftEndpoint, hne, -, hpos, hfits, -⟩
        have hsite' := hsite.mp hne
        omega
      · rintro ⟨hpos, hfits⟩
        exact ⟨_, hsite.mpr hpos, hport, by omega, by omega, rfl⟩
    · intro raftEndpoint h
      obtain ⟨hne, -, hpos, hfits, rfl⟩ := raftEndpoint_eq_some_iff.mp h
      have hsum : (endpoint.port.toNat + siteId.toNat) % 2 ^ 32 = endpoint.port.toNat + siteId.toNat := by omega
      rw [hsum]
      exact syncEndpoint_of_raftEndpoint haddress hvalid hne (by omega)

end

def loopback : PeerEndpoint := ⟨ofString "::1", 9400⟩

theorem loopback_routes_both_ways : RoutesBothWays (fun text => text = ofString "::1") loopback 7 := by
  refine (raft_ports_invertible_iff ?_ (by decide)).mpr (by decide)
  intro text h
  rw [of_decide_eq_true h]
  decide

theorem wrapped_port_is_handed_out : ¬ RoutesBothWays (fun text => text = ofString "::1") loopback 4294957897 := by
  rintro ⟨hdefined, -⟩
  exact absurd (hdefined.mp (by decide)) (by decide)

end Tightrope.Bridge
