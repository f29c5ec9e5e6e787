import Tightrope.Bridge.ClusterConfig
import Tightrope.Sync.ConflictResolver
import Tightrope.Sync.Discovery.PeerManager

namespace Tightrope.Bridge

open Bytes Tightrope.Core MachineWords Sync Sync.Discovery

inductive PeerState where
  | connected
  | disconnected
  | unreachable
  deriving DecidableEq

structure RaftNode where
  running : Bool := true
  members : FlatMap UInt32 Bytes := .empty
  deriving DecidableEq

-- A probe of a site, in the order in which they were made. The source keeps only the maps of `ActiveCluster`.
structure ProbeRecord where
  siteId : UInt32
  unixMs : UInt64
  ok : Bool
  deriving DecidableEq

structure ActiveCluster where
  config : ClusterConfig
  peerManager : PeerManager
  raftNode : RaftNode := {}
  nextPeerSiteId : UInt32 := 1
  lastPeerProbeUnixMs : FlatMap UInt32 UInt64 := .empty
  peerProbeLastDurationMs : FlatMap UInt32 UInt64 := .empty
  peerProbeFailures : FlatMap UInt32 UInt64 := .empty
  peerProbeLastError : FlatMap UInt32 Bytes := .empty
  prevPeerStates : FlatMap UInt32 PeerState := .empty
  probesMade : List ProbeRecord := []
  deriving DecidableEq

end Tightrope.Bridge

namespace Tightrope

open Bytes Bridge Sync

structure Bridge where
  running : Bool := true
  lastError : Bytes := []
  cluster : Option ActiveCluster := none
  runtimeConflictResolution : RuntimeConflictResolution := .lww
  autoCompactRetentionOverrideMs : Option UInt64 := none
  deadPeerEvictionLastAttemptMs : FlatMap UInt32 UInt64 := .empty
  deriving DecidableEq

end Tightrope

namespace Tightrope.Bridge

open Bytes Tightrope.Core MachineWords Sync Sync.Discovery

structure PeerProbeResult where
  ok : Bool := false
  error : Bytes := []
  durationMs : UInt64 := 0
  remoteSiteId : Option UInt32 := none
  deriving DecidableEq

inductive RaftReply where
  | applied
  | refused (error : Bytes)
  deriving DecidableEq

section Membership

def isRetryableMembershipError (error : Bytes) : Bool :=
  containsText error (ofString "configuration change") || containsText error (ofString "being added") ||
    containsText error (ofString "being removed") || containsText error (ofString "Operation is in progress")

def kMembershipChangeMaxAttempts : ℕ := 40

def attemptMembershipChange (replies : ℕ → RaftReply) : ℕ → ℕ → Bytes → Except Bytes Unit
  | _, 0, raftError => .error raftError
  | attempt, left + 1, _ =>
    match replies attempt with
    | .applied => .ok ()
    | .refused raftError =>
      if containsText raftError (ofString "not leader") || isRetryableMembershipError raftError then
        attemptMembershipChange replies (attempt + 1) left raftError
      else .error raftError

def membershipChange (replies : ℕ → RaftReply) : Except Bytes Unit :=
  attemptMembershipChange replies 0 kMembershipChangeMaxAttempts []

def raftEndpointFromSyncEndpoint (endpoint : PeerEndpoint) (siteId : UInt32) : Option Bytes :=
  if siteId = 0 ∨ endpoint.port = 0 then none
  else
    let raftPort := UInt32.ofNat endpoint.port.toNat + siteId
    if raftPort = 0 ∨ raftPort > 65535 then none
    else some (endpoint.host ++ [colon] ++ decimal raftPort.toNat)

end Membership

structure AddPeerEnv where
  probe : PeerProbeResult := {}
  replies : ℕ → RaftReply := fun _ => .applied
  nowMs : UInt64 := 0

section Commands

variable (isAddress : Bytes → Bool) (getenv : Bytes → Option Bytes)

def fail (b : Bridge) (error : Bytes) : Bridge × Bool := ({ b with lastError := error }, false)

def succeed (b : Bridge) : Bridge × Bool := ({ b with lastError := [] }, true)

def shouldProbePeerOnAdd : Bool := readEnvBool getenv (ofString "TIGHTROPE_SYNC_PROBE_PEER_ON_ADD") false

def firstUnusedSiteId (used : List UInt32) : ℕ → UInt32 → Option UInt32
  | 0, _ => none
  | rounds + 1, siteId =>
    if siteId ∈ used then
      if siteId = 0xFFFFFFFF then none else firstUnusedSiteId used rounds (siteId + 1)
    else some siteId

def ActiveCluster.unusedSiteId (c : ActiveCluster) : Option UInt32 :=
  let used := c.config.siteId :: c.peerManager.membershipProposals.map PeerRecord.siteId
  firstUnusedSiteId used (used.length + 1) (max 1 c.nextPeerSiteId)

def ActiveCluster.admitPeer (c : ActiveCluster) (env : AddPeerEnv) (address : Bytes) :
    Except Bytes (UInt32 × PeerEndpoint) :=
  if c.config.requireHandshakeAuth = false ∨ c.config.clusterSharedSecret = [] then
    .error (ofString "cluster shared secret is required before adding peers")
  else match parseHostPort isAddress address with
  | none => .error (ofString "invalid endpoint: " ++ address)
  | some endpoint =>
    if env.probe.ok = false ∧ shouldProbePeerOnAdd getenv = true then
      .error (ofString "peer transport probe failed: " ++ env.probe.error)
    else match env.probe.remoteSiteId.filter fun _ => env.probe.ok with
    | none =>
      match c.unusedSiteId with
      | none => .error (ofString "no available site_id for peer")
      | some siteId => .ok (siteId, endpoint)
    | some siteId =>
      if siteId = c.config.siteId then
        .error (ofString "peer endpoint resolves to local site_id: " ++ decimal siteId.toNat)
      else match c.peerManager.endpoint? siteId with
      | none => .ok (siteId, endpoint)
      | some existing =>
        if hostPortToString existing ≠ address then
          .error (ofString "peer site_id conflict: " ++ decimal siteId.toNat ++ ofString " already maps to " ++
            hostPortToString existing)
        else .ok (siteId, endpoint)

def ActiveCluster.noteAddProbe (c : ActiveCluster) (siteId : UInt32) (env : AddPeerEnv) : ActiveCluster :=
  { c with
    nextPeerSiteId := if siteId < 0xFFFFFFFF then max c.nextPeerSiteId (siteId + 1) else c.nextPeerSiteId
    lastPeerProbeUnixMs := c.lastPeerProbeUnixMs.insert siteId env.nowMs
    peerProbeLastDurationMs := c.peerProbeLastDurationMs.insert siteId env.probe.durationMs
    peerProbeFailures := c.peerProbeFailures.insert siteId (if env.probe.ok then 0 else 1)
    peerProbeLastError := if env.probe.ok then c.peerProbeLastError.erase siteId
      else c.peerProbeLastError.insert siteId env.probe.error
    probesMade := c.probesMade ++ [⟨siteId, env.nowMs, env.probe.ok⟩] }

def ActiveCluster.withPeers (c : ActiveCluster) (peers : PeerManager) : ActiveCluster := { c with peerManager := peers }

def ActiveCluster.joinRaft (c : ActiveCluster) (siteId : UInt32) (raftEndpoint : Bytes) : ActiveCluster :=
  { c with raftNode := { c.raftNode with members := c.raftNode.members.insert siteId raftEndpoint } }

def ActiveCluster.leaveRaft (c : ActiveCluster) (siteId : UInt32) : ActiveCluster :=
  { c with raftNode := { c.raftNode with members := c.raftNode.members.erase siteId } }

def ActiveCluster.forgetProbes (c : ActiveCluster) (siteId : UInt32) : ActiveCluster :=
  { c with
    lastPeerProbeUnixMs := c.lastPeerProbeUnixMs.erase siteId
    peerProbeLastDurationMs := c.peerProbeLastDurationMs.erase siteId
    peerProbeFailures := c.peerProbeFailures.erase siteId
    peerProbeLastError := c.peerProbeLastError.erase siteId }

def withCluster (b : Bridge) (c : ActiveCluster) : Bridge := { b with cluster := some c }

def proposePeer (b : Bridge) (c : ActiveCluster) (env : AddPeerEnv) (address : Bytes) (siteId : UInt32)
    (endpoint : PeerEndpoint) : Bridge × Bool :=
  let withdrawn := b.withCluster (c.withPeers (c.peerManager.removePeer siteId).1)
  if c.raftNode.running = false then withdrawn.fail (ofString "raft node is not running")
  else match raftEndpointFromSyncEndpoint endpoint siteId with
  | none => withdrawn.fail (ofString "failed to derive raft endpoint from peer sync endpoint: " ++ address)
  | some raftEndpoint =>
    match membershipChange env.replies with
    | .ok () => (b.withCluster ((c.joinRaft siteId raftEndpoint).noteAddProbe siteId env)).succeed
    | .error raftError =>
      if isRetryableMembershipError raftError then (b.withCluster (c.noteAddProbe siteId env)).succeed
      else withdrawn.fail (ofString "raft membership change failed: " ++ raftError)

def clusterAddPeer (b : Bridge) (env : AddPeerEnv) (address : Bytes) : Bridge × Bool :=
  match b.cluster with
  | none => b.fail (ofString "cluster is not enabled")
  | some c =>
    match c.admitPeer isAddress getenv env address with
    | .error error => b.fail error
    | .ok (siteId, endpoint) =>
      let added := c.peerManager.addManualPeer isAddress siteId endpoint env.nowMs
      if added.2 = false then b.fail (ofString "peer manager rejected endpoint: " ++ address)
      else b.proposePeer (c.withPeers added.1) env address siteId endpoint

def dropPeer (b : Bridge) (c : ActiveCluster) (siteId : UInt32) : Bridge × Bool :=
  let removed := c.peerManager.removePeer siteId
  if removed.2 = false then
    (b.withCluster (c.withPeers removed.1)).fail
      (ofString "peer manager failed to remove peer: " ++ decimal siteId.toNat)
  else (b.withCluster ((c.withPeers removed.1).forgetProbes siteId)).succeed

def clusterRemovePeer (b : Bridge) (replies : ℕ → RaftReply) (siteId : Bytes) : Bridge × Bool :=
  match b.cluster with
  | none => b.fail (ofString "cluster is not enabled")
  | some c =>
    match parsePositiveU32 siteId with
    | none => b.fail (ofString "invalid site_id: " ++ siteId)
    | some parsed =>
      if (c.peerManager.endpoint? parsed).isNone then b.fail (ofString "peer not found: " ++ decimal parsed.toNat)
      else if c.raftNode.running = false then b.fail (ofString "raft node is not running")
      else match membershipChange replies with
      | .ok () => b.dropPeer (c.leaveRaft parsed) parsed
      | .error raftError =>
        if isRetryableMembershipError raftError then b.dropPeer c parsed
        else b.fail (ofString "raft membership change failed: " ++ raftError)

def clusterDisable (b : Bridge) : Bridge :=
  match b.cluster with
  | none => { b with lastError := [] }
  | some _ => { b with cluster := none, deadPeerEvictionLastAttemptMs := .empty, lastError := [] }

structure EnableEnv where
  advertiseHost : Option Bytes := none
  tlsError : Option Bytes := none
  raftStarts : Bool := true
  leaderObserved : Bool := true
  raftRestarts : Bool := true
  leaderObservedAfterRestart : Bool := true
  listenerError : Option Bytes := none
  raftMembers : FlatMap UInt32 Bytes := .empty
  host : Bytes := []
  adds : ℕ → AddPeerEnv := fun _ => {}

def EnableEnv.startError (env : EnableEnv) (config : ClusterConfig) : Option Bytes :=
  let canAttemptRecovery := config.manualPeers.isEmpty
  if env.raftStarts = false then some (ofString "raft node failed to start")
  else if env.leaderObserved = false ∧ canAttemptRecovery = true ∧ env.raftRestarts = false then
    some (ofString "raft node failed to start after stale-state recovery")
  else if env.leaderObserved = false ∧ canAttemptRecovery = true ∧ env.leaderObservedAfterRestart = false then
    some (ofString "raft leader unavailable and no bootstrap peers are configured")
  else env.listenerError.map fun error => ofString "replication ingress listener failed on " ++ env.host ++ [colon] ++
    decimal config.syncPort.toNat ++ ofString ": " ++ error

def enableError (b : Bridge) (env : EnableEnv) (config : ClusterConfig) : Option Bytes :=
  if b.running = false then some (ofString "bridge is not running")
  else if config.clusterName = [] then some (ofString "cluster name is required")
  else if config.siteId = 0 then some (ofString "site_id must be non-zero")
  else if config.syncPort = 0 then some (ofString "sync_port must be non-zero")
  else if config.journalRetentionDays = 0 ∨ config.journalRetentionDays > 3650 then
    some (ofString "journal_retention_days must be between 1 and 3650")
  else if config.discoveryEnabled = true ∧ env.advertiseHost = none then
    some (ofString "cluster discovery requires a routable host; set TIGHTROPE_HOST or TIGHTROPE_CONNECT_ADDRESS")
  else none

def kMsPerDay : UInt64 := 24 * 60 * 60 * 1000

def applySettings (b : Bridge) (config : ClusterConfig) : Bridge :=
  { b with
    runtimeConflictResolution := parseRuntimeConflictResolution config.conflictResolution
    autoCompactRetentionOverrideMs := some (config.journalRetentionDays.toUInt64 * kMsPerDay) }

def EnableEnv.newCluster (env : EnableEnv) (config : ClusterConfig) : ActiveCluster where
  config := config
  peerManager := { clusterName := config.clusterName }
  raftNode := { members := env.raftMembers }
  nextPeerSiteId := config.siteId + 1

def addManualPeers (b : Bridge) (adds : ℕ → AddPeerEnv) : ℕ → List Bytes → Bridge × Bool
  | _, [] => b.succeed
  | i, peer :: peers =>
    let added := b.clusterAddPeer isAddress getenv (adds i) peer
    if added.2 then added.1.addManualPeers adds (i + 1) peers
    else ({ added.1.clusterDisable with lastError := added.1.lastError }, false)

def clusterEnable (b : Bridge) (env : EnableEnv) (config : ClusterConfig) : Bridge × Bool :=
  match b.enableError env config with
  | some error => b.fail error
  | none =>
    let resolved := resolvedConfig getenv config
    let b := b.applySettings resolved
    match validateReplicationSecurity env.tlsError resolved with
    | some error => b.fail error
    | none =>
      let b := if b.cluster.isSome then b.clusterDisable else b
      match env.startError resolved with
      | some error => b.fail error
      | none => (b.withCluster (env.newCluster resolved)).addManualPeers isAddress getenv env.adds 0
        resolved.manualPeers

end Commands

end Tightrope.Bridge
