import Tightrope.Core.Ascii
import Tightrope.Core.HostPort
import Tightrope.Library.MachineWords

namespace Tightrope.Bridge

open Bytes Tightrope.Core MachineWords

structure ClusterConfig where
  clusterName : Bytes
  siteId : UInt32 := 1
  syncPort : UInt16 := 0
  discoveryEnabled : Bool := false
  conflictResolution : Bytes := ofString "lww"
  journalRetentionDays : UInt32 := 30
  manualPeers : List Bytes := []
  requireHandshakeAuth : Bool := true
  clusterSharedSecret : Bytes := []
  tlsEnabled : Bool := true
  tlsVerifyPeer : Bool := true
  tlsCaCertificatePath : Bytes := []
  tlsCertificateChainPath : Bytes := []
  tlsPrivateKeyPath : Bytes := []
  tlsPinnedPeerCertificateSha256 : Bytes := []
  syncSchemaVersion : UInt32 := 1
  minSupportedSyncSchemaVersion : UInt32 := 1
  allowSchemaDowngrade : Bool := false
  peerProbeEnabled : Bool := true
  peerProbeIntervalMs : UInt32 := 5000
  peerProbeTimeoutMs : UInt32 := 500
  peerProbeMaxPerRefresh : UInt32 := 2
  peerProbeFailClosed : Bool := true
  peerProbeFailClosedFailures : UInt32 := 3
  deriving DecidableEq

section Environment

-- `std::getenv`
variable (getenv : Bytes → Option Bytes)

def readEnvNonempty (name : Bytes) : Option Bytes :=
  ((getenv name).filter (· ≠ [])).map trimAscii |>.filter (· ≠ [])

def parsePositiveU64 (value : Bytes) : Option UInt64 := (parsePositiveBelow (2 ^ 64) value).map UInt64.ofNat

def parsePositiveU32 (value : Bytes) : Option UInt32 := (parsePositiveBelow (2 ^ 32) value).map UInt32.ofNat

def readEnvPositiveU64 (name : Bytes) (fallback : UInt64) : UInt64 :=
  ((readEnvNonempty getenv name).bind parsePositiveU64).getD fallback

def readEnvBool (name : Bytes) (fallback : Bool) : Bool :=
  match readEnvNonempty getenv name with
  | none => fallback
  | some raw =>
    let normalized := toLowerAscii (trimAscii raw)
    if normalized ∈ ["1", "true", "yes", "on"].map ofString then true
    else if normalized ∈ ["0", "false", "no", "off"].map ofString then false
    else fallback

def normalizeConflictResolution (strategy : Bytes) : Bytes :=
  let normalized := toLowerAscii (trimAscii strategy)
  if normalized = ofString "site_priority" then ofString "site_priority"
  else if normalized = ofString "field_merge" then ofString "field_merge"
  else ofString "lww"

def orEnv (value name : Bytes) : Bytes := if value = [] then (readEnvNonempty getenv name).getD value else value

def applyClusterSecurityEnvOverrides (config : ClusterConfig) : ClusterConfig :=
  { config with
    clusterSharedSecret := orEnv getenv config.clusterSharedSecret (ofString "TIGHTROPE_CLUSTER_SHARED_SECRET")
    tlsCaCertificatePath := orEnv getenv config.tlsCaCertificatePath (ofString "TIGHTROPE_SYNC_TLS_CA_CERT_PATH")
    tlsCertificateChainPath := orEnv getenv config.tlsCertificateChainPath
      (ofString "TIGHTROPE_SYNC_TLS_CERT_CHAIN_PATH")
    tlsPrivateKeyPath := orEnv getenv config.tlsPrivateKeyPath (ofString "TIGHTROPE_SYNC_TLS_PRIVATE_KEY_PATH")
    tlsPinnedPeerCertificateSha256 :=
      orEnv getenv config.tlsPinnedPeerCertificateSha256 (ofString "TIGHTROPE_SYNC_TLS_PINNED_PEER_SHA256") }

def resolvedConfig (config : ClusterConfig) : ClusterConfig :=
  applyClusterSecurityEnvOverrides getenv { config with
    conflictResolution := normalizeConflictResolution config.conflictResolution
    clusterSharedSecret := trimAscii config.clusterSharedSecret }

end Environment

def requiresPeerSecurity (config : ClusterConfig) : Bool := config.discoveryEnabled || !config.manualPeers.isEmpty

def validateReplicationSecurity (tlsError : Option Bytes) (config : ClusterConfig) : Option Bytes :=
  if config.syncSchemaVersion = 0 then ofString "sync_schema_version must be >= 1"
  else if config.minSupportedSyncSchemaVersion = 0 then ofString "min_supported_sync_schema_version must be >= 1"
  else if config.minSupportedSyncSchemaVersion > config.syncSchemaVersion then
    ofString "min_supported_sync_schema_version must be <= sync_schema_version"
  else if config.peerProbeIntervalMs = 0 then ofString "peer_probe_interval_ms must be >= 1"
  else if config.peerProbeTimeoutMs = 0 then ofString "peer_probe_timeout_ms must be >= 1"
  else if config.peerProbeMaxPerRefresh = 0 then ofString "peer_probe_max_per_refresh must be >= 1"
  else if config.peerProbeFailClosedFailures = 0 then ofString "peer_probe_fail_closed_failures must be >= 1"
  else if config.peerProbeFailClosed && !config.peerProbeEnabled then
    ofString "peer_probe_enabled must be true when peer_probe_fail_closed is enabled"
  else if requiresPeerSecurity config = false then none
  else if config.requireHandshakeAuth = false then ofString "peer networking requires handshake auth"
  else if config.clusterSharedSecret = [] then
    ofString "peer networking requires cluster_shared_secret (or TIGHTROPE_CLUSTER_SHARED_SECRET)"
  else if config.tlsEnabled then tlsError.map fun error => ofString "invalid cluster TLS config: " ++ error
  else none

structure PeerProbePolicy where
  enabled : Bool := true
  intervalMs : UInt64 := 5000
  timeoutMs : UInt64 := 500
  maxProbesPerRefresh : UInt64 := 2
  failClosed : Bool := true
  failClosedFailures : UInt64 := 3
  deriving DecidableEq

structure ReplicationPeerPolicy where
  heartbeatIntervalMs : UInt64 := 1000
  disconnectAfterFailures : UInt64 := 3
  unreachableAfterFailures : UInt64 := 10
  evictAfterFailures : UInt64 := 100
  evictionCooldownMs : UInt64 := 10000
  deriving DecidableEq

section Policies

variable (getenv : Bytes → Option Bytes)

def readPeerProbePolicy (config : ClusterConfig) : PeerProbePolicy :=
  let failClosed := readEnvBool getenv (ofString "TIGHTROPE_SYNC_PEER_PROBE_FAIL_CLOSED") config.peerProbeFailClosed
  { enabled :=
      readEnvBool getenv (ofString "TIGHTROPE_SYNC_PEER_PROBE_ENABLED") config.peerProbeEnabled || failClosed
    intervalMs := readEnvPositiveU64 getenv (ofString "TIGHTROPE_SYNC_PEER_PROBE_INTERVAL_MS")
      (max 1 config.peerProbeIntervalMs.toUInt64)
    timeoutMs := readEnvPositiveU64 getenv (ofString "TIGHTROPE_SYNC_PEER_PROBE_TIMEOUT_MS")
      (max 1 config.peerProbeTimeoutMs.toUInt64)
    maxProbesPerRefresh := max 1 (readEnvPositiveU64 getenv (ofString "TIGHTROPE_SYNC_PEER_PROBE_MAX_PER_REFRESH")
      (max 1 config.peerProbeMaxPerRefresh.toUInt64))
    failClosed
    failClosedFailures := max 1 (readEnvPositiveU64 getenv
      (ofString "TIGHTROPE_SYNC_PEER_PROBE_FAIL_CLOSED_FAILURES") (max 1 config.peerProbeFailClosedFailures.toUInt64)) }

def readReplicationPeerPolicy : ReplicationPeerPolicy :=
  let disconnect := max 1 (readEnvPositiveU64 getenv (ofString "TIGHTROPE_SYNC_DEAD_PEER_DISCONNECT_FAILURES") 3)
  let unreachable :=
    max disconnect (readEnvPositiveU64 getenv (ofString "TIGHTROPE_SYNC_DEAD_PEER_UNREACHABLE_FAILURES") 10)
  { heartbeatIntervalMs := readEnvPositiveU64 getenv (ofString "TIGHTROPE_SYNC_HEARTBEAT_INTERVAL_MS") 1000
    disconnectAfterFailures := disconnect
    unreachableAfterFailures := unreachable
    evictAfterFailures :=
      max unreachable (readEnvPositiveU64 getenv (ofString "TIGHTROPE_SYNC_DEAD_PEER_EVICTION_FAILURES") 100)
    evictionCooldownMs := readEnvPositiveU64 getenv (ofString "TIGHTROPE_SYNC_DEAD_PEER_EVICTION_COOLDOWN_MS") 10000 }

theorem unreachable_le_evict (getenv : Bytes → Option Bytes) :
    (readReplicationPeerPolicy getenv).unreachableAfterFailures ≤
      (readReplicationPeerPolicy getenv).evictAfterFailures :=
  le_max_left _ _

theorem disconnect_le_unreachable (getenv : Bytes → Option Bytes) :
    (readReplicationPeerPolicy getenv).disconnectAfterFailures ≤
      (readReplicationPeerPolicy getenv).unreachableAfterFailures :=
  le_max_left _ _

theorem one_le_failClosedFailures (config : ClusterConfig) :
    1 ≤ (readPeerProbePolicy getenv config).failClosedFailures :=
  le_max_left _ _

theorem one_le_disconnect (getenv : Bytes → Option Bytes) :
    1 ≤ (readReplicationPeerPolicy getenv).disconnectAfterFailures :=
  le_max_left _ _

end Policies

end Tightrope.Bridge
