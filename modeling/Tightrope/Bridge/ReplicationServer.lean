import Tightrope.Bridge.LivePeers
import Tightrope.Sync.Transport.ReplicationIngress

namespace Tightrope.Bridge

open Bytes Tightrope.Core MachineWords Sync Sync.Discovery Sync.Transport

def ingressRequest (config : ClusterConfig) : ApplyWireBatchRequest where
  clusterSharedSecret := config.clusterSharedSecret
  requireHandshakeAuth := config.requireHandshakeAuth
  localSchemaVersion := config.syncSchemaVersion
  allowSchemaDowngrade := config.allowSchemaDowngrade
  minSupportedSchemaVersion := config.minSupportedSyncSchemaVersion
  appliedValue := 2

def ingressConfig : ReplicationIngressConfig where
  handshakeChannel := 1
  replicationChannel := 2
  requireInitialHandshake := true
  rejectUnknownChannels := true
  maxFramesPerIngest := 8

structure Connection where
  session : ReplicationIngressSession
  closed : Bool := false

structure ServedNode where
  bridge : Bridge := {}
  ingress : IngressState := { journal := .empty }
  connections : FlatMap ℕ Connection := .empty

inductive ServedStep where
  | command (command : ClusterCommand)
  | disable
  | connect (id : ℕ)
  | receive (id : ℕ) (bytes : Bytes) (ws : ℕ → Surroundings)
  | drain (id : ℕ) (ws : ℕ → Surroundings)
  | hangUp (id : ℕ)
  | refresh (call : RefreshCall)

def ServedStep.connection? : ServedStep → Option ℕ
  | .connect id => some id
  | .receive id _ _ => some id
  | .drain id _ => some id
  | .hangUp id => some id
  | _ => none

structure PeerStanding where
  siteId : UInt32
  state : PeerState
  lastHeartbeatAt : Option UInt64
  deriving DecidableEq

structure Standing where
  peers : List PeerStanding
  evictionCandidates : List UInt32
  deriving DecidableEq

def standingOf (pass : RefreshPass) : Standing where
  peers := pass.statuses.map fun item => ⟨item.siteId, item.state, item.lastHeartbeatAt⟩
  evictionCandidates := pass.evictionCandidates

namespace ServedNode

variable (isAddress : Bytes → Bool) (getenv : Bytes → Option Bytes) (lz4 : Lz4) (hmacSha256 : Bytes → Bytes → Bytes)
  (sha256 : Bytes → Bytes)

def restartsListener (b : Bridge) : ClusterCommand → Bool
  | .enable env config =>
    b.enableError env config = none && validateReplicationSecurity env.tlsError (resolvedConfig getenv config) = none
  | _ => false

def closeAll (connections : FlatMap ℕ Connection) : FlatMap ℕ Connection :=
  connections.map fun _ connection => { connection with closed := true }

def connect (s : ServedNode) (id : ℕ) : ServedNode :=
  match s.bridge.cluster with
  | none => s
  | some c =>
    { s with
      connections := s.connections.insert id { session := .create true (ingressRequest c.config) ingressConfig } }

def callSession (s : ServedNode) (id : ℕ) (call : SessionState → SessionState × ReplicationIngressOutcome) :
    ServedNode :=
  match s.connections.find? id with
  | none => s
  | some connection =>
    if connection.closed then s
    else
      let called := call { session := connection.session, ingress := s.ingress }
      { s with
        ingress := called.1.ingress
        connections := s.connections.insert id ⟨called.1.session, !called.2.ok⟩ }

def hangUp (s : ServedNode) (id : ℕ) : ServedNode :=
  match s.connections.find? id with
  | none => s
  | some connection => { s with connections := s.connections.insert id { connection with closed := true } }

def step (s : ServedNode) : ServedStep → ServedNode
  | .command command =>
    { s with
      bridge := (s.bridge.execute isAddress getenv command).1
      connections := if restartsListener getenv s.bridge command then closeAll s.connections else s.connections }
  | .disable => { s with bridge := s.bridge.clusterDisable, connections := closeAll s.connections }
  | .connect id => s.connect id
  | .receive id bytes ws => s.callSession id (SessionState.ingest lz4 hmacSha256 sha256 ws bytes)
  | .drain id ws => s.callSession id (SessionState.drain lz4 hmacSha256 sha256 ws)
  | .hangUp id => s.hangUp id
  | .refresh call =>
    { s with
      bridge := (refreshClusterPeers isAddress getenv s.bridge s.ingress.inflight s.ingress.telemetry call).bridge }

def standing? (s : ServedNode) (call : RefreshCall) : Option Standing :=
  s.bridge.cluster.map fun c =>
    standingOf (refreshPass isAddress getenv s.bridge c s.ingress.inflight s.ingress.telemetry call)

def observe (s : ServedNode) : ServedStep → Option Standing
  | .refresh call => s.standing? isAddress getenv call
  | _ => none

end ServedNode

end Tightrope.Bridge
