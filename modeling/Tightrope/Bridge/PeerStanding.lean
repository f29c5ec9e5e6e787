import Tightrope.Bridge.ReplicationServer
import Tightrope.Library.Runs
import Tightrope.Sync.Transport.OpeningFrame

namespace Tightrope.Bridge

open Bytes Tightrope.Core Erasure MachineWords Runs Sync Sync.Discovery Sync.Transport

section Refresh

variable {isAddress : Bytes → Bool} {getenv : Bytes → Option Bytes} {b : Bridge} {c : ActiveCluster}
  {inflight : InflightState} {telemetry telemetry' : TelemetryMap} {call : RefreshCall}

theorem peerIngressTelemetry_congr {siteId : UInt32} (h : telemetry.find? siteId = telemetry'.find? siteId) :
    peerIngressTelemetry inflight telemetry siteId = peerIngressTelemetry inflight telemetry' siteId := by
  rw [peerIngressTelemetry, peerIngressTelemetry, h]

theorem refreshPeer_congr {ctx ctx' : RefreshContext} (hctx : { ctx with telemetry := ctx'.telemetry } = ctx')
    {peer : PeerRecord} (h : ctx.telemetry peer.siteId = ctx'.telemetry peer.siteId) (pass : RefreshPass) :
    ctx.refreshPeer pass peer = ctx'.refreshPeer pass peer := by
  have hstatus (c : ActiveCluster) (heard : Bool) : ctx.statusOf c peer heard = ctx'.statusOf c peer heard := by
    rw [← hctx] at h ⊢
    simp only [RefreshContext.statusOf, RefreshContext.ingressSeen, RefreshContext.livenessIntervalMs, h]
    rfl
  unfold RefreshContext.refreshPeer
  simp only [hstatus]
  rw [← hctx]
  rfl

theorem refreshPass_congr (h : ∀ peer ∈ (c.afterDiscovery isAddress call).peersToRefresh isAddress,
    telemetry.find? peer.siteId = telemetry'.find? peer.siteId) :
    refreshPass isAddress getenv b c inflight telemetry call =
      refreshPass isAddress getenv b c inflight telemetry' call := by
  apply List.foldl_ext
  intro pass peer hpeer
  apply refreshPeer_congr
  · rfl
  · exact peerIngressTelemetry_congr (h peer hpeer)

theorem refreshClusterPeers_congr (h : ∀ c, b.cluster = some c →
    ∀ peer ∈ (c.afterDiscovery isAddress call).peersToRefresh isAddress,
      telemetry.find? peer.siteId = telemetry'.find? peer.siteId) :
    refreshClusterPeers isAddress getenv b inflight telemetry call =
      refreshClusterPeers isAddress getenv b inflight telemetry' call := by
  unfold refreshClusterPeers
  cases hcluster : b.cluster with
  | none => rfl
  | some c =>
    simp only
    rw [refreshPass_congr (h c hcluster)]

end Refresh

namespace ServedNode

def hidden (quiet : List ℕ) (a : ServedStep) : Bool := a.connection?.any fun id => id ∈ quiet

section Conditions

variable (isAddress : Bytes → Bool) (getenv : Bytes → Option Bytes) (lz4 : Lz4) (hmacSha256 : Bytes → Bytes → Bytes)
  (sha256 : Bytes → Bytes) (watched : Set UInt32) (quiet : List ℕ) (s : ServedNode)

def NeverAccepted (a : ServedStep) : Prop :=
  ∀ id ∈ quiet, ∀ connection, (s.step isAddress getenv lz4 hmacSha256 sha256 a).connections.find? id = some connection →
    connection.session.handshakeComplete = false

def ListsWatched : ServedStep → Prop
  | .refresh call => ∀ c, s.bridge.cluster = some c →
      ∀ peer ∈ (c.afterDiscovery isAddress call).peersToRefresh isAddress, peer.siteId ∈ watched
  | _ => True

def ClaimsNothing : ServedStep → Prop
  | .receive id bytes _ => id ∈ quiet → ∀ connection, s.connections.find? id = some connection →
      connection.closed = false → ¬ OpensClaiming watched connection.session bytes
  | _ => True

/-- No handshake is accepted on the connections `quiet`, and none of them names a peer that a refresh lists. -/
structure Anonymous (a : ServedStep) : Prop where
  never : s.NeverAccepted isAddress getenv lz4 hmacSha256 sha256 quiet a
  lists : s.ListsWatched isAddress watched a
  claims : s.ClaimsNothing watched quiet a

end Conditions

structure SameElsewhere (watched : Set UInt32) (quiet : List ℕ) (s t : ServedNode) : Prop where
  bridge : s.bridge = t.bridge
  ingress : AgreeOn watched s.ingress t.ingress
  others : ∀ id ∉ quiet, s.connections.find? id = t.connections.find? id
  unopened : ∀ id ∈ quiet, ∀ connection, s.connections.find? id = some connection → connection.closed = false →
    Unopened connection.session

section Steps

variable {isAddress : Bytes → Bool} {getenv : Bytes → Option Bytes} {lz4 : Lz4} {hmacSha256 : Bytes → Bytes → Bytes}
  {sha256 : Bytes → Bytes} {watched : Set UInt32} {quiet : List ℕ} {s t : ServedNode}

theorem unopened_create (config : ClusterConfig) :
    Unopened (.create true (ingressRequest config) ingressConfig) := ⟨rfl, rfl, rfl⟩

theorem sameElsewhere_closeAll (h : SameElsewhere watched quiet s t) (b : Bridge) :
    SameElsewhere watched quiet { s with bridge := b, connections := closeAll s.connections }
      { t with bridge := b, connections := closeAll t.connections } where
  bridge := rfl
  ingress := h.ingress
  others := by
    intro id hid
    simp only [closeAll, FlatMap.find?_map, h.others id hid]
  unopened := by
    intro id _ connection hfind hopen
    simp only [closeAll, FlatMap.find?_map] at hfind
    obtain ⟨before, -, rfl⟩ := Option.map_eq_some_iff.mp hfind
    cases hopen

theorem SameElsewhere.insert (h : SameElsewhere watched quiet s t) {id : ℕ} (hid : id ∉ quiet) (connection : Connection)
    {b b' : Bridge} {g g' : IngressState} (hb : b = b') (hg : AgreeOn watched g g') :
    SameElsewhere watched quiet ⟨b, g, s.connections.insert id connection⟩
      ⟨b', g', t.connections.insert id connection⟩ where
  bridge := hb
  ingress := hg
  others := by
    intro other hother
    rw [FlatMap.find?_insert, FlatMap.find?_insert, h.others other hother]
  unopened := by
    intro other hother connection' hfind
    rw [FlatMap.find?_insert, if_neg fun heq : other = id => hid (heq ▸ hother)] at hfind
    exact h.unopened other hother connection' hfind

theorem SameElsewhere.insert_hidden (h : SameElsewhere watched quiet s t) {id : ℕ} (hid : id ∈ quiet)
    {connection : Connection} (hnew : connection.closed = false → Unopened connection.session) {g : IngressState}
    (hg : AgreeOn watched g s.ingress) :
    SameElsewhere watched quiet ⟨s.bridge, g, s.connections.insert id connection⟩ t where
  bridge := h.bridge
  ingress := hg.trans h.ingress
  others := by
    intro other hother
    rw [FlatMap.find?_insert, if_neg fun heq : other = id => hother (heq ▸ hid), h.others other hother]
  unopened := by
    intro other hother connection' hfind hopen
    rw [FlatMap.find?_insert] at hfind
    split_ifs at hfind
    · obtain rfl := Option.some.inj hfind
      exact hnew hopen
    · exact h.unopened other hother connection' hfind hopen

theorem sameElsewhere_callSession (h : SameElsewhere watched quiet s t) {id : ℕ} (hid : id ∉ quiet)
    {call : SessionState → SessionState × ReplicationIngressOutcome}
    (hcall : ∀ session, CallAgrees watched (call ⟨session, s.ingress, []⟩) (call ⟨session, t.ingress, []⟩)) :
    SameElsewhere watched quiet (s.callSession id call) (t.callSession id call) := by
  unfold callSession
  rw [← h.others id hid]
  cases s.connections.find? id with
  | none => exact h
  | some connection =>
    have hagrees := hcall connection.session
    simp only [← hagrees.session, ← hagrees.outcome]
    split
    · exact h
    · exact h.insert hid _ h.bridge hagrees.ingress

theorem sameElsewhere_hidden (h : SameElsewhere watched quiet s t) {id : ℕ} (hid : id ∈ quiet)
    {call : SessionState → SessionState × ReplicationIngressOutcome}
    (hcall : ∀ connection, s.connections.find? id = some connection → connection.closed = false →
      LeavesNothing watched s.ingress (call ⟨connection.session, s.ingress, []⟩))
    (hnever : ∀ connection, (s.callSession id call).connections.find? id = some connection →
      connection.session.handshakeComplete = false) :
    SameElsewhere watched quiet (s.callSession id call) t := by
  unfold callSession at hnever ⊢
  cases hfind : s.connections.find? id with
  | none => exact h
  | some connection =>
    simp only [hfind] at hnever ⊢
    cases hclosed : connection.closed with
    | true => exact h
    | false =>
      simp only [hclosed, Bool.false_eq_true, if_false] at hnever ⊢
      have hopen := hnever _ (by rw [FlatMap.find?_insert, if_pos rfl])
      obtain hdone | ⟨hsame, hend⟩ := hcall connection hfind hclosed
      · rw [hdone] at hopen
        cases hopen
      · refine h.insert_hidden hid (fun hopen' => ?_) hsame
        obtain hfailed | hunopened := hend
        · simp only [hfailed] at hopen'
          cases hopen'
        · exact hunopened

theorem sameElsewhere_of_hidden (h : SameElsewhere watched quiet s t) {a : ServedStep} (hhidden : hidden quiet a = true)
    (hanonymous : s.Anonymous isAddress getenv lz4 hmacSha256 sha256 watched quiet a) :
    SameElsewhere watched quiet (s.step isAddress getenv lz4 hmacSha256 sha256 a) t := by
  obtain ⟨hnever, -, hclaims⟩ := hanonymous
  cases a with
  | command command => cases hhidden
  | disable => cases hhidden
  | refresh call => cases hhidden
  | connect id =>
    rw [step, connect]
    cases s.bridge.cluster with
    | none => exact h
    | some c => exact h.insert_hidden (of_decide_eq_true hhidden) (fun _ => unopened_create c.config) (.refl _)
  | receive id bytes ws =>
    have hid : id ∈ quiet := of_decide_eq_true hhidden
    apply sameElsewhere_hidden h hid
    · intro connection hfind hopen
      exact ingest_opening lz4 hmacSha256 sha256 ws (h.unopened id hid connection hfind hopen)
        (hclaims hid connection hfind hopen)
    · exact hnever id hid
  | drain id ws =>
    have hid : id ∈ quiet := of_decide_eq_true hhidden
    apply sameElsewhere_hidden h hid
    · intro connection hfind hopen
      exact drain_opening lz4 hmacSha256 sha256 ws (h.unopened id hid connection hfind hopen)
    · exact hnever id hid
  | hangUp id =>
    rw [step, hangUp]
    cases s.connections.find? id with
    | none => exact h
    | some connection =>
      exact h.insert_hidden (of_decide_eq_true hhidden) (fun hopen => by cases hopen) (.refl _)

theorem sameElsewhere_of_visible (h : SameElsewhere watched quiet s t) {a : ServedStep}
    (hvisible : hidden quiet a = false) (hlists : s.ListsWatched isAddress watched a) :
    SameElsewhere watched quiet (s.step isAddress getenv lz4 hmacSha256 sha256 a)
      (t.step isAddress getenv lz4 hmacSha256 sha256 a) := by
  cases a with
  | command command =>
    rw [step, step, h.bridge]
    split
    · exact sameElsewhere_closeAll h _
    · exact ⟨rfl, h.ingress, h.others, h.unopened⟩
  | disable =>
    rw [step, step, h.bridge]
    exact sameElsewhere_closeAll h _
  | refresh call =>
    have hsame : refreshClusterPeers isAddress getenv s.bridge s.ingress.inflight s.ingress.telemetry call =
        refreshClusterPeers isAddress getenv s.bridge s.ingress.inflight t.ingress.telemetry call :=
      refreshClusterPeers_congr fun c hcluster peer hpeer => h.ingress.telemetry _ (hlists c hcluster peer hpeer)
    rw [step, step, hsame, h.bridge, h.ingress.inflight]
    exact ⟨rfl, h.ingress, h.others, h.unopened⟩
  | connect id =>
    rw [step, step, connect, connect, ← h.bridge]
    cases s.bridge.cluster with
    | none => exact h
    | some c => exact h.insert (of_decide_eq_false hvisible) _ rfl h.ingress
  | receive id bytes ws =>
    exact sameElsewhere_callSession h (of_decide_eq_false hvisible) fun session =>
      agreeOn_ingest lz4 hmacSha256 sha256 ws bytes session h.ingress
  | drain id ws =>
    exact sameElsewhere_callSession h (of_decide_eq_false hvisible) fun session =>
      agreeOn_drain lz4 hmacSha256 sha256 ws session h.ingress
  | hangUp id =>
    rw [step, step, hangUp, hangUp, ← h.others id (of_decide_eq_false hvisible)]
    cases s.connections.find? id with
    | none => exact h
    | some connection => exact h.insert (of_decide_eq_false hvisible) _ h.bridge h.ingress

theorem observe_of_hidden {a : ServedStep} (hhidden : hidden quiet a = true) : s.observe isAddress getenv a = none := by
  cases a with
  | refresh call => cases hhidden
  | _ => rfl

theorem observe_of_sameElsewhere (h : SameElsewhere watched quiet s t) {a : ServedStep}
    (hlists : s.ListsWatched isAddress watched a) : s.observe isAddress getenv a = t.observe isAddress getenv a := by
  cases a with
  | refresh call =>
    rw [observe, observe, standing?, standing?, ← h.bridge, ← h.ingress.inflight]
    cases hcluster : s.bridge.cluster with
    | none => rfl
    | some c =>
      rw [Option.map_some, Option.map_some, refreshPass_congr]
      intro peer hpeer
      exact h.ingress.telemetry _ (hlists c hcluster peer hpeer)
  | _ => rfl

theorem standings_without_quiet (hstart : s.connections = .empty) {steps : List ServedStep}
    (h : AllSteps (step isAddress getenv lz4 hmacSha256 sha256)
      (Anonymous isAddress getenv lz4 hmacSha256 sha256 watched quiet) s steps) :
    observations (step isAddress getenv lz4 hmacSha256 sha256) (observe isAddress getenv) s steps =
      observations (step isAddress getenv lz4 hmacSha256 sha256) (observe isAddress getenv) s
        (steps.filter fun a => !hidden quiet a) := by
  have hhidden : ∀ s t a, SameElsewhere watched quiet s t →
      s.Anonymous isAddress getenv lz4 hmacSha256 sha256 watched quiet a → hidden quiet a = true →
        s.observe isAddress getenv a = none ∧
          SameElsewhere watched quiet (s.step isAddress getenv lz4 hmacSha256 sha256 a) t :=
    fun s t a hsame hanonymous ha => ⟨observe_of_hidden ha, sameElsewhere_of_hidden hsame ha hanonymous⟩
  apply observations_erase hhidden
  · intro s t a hsame hanonymous ha
    exact ⟨observe_of_sameElsewhere hsame hanonymous.lists, sameElsewhere_of_visible hsame ha hanonymous.lists⟩
  · refine ⟨rfl, .refl _, fun _ _ => rfl, fun id _ connection hfind => ?_⟩
    rw [hstart] at hfind
    cases hfind
  · exact h

/-- Two runs of a node that differ only in connections on which no handshake is accepted come to the same standings of
the peers, as long as none of these connections opens with a handshake in the name of a peer that is listed. -/
theorem standing_unaffected (hstart : s.connections = .empty) {quiet' : List ℕ} {steps steps' : List ServedStep}
    (hsame : (steps.filter fun a => !hidden quiet a) = steps'.filter fun a => !hidden quiet' a)
    (h : AllSteps (step isAddress getenv lz4 hmacSha256 sha256)
      (Anonymous isAddress getenv lz4 hmacSha256 sha256 watched quiet) s steps)
    (h' : AllSteps (step isAddress getenv lz4 hmacSha256 sha256)
      (Anonymous isAddress getenv lz4 hmacSha256 sha256 watched quiet') s steps') :
    observations (step isAddress getenv lz4 hmacSha256 sha256) (observe isAddress getenv) s steps =
      observations (step isAddress getenv lz4 hmacSha256 sha256) (observe isAddress getenv) s steps' := by
  rw [standings_without_quiet hstart h, hsame, ← standings_without_quiet hstart h']

theorem neverAccepted_iff {a : ServedStep} :
    (∀ id ∈ quiet, ((s.step isAddress getenv lz4 hmacSha256 sha256 a).connections.find? id).all
      (fun connection => !connection.session.handshakeComplete) = true) ↔
      s.NeverAccepted isAddress getenv lz4 hmacSha256 sha256 quiet a := by
  simp only [NeverAccepted, Option.all_eq_true, Bool.not_eq_true']

instance (a : ServedStep) : Decidable (s.NeverAccepted isAddress getenv lz4 hmacSha256 sha256 quiet a) :=
  decidable_of_iff _ neverAccepted_iff

end Steps

section Samples

def sampleStep : ServedNode → ServedStep → ServedNode :=
  step (fun _ => false) (fun _ => none) noLz4 clusterHmac sampleSha256

def sampleObserve : ServedNode → ServedStep → Option Standing := observe (fun _ => false) fun _ => none

def knowingNode : ServedNode := { bridge := { cluster := some knowingManual } }

def strayFrame : Bytes := RpcFrame.encode ⟨9, []⟩

theorem strayFrame_first : ((RpcIngressQueue.ofLimits ingressConfig.rpcLimits).ingest strayFrame).1.queue.head? =
    some ⟨9, []⟩ := by
  decide +kernel

theorem stray_frame_changes_nothing :
    observations sampleStep sampleObserve knowingNode
        [.connect 5, .receive 5 strayFrame quietSurroundings, .refresh (Node.refreshAt 3000)] =
      observations sampleStep sampleObserve knowingNode [.refresh (Node.refreshAt 3000)] := by
  have hlists (s : ServedNode) : s.ListsWatched (fun _ => false) Set.univ (.refresh (Node.refreshAt 3000)) :=
    fun c _ peer _ => Set.mem_univ _
  have hclaims : (sampleStep knowingNode (.connect 5)).ClaimsNothing Set.univ [5]
      (.receive 5 strayFrame quietSurroundings) := by
    rintro - connection hfind - ⟨-, frame, remote, hhead, hchannel, -⟩
    obtain rfl := Option.some.inj hfind
    obtain rfl := Option.some.inj (strayFrame_first.symm.trans hhead)
    exact absurd hchannel (by decide)
  have h : AllSteps sampleStep (Anonymous (fun _ => false) (fun _ => none) noLz4 clusterHmac sampleSha256 Set.univ [5])
      knowingNode [.connect 5, .receive 5 strayFrame quietSurroundings, .refresh (Node.refreshAt 3000)] :=
    ⟨⟨by decide +kernel, trivial, trivial⟩, ⟨by decide +kernel, trivial, hclaims⟩,
      ⟨by decide +kernel, hlists _, trivial⟩, trivial⟩
  have h' : AllSteps sampleStep (Anonymous (fun _ => false) (fun _ => none) noLz4 clusterHmac sampleSha256 Set.univ [])
      knowingNode [.refresh (Node.refreshAt 3000)] := ⟨⟨by decide +kernel, hlists _, trivial⟩, trivial⟩
  exact standing_unaffected rfl rfl h h'

def claimingSeven : Bytes := RpcFrame.encode ⟨1, encodeHandshake { siteId := 7, schemaVersion := 1 }⟩

def quietSteps : List ServedStep :=
  [.command (.enable {} Node.pairConfig),
    .command (.addPeer { probe := Node.answering, nowMs := 1000 } (ofString "node:9000")),
      .refresh (Node.refreshAt 3000)]

def strangerSteps : List ServedStep :=
  [.command (.enable {} Node.pairConfig),
    .command (.addPeer { probe := Node.answering, nowMs := 1000 } (ofString "node:9000")), .connect 5,
    .receive 5 claimingSeven quietSurroundings, .refresh (Node.refreshAt 3000)]

theorem stranger_connects_a_peer :
    Node.pairConfig.requireHandshakeAuth = true ∧ Node.pairConfig.clusterSharedSecret ≠ [] ∧
      (strangerSteps.filter fun a => !hidden [5] a) = quietSteps ∧
      AllSteps sampleStep (NeverAccepted (fun _ => false) (fun _ => none) noLz4 clusterHmac sampleSha256 [5]) {}
        strangerSteps ∧
      observations sampleStep sampleObserve {} quietSteps = [⟨[⟨7, .disconnected, none⟩], []⟩] ∧
      observations sampleStep sampleObserve {} strangerSteps = [⟨[⟨7, .connected, some 1001⟩], []⟩] := by
  refine ⟨rfl, by decide, rfl, ?_, by decide +kernel, by decide +kernel⟩
  exact ⟨by decide +kernel, by decide +kernel, by decide +kernel, by decide +kernel, by decide +kernel, trivial⟩

end Samples

end ServedNode

end Tightrope.Bridge
