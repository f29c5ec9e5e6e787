import Mathlib.Data.Rat.Floor
import Tightrope.Library.Bytes
import Tightrope.Library.FlatMap

namespace Tightrope.Sync

open Bytes MachineWords

structure IngressLimits where
  maxWireBatchBytes : UInt64 := 4 * 1024 * 1024
  maxWireBatchEntries : UInt64 := 5000
  maxInflightWireBatches : UInt64 := 8
  maxInflightWireBytes : UInt64 := 16 * 1024 * 1024
  maxInflightWireBytesPerPeer : UInt64 := 8 * 1024 * 1024
  maxInflightWireBatchesPerPeer : UInt64 := 4
  peerRateLimitEntriesPerSecond : ℚ := 2000
  peerRateLimitBurstEntries : ℚ := 4000

section Inflight

structure InflightWirePeerState where
  batches : UInt64 := 0
  bytes : UInt64 := 0
  peakBatches : UInt64 := 0
  peakBytes : UInt64 := 0

structure InflightState where
  wireBatches : UInt64 := 0
  totalBytes : UInt64 := 0
  peerState : FlatMap UInt32 InflightWirePeerState := .empty

def InflightState.acquireBatch (limit : UInt64) (s : InflightState) : Option InflightState :=
  if s.wireBatches < limit then some { s with wireBatches := s.wireBatches + 1 } else none

def InflightState.releaseBatch (s : InflightState) : InflightState := { s with wireBatches := s.wireBatches - 1 }

variable (limits : IngressLimits) (peerSiteId : UInt32) (wireBytes : UInt64)

def InflightState.acquireBudget (s : InflightState) : InflightState × Option Bytes :=
  let peer := (s.peerState.find? peerSiteId).getD {}
  let seen := { s with peerState := s.peerState.insert peerSiteId peer }
  if wireBytes > limits.maxInflightWireBytes ∨ s.totalBytes > limits.maxInflightWireBytes - wireBytes then
    (seen, some (ofString "in-flight wire bytes budget exceeded (incoming=" ++ decimal wireBytes.toNat ++
      ofString ", max=" ++ decimal limits.maxInflightWireBytes.toNat ++ ofString ")"))
  else if peer.batches ≥ limits.maxInflightWireBatchesPerPeer then
    (seen, some (ofString "peer " ++ decimal peerSiteId.toNat ++ ofString " exceeds in-flight batch budget (max=" ++
      decimal limits.maxInflightWireBatchesPerPeer.toNat ++ ofString ")"))
  else if wireBytes > limits.maxInflightWireBytesPerPeer ∨
      peer.bytes > limits.maxInflightWireBytesPerPeer - wireBytes then
    (seen, some (ofString "peer " ++ decimal peerSiteId.toNat ++
      ofString " in-flight wire bytes budget exceeded (incoming=" ++ decimal wireBytes.toNat ++ ofString ", max=" ++
      decimal limits.maxInflightWireBytesPerPeer.toNat ++ ofString ")"))
  else
    let batches := peer.batches + 1
    let bytes := peer.bytes + wireBytes
    ({ s with
        totalBytes := s.totalBytes + wireBytes
        peerState := s.peerState.insert peerSiteId
          ⟨batches, bytes, max peer.peakBatches batches, max peer.peakBytes bytes⟩ }, none)

def InflightState.releaseBudget (s : InflightState) : InflightState :=
  let totalBytes := if s.totalBytes ≥ wireBytes then s.totalBytes - wireBytes else 0
  match s.peerState.find? peerSiteId with
  | none => { s with totalBytes := totalBytes }
  | some peer =>
    { s with
      totalBytes := totalBytes
      peerState := s.peerState.insert peerSiteId
        { peer with
          batches := if peer.batches > 0 then peer.batches - 1 else peer.batches
          bytes := if peer.bytes ≥ wireBytes then peer.bytes - wireBytes else 0 } }

end Inflight

section RateLimit

structure PeerRateBucket where
  tokens : ℚ
  lastRefill : ℚ

-- Times are in seconds; the tokens are exact where the source rounds to a double.
def refill (limits : IngressLimits) (now : ℚ) : Option PeerRateBucket → PeerRateBucket
  | none => ⟨limits.peerRateLimitBurstEntries, now⟩
  | some bucket =>
    let elapsedSeconds := now - bucket.lastRefill
    if elapsedSeconds > 0 then
      ⟨min limits.peerRateLimitBurstEntries
        (bucket.tokens + elapsedSeconds * limits.peerRateLimitEntriesPerSecond), now⟩
    else bucket

def consumePeerRateLimitTokens (limits : IngressLimits) (now : ℚ) (peerSiteId : UInt32) (entryCount : ℕ)
    (buckets : FlatMap UInt32 PeerRateBucket) : FlatMap UInt32 PeerRateBucket × Option Bytes :=
  if entryCount = 0 ∨ limits.peerRateLimitEntriesPerSecond ≤ 0 then (buckets, none)
  else if (entryCount : ℚ) > limits.peerRateLimitBurstEntries then
    (buckets, some (ofString "peer " ++ decimal peerSiteId.toNat ++ ofString " batch entries " ++ decimal entryCount ++
      ofString " exceed rate-limit burst " ++ decimal limits.peerRateLimitBurstEntries.floor.toNat))
  else
    let bucket := refill limits now (buckets.find? peerSiteId)
    let tokens := min bucket.tokens limits.peerRateLimitBurstEntries
    if tokens + 1 / 10 ^ 9 < entryCount then
      (buckets.insert peerSiteId { bucket with tokens := tokens },
        some (ofString "peer " ++ decimal peerSiteId.toNat ++ ofString " rate limit exceeded: requested=" ++
          decimal entryCount ++ ofString " available=" ++ decimal tokens.floor.toNat))
    else (buckets.insert peerSiteId { bucket with tokens := tokens - entryCount }, none)

end RateLimit

inductive PeerIngressRejectionReason where
  | unknown
  | batchTooLarge
  | backpressure
  | inflightWireBudget
  | handshakeAuth
  | handshakeSchema
  | invalidWireBatch
  | entryLimit
  | rateLimit
  | applyBatch
  | ingressProtocol
  deriving DecidableEq

def rejectionReasonLabel : PeerIngressRejectionReason → Bytes
  | .batchTooLarge => ofString "batch_too_large"
  | .backpressure => ofString "backpressure"
  | .inflightWireBudget => ofString "inflight_wire_budget"
  | .handshakeAuth => ofString "handshake_auth"
  | .handshakeSchema => ofString "handshake_schema"
  | .invalidWireBatch => ofString "invalid_wire_batch"
  | .entryLimit => ofString "entry_limit"
  | .rateLimit => ofString "rate_limit"
  | .applyBatch => ofString "apply_batch"
  | .ingressProtocol => ofString "ingress_protocol"
  | .unknown => ofString "unknown"

structure PeerIngressTelemetry where
  siteId : UInt32 := 0
  lastSeenUnixMs : UInt64 := 0
  lastReportedSeqFromPeer : UInt64 := 0
  lastAppliedUpToSeq : UInt64 := 0
  acceptedBatches : UInt64 := 0
  rejectedBatches : UInt64 := 0
  acceptedWireBytes : UInt64 := 0
  rejectedWireBytes : UInt64 := 0
  rejectedBatchTooLarge : UInt64 := 0
  rejectedBackpressure : UInt64 := 0
  rejectedInflightWireBudget : UInt64 := 0
  rejectedHandshakeAuth : UInt64 := 0
  rejectedHandshakeSchema : UInt64 := 0
  rejectedInvalidWireBatch : UInt64 := 0
  rejectedEntryLimit : UInt64 := 0
  rejectedRateLimit : UInt64 := 0
  rejectedApplyBatch : UInt64 := 0
  rejectedIngressProtocol : UInt64 := 0
  lastWireBatchBytes : UInt64 := 0
  totalApplyDurationMs : UInt64 := 0
  lastApplyDurationMs : UInt64 := 0
  maxApplyDurationMs : UInt64 := 0
  applyDurationEwmaMs : ℚ := 0
  applyDurationSamples : UInt64 := 0
  totalReplicationLatencyMs : UInt64 := 0
  lastReplicationLatencyMs : UInt64 := 0
  maxReplicationLatencyMs : UInt64 := 0
  replicationLatencyEwmaMs : ℚ := 0
  replicationLatencySamples : UInt64 := 0
  inflightWireBatches : UInt64 := 0
  inflightWireBatchesPeak : UInt64 := 0
  inflightWireBytes : UInt64 := 0
  inflightWireBytesPeak : UInt64 := 0
  lastRejectionAtUnixMs : UInt64 := 0
  lastRejectionReason : Bytes := []
  lastRejectionError : Bytes := []
  consecutiveFailures : UInt64 := 0

def saturatingAddU64 (left right : UInt64) : UInt64 :=
  if right > 0xFFFFFFFFFFFFFFFF - left then 0xFFFFFFFFFFFFFFFF else left + right

section Ewma

def clampAlpha (alpha : ℚ) : ℚ := if alpha ≤ 0 then 0 else if alpha ≥ 1 then 1 else alpha

def ewmaUpdate (alpha : ℚ) (seed : Option ℚ) (sample : ℚ) : ℚ :=
  match seed with
  | none => sample
  | some value => clampAlpha alpha * sample + (1 - clampAlpha alpha) * value

def kIngressApplyDurationEwmaAlpha : ℚ := 1 / 5

def kIngressReplicationLatencyEwmaAlpha : ℚ := 1 / 5

end Ewma

structure IngressOutcome where
  peerSiteId : UInt32
  lastRecvSeqFromPeer : UInt64
  lastAppliedUpToSeq : UInt64
  success : Bool
  wireBytes : UInt64
  reason : PeerIngressRejectionReason := .unknown
  error : Bytes := []
  applyDurationMs : UInt64 := 0
  replicationLatencyMs : Option UInt64 := none

namespace PeerIngressTelemetry

def noteRejectionReason (t : PeerIngressTelemetry) : PeerIngressRejectionReason → PeerIngressTelemetry
  | .batchTooLarge => { t with rejectedBatchTooLarge := t.rejectedBatchTooLarge + 1 }
  | .backpressure => { t with rejectedBackpressure := t.rejectedBackpressure + 1 }
  | .inflightWireBudget => { t with rejectedInflightWireBudget := t.rejectedInflightWireBudget + 1 }
  | .handshakeAuth => { t with rejectedHandshakeAuth := t.rejectedHandshakeAuth + 1 }
  | .handshakeSchema => { t with rejectedHandshakeSchema := t.rejectedHandshakeSchema + 1 }
  | .invalidWireBatch => { t with rejectedInvalidWireBatch := t.rejectedInvalidWireBatch + 1 }
  | .entryLimit => { t with rejectedEntryLimit := t.rejectedEntryLimit + 1 }
  | .rateLimit => { t with rejectedRateLimit := t.rejectedRateLimit + 1 }
  | .applyBatch => { t with rejectedApplyBatch := t.rejectedApplyBatch + 1 }
  | .ingressProtocol => { t with rejectedIngressProtocol := t.rejectedIngressProtocol + 1 }
  | .unknown => t

def countSample (samples : UInt64) : UInt64 := if samples < 0xFFFFFFFFFFFFFFFF then samples + 1 else samples

def noteReplicationLatency (t : PeerIngressTelemetry) (latencyMs : UInt64) : PeerIngressTelemetry :=
  { t with
    totalReplicationLatencyMs := saturatingAddU64 t.totalReplicationLatencyMs latencyMs
    lastReplicationLatencyMs := latencyMs
    maxReplicationLatencyMs := max t.maxReplicationLatencyMs latencyMs
    replicationLatencyEwmaMs := ewmaUpdate kIngressReplicationLatencyEwmaAlpha
      (if t.replicationLatencySamples > 0 then some t.replicationLatencyEwmaMs else none) latencyMs.toNat
    replicationLatencySamples := countSample t.replicationLatencySamples }

def noteArrival (t : PeerIngressTelemetry) (nowMs : UInt64) (o : IngressOutcome) : PeerIngressTelemetry :=
  { t with
    siteId := o.peerSiteId
    lastSeenUnixMs := nowMs
    lastReportedSeqFromPeer := max t.lastReportedSeqFromPeer o.lastRecvSeqFromPeer
    lastAppliedUpToSeq := max t.lastAppliedUpToSeq o.lastAppliedUpToSeq
    lastWireBatchBytes := o.wireBytes
    totalApplyDurationMs := saturatingAddU64 t.totalApplyDurationMs o.applyDurationMs
    lastApplyDurationMs := o.applyDurationMs
    maxApplyDurationMs := max t.maxApplyDurationMs o.applyDurationMs
    applyDurationEwmaMs := ewmaUpdate kIngressApplyDurationEwmaAlpha
      (if t.applyDurationSamples > 0 then some t.applyDurationEwmaMs else none) o.applyDurationMs.toNat
    applyDurationSamples := countSample t.applyDurationSamples }

def noteAccepted (t : PeerIngressTelemetry) (o : IngressOutcome) : PeerIngressTelemetry :=
  { t with
    acceptedBatches := t.acceptedBatches + 1
    acceptedWireBytes := saturatingAddU64 t.acceptedWireBytes o.wireBytes
    consecutiveFailures := 0 }

def noteRejected (t : PeerIngressTelemetry) (nowMs : UInt64) (o : IngressOutcome) : PeerIngressTelemetry :=
  let counted := noteRejectionReason
    { t with
      rejectedBatches := t.rejectedBatches + 1
      rejectedWireBytes := saturatingAddU64 t.rejectedWireBytes o.wireBytes
      lastRejectionAtUnixMs := nowMs
      lastRejectionReason := rejectionReasonLabel o.reason } o.reason
  { counted with
    lastRejectionError := if o.error ≠ [] then o.error else counted.lastRejectionError
    consecutiveFailures := counted.consecutiveFailures + 1 }

def record (t : PeerIngressTelemetry) (nowMs : UInt64) (o : IngressOutcome) : PeerIngressTelemetry :=
  let arrived := t.noteArrival nowMs o
  let timed := o.replicationLatencyMs.elim arrived arrived.noteReplicationLatency
  if o.success then timed.noteAccepted o else timed.noteRejected nowMs o

theorem lastAppliedUpToSeq_noteRejectionReason (t : PeerIngressTelemetry) (reason : PeerIngressRejectionReason) :
    (t.noteRejectionReason reason).lastAppliedUpToSeq = t.lastAppliedUpToSeq := by
  cases reason <;> rfl

theorem lastAppliedUpToSeq_record (t : PeerIngressTelemetry) (nowMs : UInt64) (o : IngressOutcome) :
    (t.record nowMs o).lastAppliedUpToSeq = max t.lastAppliedUpToSeq o.lastAppliedUpToSeq := by
  have htimed : (o.replicationLatencyMs.elim (t.noteArrival nowMs o)
      (t.noteArrival nowMs o).noteReplicationLatency).lastAppliedUpToSeq =
      max t.lastAppliedUpToSeq o.lastAppliedUpToSeq := by
    cases o.replicationLatencyMs <;> rfl
  unfold record
  split_ifs
  · exact htimed
  · simp only [noteRejected, lastAppliedUpToSeq_noteRejectionReason]
    exact htimed

end PeerIngressTelemetry

abbrev TelemetryMap := FlatMap UInt32 PeerIngressTelemetry

def recordPeerIngressResult (nowMs : UInt64) (telemetry : TelemetryMap) (o : IngressOutcome) : TelemetryMap :=
  if o.peerSiteId = 0 then telemetry
  else telemetry.update o.peerSiteId (fun old => (old.getD {}).record nowMs o)

def peerIngressTelemetry (inflight : InflightState) (telemetry : TelemetryMap) (peerSiteId : UInt32) :
    Option PeerIngressTelemetry :=
  if peerSiteId = 0 then none
  else match inflight.peerState.find? peerSiteId with
    | none => telemetry.find? peerSiteId
    | some peer =>
      some { (telemetry.find? peerSiteId).getD { siteId := peerSiteId } with
        inflightWireBatches := peer.batches
        inflightWireBatchesPeak := peer.peakBatches
        inflightWireBytes := peer.bytes
        inflightWireBytesPeak := peer.peakBytes }

theorem lastAppliedUpToSeq_snapshot {inflight : InflightState} {telemetry : TelemetryMap} {peerSiteId : UInt32}
    {snapshot : PeerIngressTelemetry} (h : peerIngressTelemetry inflight telemetry peerSiteId = some snapshot) :
    snapshot.lastAppliedUpToSeq = 0 ∨
      ∃ t, telemetry.find? peerSiteId = some t ∧ snapshot.lastAppliedUpToSeq = t.lastAppliedUpToSeq := by
  unfold peerIngressTelemetry at h
  split_ifs at h
  split at h
  · exact .inr ⟨snapshot, h, rfl⟩
  · rw [← Option.some.inj h]
    cases htel : telemetry.find? peerSiteId with
    | none => exact .inl rfl
    | some t => exact .inr ⟨t, rfl, rfl⟩

theorem find?_recordPeerIngressResult {nowMs : UInt64} {telemetry : TelemetryMap} {o : IngressOutcome} {peer : UInt32}
    {t : PeerIngressTelemetry} (h : (recordPeerIngressResult nowMs telemetry o).find? peer = some t) :
    telemetry.find? peer = some t ∨ peer = o.peerSiteId ∧
      t.lastAppliedUpToSeq = max ((telemetry.find? peer).elim 0 (·.lastAppliedUpToSeq)) o.lastAppliedUpToSeq := by
  unfold recordPeerIngressResult at h
  split_ifs at h
  · exact .inl h
  · rw [FlatMap.find?_update] at h
    split_ifs at h with hpeer
    · subst hpeer
      rw [← Option.some.inj h, PeerIngressTelemetry.lastAppliedUpToSeq_record]
      refine .inr ⟨rfl, ?_⟩
      cases telemetry.find? o.peerSiteId <;> rfl
    · exact .inl h

end Tightrope.Sync
