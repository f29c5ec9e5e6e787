import Tightrope.Library.Runs
import Tightrope.Sync.Handshake
import Tightrope.Sync.PeerIngress
import Tightrope.Sync.RowVerification

namespace Tightrope.Sync

open Bytes MachineWords Runs SyncEngine

structure ApplyWireBatchRequest where
  remoteHandshake : HandshakeFrame := {}
  clusterSharedSecret : Bytes := []
  requireHandshakeAuth : Bool := false
  localSchemaVersion : UInt32 := 1
  allowSchemaDowngrade : Bool := false
  minSupportedSchemaVersion : UInt32 := 1
  appliedValue : Int32 := 2

structure IngressClock where
  observedUnixMs : UInt64
  recordedUnixMs : UInt64
  elapsedMs : UInt64
  steadySeconds : ℚ

structure WireCall where
  dbOpen : Bool := true
  request : ApplyWireBatchRequest
  wireBatch : Bytes
  limits : IngressLimits := {}
  clock : IngressClock
  env : ApplyEnv

namespace WireCall

def peer (c : WireCall) : UInt32 := c.request.remoteHandshake.siteId

def wireBytes (c : WireCall) : UInt64 := UInt64.ofNat c.wireBatch.length

end WireCall

structure IngressState where
  journal : JournalTable
  inflight : InflightState := {}
  buckets : FlatMap UInt32 PeerRateBucket := .empty
  telemetry : TelemetryMap := .empty

structure IngressRejection where
  reason : PeerIngressRejectionReason
  error : Bytes
  replicationLatencyMs : Option UInt64

def batchReplicationLatencyMs (batch : JournalBatchFrame) (observedAtUnixMs : UInt64) : Option UInt64 :=
  if batch.entries = [] then none
  else some (batch.entries.foldl
    (fun m e => max m (if observedAtUnixMs > e.hlcWall then observedAtUnixMs - e.hlcWall else 0)) 0)

namespace SyncEngine

section Gates

variable (c : WireCall)

def enter (inflight : InflightState) : InflightState × Option IngressRejection :=
  if ¬ c.dbOpen then (inflight, some ⟨.unknown, ofString "db is null", none⟩)
  else if c.wireBytes > c.limits.maxWireBatchBytes then
    (inflight, some ⟨.batchTooLarge, ofString "wire batch size " ++ decimal c.wireBytes.toNat ++
      ofString " exceeds max " ++ decimal c.limits.maxWireBatchBytes.toNat, none⟩)
  else match inflight.acquireBatch c.limits.maxInflightWireBatches with
    | none => (inflight, some ⟨.backpressure, ofString "wire batch backpressure: too many in-flight batches (max=" ++
        decimal c.limits.maxInflightWireBatches.toNat ++ ofString ")", none⟩)
    | some entered =>
      match entered.acquireBudget c.limits c.peer c.wireBytes with
      | (refused, some error) => (refused.releaseBatch,
          some ⟨.inflightWireBudget, ofString "wire batch backpressure: " ++ error, none⟩)
      | (granted, none) => (granted, none)

def leave (inflight : InflightState) : InflightState := (inflight.releaseBudget c.peer c.wireBytes).releaseBatch

variable (lz4 : Lz4) (hmacSha256 : Bytes → Bytes → Bytes)

def screen (buckets : FlatMap UInt32 PeerRateBucket) :
    FlatMap UInt32 PeerRateBucket × Except IngressRejection JournalBatchFrame :=
  let handshake := c.request.remoteHandshake
  let auth := validateHandshakeAuth hmacSha256 handshake c.request.clusterSharedSecret c.request.requireHandshakeAuth
  if ¬ auth.accepted then
    (buckets, .error ⟨.handshakeAuth, ofString "handshake rejected: " ++ auth.error, none⟩)
  else
    let schema := validateHandshakeSchemaVersion handshake c.request.localSchemaVersion c.request.allowSchemaDowngrade
      c.request.minSupportedSchemaVersion
    if ¬ schema.accepted then
      (buckets, .error ⟨.handshakeSchema, ofString "handshake rejected: " ++ schema.error, none⟩)
    else match decodeJournalBatch lz4 c.wireBatch with
      | none => (buckets, .error ⟨.invalidWireBatch, ofString "invalid wire journal batch", none⟩)
      | some decoded =>
        let latency := batchReplicationLatencyMs decoded c.clock.observedUnixMs
        let count := decoded.entries.length
        if count > c.limits.maxWireBatchEntries.toNat then
          (buckets, .error ⟨.entryLimit, ofString "wire batch entries " ++ decimal count ++ ofString " exceed max " ++
            decimal c.limits.maxWireBatchEntries.toNat, latency⟩)
        else match consumePeerRateLimitTokens c.limits c.clock.steadySeconds c.peer count buckets with
          | (charged, some error) =>
            (charged, .error ⟨.rateLimit, ofString "wire batch rejected: " ++ error, latency⟩)
          | (charged, none) => (charged, .ok decoded)

def admitted (s : IngressState) : Option JournalBatchFrame :=
  match (enter c s.inflight).2 with
  | some _ => none
  | none => (screen c lz4 hmacSha256 s.buckets).2.toOption

def rejectionOutcome (r : IngressRejection) : IngressOutcome :=
  ⟨c.peer, c.request.remoteHandshake.lastRecvSeqFromPeer, 0, false, c.wireBytes, r.reason, r.error, c.clock.elapsedMs,
    r.replicationLatencyMs⟩

def appliedOutcome (batch : JournalBatchFrame) (applied : ApplyBatchResult) : IngressOutcome :=
  ⟨c.peer, c.request.remoteHandshake.lastRecvSeqFromPeer, applied.appliedUpToSeq, applied.success, c.wireBytes,
    if applied.success then .unknown else .applyBatch, applied.error, c.clock.elapsedMs,
    batchReplicationLatencyMs batch c.clock.observedUnixMs⟩

variable (sha256 : Bytes → Bytes)

def applyWireBatch (s : IngressState) : IngressState × ApplyBatchResult :=
  let recorded := recordPeerIngressResult c.clock.recordedUnixMs s.telemetry
  match enter c s.inflight with
  | (inflight, some r) =>
    ({ s with inflight := inflight, telemetry := recorded (rejectionOutcome c r) }, ⟨false, 0, 0, r.error⟩)
  | (inflight, none) =>
    match screen c lz4 hmacSha256 s.buckets with
    | (buckets, .error r) =>
      (⟨s.journal, leave c inflight, buckets, recorded (rejectionOutcome c r)⟩, ⟨false, 0, 0, r.error⟩)
    | (buckets, .ok batch) =>
      let applied := applyBatch sha256 c.env c.request.appliedValue s.journal batch
      (⟨applied.1, leave c inflight, buckets, recorded (appliedOutcome c batch applied.2)⟩, applied.2)

end Gates

section Counters

variable (sha256 : Bytes → Bytes) (env : ApplyEnv)

def OnlyZeroRepeats (index : ℕ) (t : JournalTable) : List JournalWireEntry → Prop
  | [] => True
  | e :: es => EntryAccepted sha256 env t index e →
      (e.seq = 0 ∧ (t.find? e.seq.toInt64).isSome) ∧ OnlyZeroRepeats (index + 1) t es

/-- Nothing is counted before a failure: the batch is taken whole, or the transaction cannot start, or the
entries in front of the failure only repeat the row stored under seq 0. -/
def NothingCounted (t : JournalTable) (batch : JournalBatchFrame) : Prop :=
  Accepts sha256 env t batch ∨ env.beginError.isSome ∨ env.prepareError.isSome ∨
    OnlyZeroRepeats sha256 env 0 t batch.entries

variable {sha256 env} {appliedValue : Int32}

theorem appliedUpToSeq_acceptEntry (env : ApplyEnv) (appliedValue : Int32) (index : ℕ) (s : ApplyProgress)
    (e : JournalWireEntry) :
    (acceptEntry env appliedValue index s e).appliedUpToSeq = max s.appliedUpToSeq e.seq := by
  unfold acceptEntry
  split <;> rfl

theorem appliedCount_le_acceptEntry (env : ApplyEnv) (appliedValue : Int32) (index : ℕ) (s : ApplyProgress)
    (e : JournalWireEntry) : s.appliedCount ≤ (acceptEntry env appliedValue index s e).appliedCount := by
  unfold acceptEntry
  split
  · exact Nat.le_add_right _ _
  · exact le_rfl

theorem counters_le_applyEntries (sha256 : Bytes → Bytes) (env : ApplyEnv) (appliedValue : Int32) (index : ℕ)
    (s : ApplyProgress) (entries : List JournalWireEntry) :
    s.appliedCount ≤ (applyEntries sha256 env appliedValue index s entries).1.appliedCount ∧
      s.appliedUpToSeq ≤ (applyEntries sha256 env appliedValue index s entries).1.appliedUpToSeq := by
  apply applyEntries_invariant (P := fun s' => s.appliedCount ≤ s'.appliedCount ∧ s.appliedUpToSeq ≤ s'.appliedUpToSeq)
  · rintro i s' e - ⟨hcount, hupTo⟩
    rw [appliedUpToSeq_acceptEntry]
    exact ⟨hcount.trans (appliedCount_le_acceptEntry env appliedValue i s' e), hupTo.trans (le_max_left _ _)⟩
  · exact ⟨le_rfl, le_rfl⟩

theorem appliedUpToSeq_applyEntries (sha256 : Bytes → Bytes) (env : ApplyEnv) (appliedValue : Int32) (index : ℕ)
    (s : ApplyProgress) (entries : List JournalWireEntry) :
    (applyEntries sha256 env appliedValue index s entries).1.appliedUpToSeq = s.appliedUpToSeq ∨
      ∃ e ∈ entries, (applyEntries sha256 env appliedValue index s entries).1.appliedUpToSeq = e.seq := by
  apply applyEntries_invariant
    (P := fun s' => s'.appliedUpToSeq = s.appliedUpToSeq ∨ ∃ e ∈ entries, s'.appliedUpToSeq = e.seq)
  · intro i s' e he hs'
    rw [appliedUpToSeq_acceptEntry]
    obtain hleft | hright := max_choice s'.appliedUpToSeq e.seq
    · rwa [hleft]
    · exact .inr ⟨e, he, hright⟩
  · exact .inl rfl

theorem counters_zero_iff {index : ℕ} {s : ApplyProgress} (hcount : s.appliedCount = 0) (hupTo : s.appliedUpToSeq = 0)
    (entries : List JournalWireEntry) :
    ((applyEntries sha256 env appliedValue index s entries).1.appliedCount = 0 ∧
      (applyEntries sha256 env appliedValue index s entries).1.appliedUpToSeq = 0) ↔
      OnlyZeroRepeats sha256 env index s.table entries := by
  induction entries generalizing index s with
  | nil => exact iff_of_true ⟨hcount, hupTo⟩ trivial
  | cons e es ih =>
    by_cases h : EntryAccepted sha256 env s.table index e
    · have hle := counters_le_applyEntries sha256 env appliedValue (index + 1)
        (acceptEntry env appliedValue index s e) es
      rw [applyEntries_cons_of_accepted appliedValue es h, OnlyZeroRepeats]
      cases hrow : s.table.find? e.seq.toInt64 with
      | none =>
        have hone : (acceptEntry env appliedValue index s e).appliedCount = 1 := by
          simp [acceptEntry, hrow, hcount]
        refine iff_of_false (fun hzero => ?_) (fun hrepeat => ?_)
        · omega
        · simpa [hrow] using (hrepeat h).1.2
      | some row =>
        have haccept : acceptEntry env appliedValue index s e =
            { s with appliedUpToSeq := max s.appliedUpToSeq e.seq } := by
          simp [acceptEntry, hrow]
        rw [haccept] at hle ⊢
        by_cases hseq : e.seq = 0
        · have hzero : max s.appliedUpToSeq e.seq = 0 := by rw [hupTo, hseq, max_self]
          rw [@ih (index + 1) { s with appliedUpToSeq := max s.appliedUpToSeq e.seq } hcount hzero]
          exact ⟨fun hes _ => ⟨⟨hseq, rfl⟩, hes⟩, fun hrepeat => (hrepeat h).2⟩
        · refine iff_of_false (fun hzero => hseq ?_) (fun hrepeat => hseq (hrepeat h).1.1)
          have hseqle := (le_max_right _ _).trans hle.2
          rw [hzero.2] at hseqle
          exact le_antisymm hseqle UInt64.zero_le
    · obtain ⟨error, hrefused⟩ := applyEntries_cons_of_refused appliedValue es h
      rw [hrefused, OnlyZeroRepeats]
      exact iff_of_true ⟨hcount, hupTo⟩ fun haccepted => absurd haccepted h

def RejectionReportsNothing (before after : JournalTable) (result : ApplyBatchResult) : Prop :=
  result.success = false → after = before ∧ result.appliedCount = 0 ∧ result.appliedUpToSeq = 0

theorem rejectionReportsNothing_iff (t : JournalTable) (batch : JournalBatchFrame) :
    RejectionReportsNothing t (applyBatch sha256 env appliedValue t batch).1
        (applyBatch sha256 env appliedValue t batch).2 ↔
      NothingCounted sha256 env t batch := by
  have hsuccess := @applyBatch_success_iff sha256 env appliedValue t batch
  obtain ⟨error, hearly, heq⟩ | ⟨error, hbegin, hprepare, -, heq⟩ | ⟨-, -, -, -, heq⟩ :=
    applyBatch_cases sha256 env appliedValue t batch
  · rw [heq]
    exact iff_of_true (fun _ => ⟨rfl, rfl, rfl⟩) (.inr (or_assoc.mp (.inl hearly)))
  · have hzero := @counters_zero_iff sha256 env appliedValue 0 ⟨t, 0, 0⟩ rfl rfl batch.entries
    have hrefused : ¬ Accepts sha256 env t batch := by simp [← hsuccess, heq]
    rw [heq, RejectionReportsNothing, NothingCounted, ← hzero]
    simp [hrefused, hbegin, hprepare]
  · have haccepts := hsuccess.mp (by rw [heq])
    rw [heq]
    exact iff_of_true nofun (.inl haccepts)

theorem appliedUpToSeq_applyBatch (sha256 : Bytes → Bytes) (env : ApplyEnv) (appliedValue : Int32) (t : JournalTable)
    (batch : JournalBatchFrame) :
    (applyBatch sha256 env appliedValue t batch).2.appliedUpToSeq = 0 ∨
      ∃ e ∈ batch.entries, (applyBatch sha256 env appliedValue t batch).2.appliedUpToSeq = e.seq := by
  have hloop := appliedUpToSeq_applyEntries sha256 env appliedValue 0 ⟨t, 0, 0⟩ batch.entries
  obtain ⟨error, -, heq⟩ | ⟨error, -, -, -, heq⟩ | ⟨-, -, -, -, heq⟩ :=
    applyBatch_cases sha256 env appliedValue t batch
  · rw [heq]
    exact .inl rfl
  · rw [heq]
    exact hloop
  · rw [heq]
    exact hloop

end Counters

end SyncEngine

section Runs

variable (lz4 : Lz4) (hmacSha256 : Bytes → Bytes → Bytes) (sha256 : Bytes → Bytes)

structure IngressHistory where
  state : IngressState
  committed : List (UInt32 × JournalBatchFrame)

def ingressStart (t : JournalTable) : IngressHistory := ⟨{ journal := t }, []⟩

def ingressStep (h : IngressHistory) (c : WireCall) : IngressHistory :=
  let called := applyWireBatch c lz4 hmacSha256 sha256 h.state
  ⟨called.1, if called.2.success then
    ((admitted c lz4 hmacSha256 h.state).map fun batch => (c.peer, batch)).toList ++ h.committed else h.committed⟩

def CallReportsNothing (h : IngressHistory) (c : WireCall) : Prop :=
  RejectionReportsNothing h.state.journal (applyWireBatch c lz4 hmacSha256 sha256 h.state).1.journal
    (applyWireBatch c lz4 hmacSha256 sha256 h.state).2

def CallCountsNothing (h : IngressHistory) (c : WireCall) : Prop :=
  ∀ batch, admitted c lz4 hmacSha256 h.state = some batch → NothingCounted sha256 c.env h.state.journal batch

def SeqCommitted (h : IngressHistory) (peer : UInt32) (seq : UInt64) : Prop :=
  seq = 0 ∨ ∃ batch, (peer, batch) ∈ h.committed ∧ ∃ e ∈ batch.entries, seq ≤ e.seq

def AppliedWithinCommitted (h : IngressHistory) : Prop :=
  ∀ peer snapshot, peerIngressTelemetry h.state.inflight h.state.telemetry peer = some snapshot →
    SeqCommitted h peer snapshot.lastAppliedUpToSeq

def TelemetryWithinCommitted (h : IngressHistory) : Prop :=
  ∀ peer t, h.state.telemetry.find? peer = some t → SeqCommitted h peer t.lastAppliedUpToSeq

variable {lz4 hmacSha256 sha256}

theorem applyWireBatch_cases (lz4 : Lz4) (hmacSha256 : Bytes → Bytes → Bytes) (sha256 : Bytes → Bytes) (c : WireCall)
    (s : IngressState) :
    (∃ r, admitted c lz4 hmacSha256 s = none ∧ (applyWireBatch c lz4 hmacSha256 sha256 s).1.journal = s.journal ∧
      (applyWireBatch c lz4 hmacSha256 sha256 s).1.telemetry =
        recordPeerIngressResult c.clock.recordedUnixMs s.telemetry (rejectionOutcome c r) ∧
      (applyWireBatch c lz4 hmacSha256 sha256 s).2 = ⟨false, 0, 0, r.error⟩) ∨
    ∃ batch, admitted c lz4 hmacSha256 s = some batch ∧
      (applyWireBatch c lz4 hmacSha256 sha256 s).1.journal =
        (applyBatch sha256 c.env c.request.appliedValue s.journal batch).1 ∧
      (applyWireBatch c lz4 hmacSha256 sha256 s).1.telemetry =
        recordPeerIngressResult c.clock.recordedUnixMs s.telemetry
          (appliedOutcome c batch (applyBatch sha256 c.env c.request.appliedValue s.journal batch).2) ∧
      (applyWireBatch c lz4 hmacSha256 sha256 s).2 =
        (applyBatch sha256 c.env c.request.appliedValue s.journal batch).2 := by
  unfold applyWireBatch admitted
  obtain ⟨inflight, refused⟩ := enter c s.inflight
  cases refused with
  | some r => exact .inl ⟨r, rfl, rfl, rfl, rfl⟩
  | none =>
    obtain ⟨buckets, screened⟩ := screen c lz4 hmacSha256 s.buckets
    cases screened with
    | error r => exact .inl ⟨r, rfl, rfl, rfl, rfl⟩
    | ok batch => exact .inr ⟨batch, rfl, rfl, rfl, rfl⟩

theorem callReportsNothing_iff (h : IngressHistory) (c : WireCall) :
    CallReportsNothing lz4 hmacSha256 sha256 h c ↔ CallCountsNothing lz4 hmacSha256 sha256 h c := by
  unfold CallReportsNothing CallCountsNothing
  obtain ⟨r, hnone, hjournal, -, hresult⟩ | ⟨batch, hbatch, hjournal, -, hresult⟩ :=
    applyWireBatch_cases lz4 hmacSha256 sha256 c h.state
  · rw [hnone, hjournal, hresult]
    exact iff_of_true (fun _ => ⟨rfl, rfl, rfl⟩) nofun
  · rw [hbatch, hjournal, hresult, rejectionReportsNothing_iff]
    exact ⟨fun hcounted _ hsome => Option.some.inj hsome ▸ hcounted, fun hcounted => hcounted batch rfl⟩

theorem SeqCommitted.max {h : IngressHistory} {peer : UInt32} {a b : UInt64} (ha : SeqCommitted h peer a)
    (hb : SeqCommitted h peer b) : SeqCommitted h peer (max a b) := by
  obtain heq | heq := max_choice a b
  · rwa [heq]
  · rwa [heq]

theorem SeqCommitted.step {h : IngressHistory} {peer : UInt32} {seq : UInt64} (hseq : SeqCommitted h peer seq)
    (c : WireCall) : SeqCommitted (ingressStep lz4 hmacSha256 sha256 h c) peer seq := by
  refine hseq.imp id fun ⟨batch, hmem, hentry⟩ => ⟨batch, ?_, hentry⟩
  simp only [ingressStep]
  split_ifs
  · exact List.mem_append_right _ hmem
  · exact hmem

theorem seqCommitted_applied {h : IngressHistory} {c : WireCall} {batch : JournalBatchFrame}
    (hbatch : admitted c lz4 hmacSha256 h.state = some batch)
    (hresult : (applyWireBatch c lz4 hmacSha256 sha256 h.state).2 =
      (applyBatch sha256 c.env c.request.appliedValue h.state.journal batch).2)
    (hcounted : NothingCounted sha256 c.env h.state.journal batch) :
    SeqCommitted (ingressStep lz4 hmacSha256 sha256 h c) c.peer
      (applyBatch sha256 c.env c.request.appliedValue h.state.journal batch).2.appliedUpToSeq := by
  cases hs : (applyBatch sha256 c.env c.request.appliedValue h.state.journal batch).2.success with
  | false => exact .inl ((rejectionReportsNothing_iff h.state.journal batch).mpr hcounted hs).2.2
  | true =>
    have hmem : (c.peer, batch) ∈ (ingressStep lz4 hmacSha256 sha256 h c).committed := by
      simp [ingressStep, hresult, hs, hbatch]
    obtain hzero | ⟨e, he, hseq⟩ := appliedUpToSeq_applyBatch sha256 c.env c.request.appliedValue h.state.journal batch
    · exact .inl hzero
    · exact .inr ⟨batch, hmem, e, he, hseq.le⟩

theorem telemetryWithinCommitted_record {h h' : IngressHistory} {nowMs : UInt64} {o : IngressOutcome}
    (hkept : ∀ peer seq, SeqCommitted h peer seq → SeqCommitted h' peer seq)
    (hrecord : h'.state.telemetry = recordPeerIngressResult nowMs h.state.telemetry o)
    (hnew : SeqCommitted h' o.peerSiteId o.lastAppliedUpToSeq) (hinv : TelemetryWithinCommitted h) :
    TelemetryWithinCommitted h' := by
  intro peer t ht
  rw [hrecord] at ht
  obtain hold | ⟨rfl, hmax⟩ := find?_recordPeerIngressResult ht
  · exact hkept peer _ (hinv peer t hold)
  · rw [hmax]
    refine SeqCommitted.max ?_ hnew
    cases hprevious : h.state.telemetry.find? o.peerSiteId with
    | none => exact .inl rfl
    | some previous => exact hkept _ _ (hinv _ previous hprevious)

theorem telemetryWithinCommitted_step {h : IngressHistory} {c : WireCall} (hinv : TelemetryWithinCommitted h)
    (hcounts : CallCountsNothing lz4 hmacSha256 sha256 h c) :
    TelemetryWithinCommitted (ingressStep lz4 hmacSha256 sha256 h c) := by
  obtain ⟨r, -, -, hrecord, -⟩ | ⟨batch, hbatch, -, hrecord, hresult⟩ :=
    applyWireBatch_cases lz4 hmacSha256 sha256 c h.state
  · exact telemetryWithinCommitted_record (fun _ _ hseq => hseq.step c) hrecord (.inl rfl) hinv
  · have hnew := seqCommitted_applied hbatch hresult (hcounts batch hbatch)
    exact telemetryWithinCommitted_record (fun _ _ hseq => hseq.step c) hrecord hnew hinv

theorem TelemetryWithinCommitted.snapshots {h : IngressHistory} (hinv : TelemetryWithinCommitted h) :
    AppliedWithinCommitted h := by
  intro peer snapshot hsnapshot
  obtain hzero | ⟨t, ht, heq⟩ := lastAppliedUpToSeq_snapshot hsnapshot
  · exact .inl hzero
  · rw [heq]
    exact hinv peer t ht

end Runs

theorem rejected_batch_reports_nothing_iff (lz4 : Lz4) (hmacSha256 : Bytes → Bytes → Bytes) (sha256 : Bytes → Bytes) :
    (∀ env appliedValue t batch,
      RejectionReportsNothing t (applyBatch sha256 env appliedValue t batch).1
          (applyBatch sha256 env appliedValue t batch).2 ↔ NothingCounted sha256 env t batch) ∧
    ∀ t calls,
      (AllSteps (ingressStep lz4 hmacSha256 sha256) (CallReportsNothing lz4 hmacSha256 sha256) (ingressStart t) calls ↔
        AllSteps (ingressStep lz4 hmacSha256 sha256) (CallCountsNothing lz4 hmacSha256 sha256) (ingressStart t) calls) ∧
      (AllSteps (ingressStep lz4 hmacSha256 sha256) (CallCountsNothing lz4 hmacSha256 sha256) (ingressStart t) calls →
        AllStates (ingressStep lz4 hmacSha256 sha256) AppliedWithinCommitted (ingressStart t) calls) := by
  refine ⟨fun env appliedValue t batch => rejectionReportsNothing_iff t batch, fun t calls => ⟨?_, fun hcounts => ?_⟩⟩
  · exact allSteps_congr _ callReportsNothing_iff
  · have hstart : TelemetryWithinCommitted (ingressStart t) := nofun
    have hstates := allStates_of_step _ (fun h c hinv hc => telemetryWithinCommitted_step hinv hc) hstart hcounts
    exact hstates.mono _ fun h hinv => hinv.snapshots

def plainWire (batch : JournalBatchFrame) : Bytes :=
  writeHeader ⟨0, UInt32.ofNat (batchPayload batch).length, UInt32.ofNat (batchPayload batch).length⟩ ++
    batchPayload batch

def siteSevenCall (batch : JournalBatchFrame) : WireCall where
  request := { remoteHandshake := { siteId := 7, schemaVersion := 1 } }
  wireBatch := plainWire batch
  clock := ⟨1000, 1001, 1, 0⟩
  env := ⟨none, none, fun _ => none, none, fun _ => []⟩

def noLz4 : Lz4 := ⟨fun _ => none, fun _ _ => none⟩

def noHmac : Bytes → Bytes → Bytes := fun _ _ => []

def wholeBatch : JournalBatchFrame := ⟨0, 5, [accountEntry 5 100 7]⟩

def refusedBatch : JournalBatchFrame := ⟨5, 6, [{ accountEntry 6 250 7 with checksum := [] }]⟩

theorem rejected_batch_reports_nothing_sample :
    AllStates (ingressStep noLz4 noHmac sampleSha256) AppliedWithinCommitted (ingressStart .empty)
      [siteSevenCall wholeBatch, siteSevenCall refusedBatch] := by
  apply ((rejected_batch_reports_nothing_iff noLz4 noHmac sampleSha256).2 .empty _).2
  refine ⟨fun batch hbatch => ?_, fun batch hbatch => ?_, trivial⟩
  · have hwhole : admitted (siteSevenCall wholeBatch) noLz4 noHmac (ingressStart .empty).state = some wholeBatch := by
      decide +kernel
    rw [hwhole] at hbatch
    obtain rfl := Option.some.inj hbatch
    have hsuccess : (applyBatch sampleSha256 (siteSevenCall wholeBatch).env 2 .empty wholeBatch).2.success = true := by
      decide +kernel
    exact .inl (applyBatch_success_iff.mp hsuccess)
  · have hrefused : admitted (siteSevenCall refusedBatch) noLz4 noHmac (ingressStep noLz4 noHmac sampleSha256
        (ingressStart .empty) (siteSevenCall wholeBatch)).state = some refusedBatch := by decide +kernel
    rw [hrefused] at hbatch
    obtain rfl := Option.some.inj hbatch
    exact .inr (.inr (.inr fun haccepted => absurd haccepted.checksum (by decide)))

def tornBatch : JournalBatchFrame := ⟨4, 6, [accountEntry 5 100 7, { accountEntry 6 250 7 with checksum := [] }]⟩

theorem rolled_back_batch_is_reported_as_applied :
    ¬ AllSteps (ingressStep noLz4 noHmac sampleSha256) (CallReportsNothing noLz4 noHmac sampleSha256)
        (ingressStart .empty) [siteSevenCall tornBatch] ∧
      ¬ AllStates (ingressStep noLz4 noHmac sampleSha256) AppliedWithinCommitted (ingressStart .empty)
        [siteSevenCall tornBatch] := by
  constructor
  · rintro ⟨h, -⟩
    have hcount := (h (by decide +kernel)).2.1
    exact absurd hcount (by decide +kernel)
  · rintro ⟨-, h⟩
    have hreported : (peerIngressTelemetry (ingressStep noLz4 noHmac sampleSha256 (ingressStart .empty)
        (siteSevenCall tornBatch)).state.inflight (ingressStep noLz4 noHmac sampleSha256 (ingressStart .empty)
        (siteSevenCall tornBatch)).state.telemetry 7).map (·.lastAppliedUpToSeq) = some 5 := by decide +kernel
    obtain ⟨snapshot, hsnapshot, hfive⟩ := Option.map_eq_some_iff.mp hreported
    obtain hzero | ⟨batch, hmem, -⟩ := h 7 snapshot hsnapshot
    · rw [hfive] at hzero
      exact absurd hzero (by decide)
    · have hnone : (ingressStep noLz4 noHmac sampleSha256 (ingressStart .empty)
          (siteSevenCall tornBatch)).committed.length = 0 := by decide +kernel
      rw [List.length_eq_zero_iff.mp hnone] at hmem
      cases hmem

end Tightrope.Sync
