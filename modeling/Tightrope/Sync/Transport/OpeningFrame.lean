import Tightrope.Sync.Transport.ReplicationIngress

namespace Tightrope.Sync.Transport

open Bytes MachineWords SyncEngine

structure AgreeOn (watched : Set UInt32) (g g' : IngressState) : Prop where
  journal : g.journal = g'.journal
  inflight : g.inflight = g'.inflight
  buckets : g.buckets = g'.buckets
  telemetry : ∀ siteId ∈ watched, g.telemetry.find? siteId = g'.telemetry.find? siteId

section Agreement

variable {watched : Set UInt32} {g g' g'' : IngressState}

theorem AgreeOn.refl (g : IngressState) : AgreeOn watched g g := ⟨rfl, rfl, rfl, fun _ _ => rfl⟩

theorem AgreeOn.trans (h : AgreeOn watched g g') (h' : AgreeOn watched g' g'') : AgreeOn watched g g'' :=
  ⟨h.journal.trans h'.journal, h.inflight.trans h'.inflight, h.buckets.trans h'.buckets,
    fun siteId hsite => (h.telemetry siteId hsite).trans (h'.telemetry siteId hsite)⟩

theorem find?_recordPeerIngressResult_congr (nowMs : UInt64) (o : IngressOutcome) {siteId : UInt32}
    {telemetry telemetry' : TelemetryMap} (h : telemetry.find? siteId = telemetry'.find? siteId) :
    (recordPeerIngressResult nowMs telemetry o).find? siteId =
      (recordPeerIngressResult nowMs telemetry' o).find? siteId := by
  unfold recordPeerIngressResult
  split_ifs
  · exact h
  · rw [FlatMap.find?_update, FlatMap.find?_update]
    split_ifs with hsite
    · rw [← hsite, h]
    · exact h

theorem find?_recordPeerIngressResult_of_ne (nowMs : UInt64) (telemetry : TelemetryMap) (o : IngressOutcome)
    {siteId : UInt32} (h : siteId ≠ o.peerSiteId) :
    (recordPeerIngressResult nowMs telemetry o).find? siteId = telemetry.find? siteId := by
  unfold recordPeerIngressResult
  split_ifs
  · rfl
  · rw [FlatMap.find?_update, if_neg h]

theorem agreeOn_recordPeerIngressRejection (h : AgreeOn watched g g') (nowMs : UInt64) (peerSiteId : UInt32)
    (wireBytes : ℕ) (reason : PeerIngressRejectionReason) (error : Bytes) :
    AgreeOn watched (recordPeerIngressRejection nowMs g peerSiteId wireBytes reason error)
      (recordPeerIngressRejection nowMs g' peerSiteId wireBytes reason error) :=
  ⟨h.journal, h.inflight, h.buckets,
    fun siteId hsite => find?_recordPeerIngressResult_congr nowMs _ (h.telemetry siteId hsite)⟩

theorem agreeOn_rejection_elsewhere (nowMs : UInt64) (g : IngressState) {peerSiteId : UInt32}
    (h : peerSiteId ≠ 0 → peerSiteId ∉ watched) (wireBytes : ℕ) (reason : PeerIngressRejectionReason) (error : Bytes) :
    AgreeOn watched (recordPeerIngressRejection nowMs g peerSiteId wireBytes reason error) g := by
  refine ⟨rfl, rfl, rfl, fun siteId hsite => ?_⟩
  by_cases hzero : peerSiteId = 0
  · rw [recordPeerIngressRejection, recordPeerIngressResult, if_pos hzero]
  · apply find?_recordPeerIngressResult_of_ne
    rintro rfl
    exact h hzero hsite

end Agreement

section Calls

variable (lz4 : Lz4) (hmacSha256 : Bytes → Bytes → Bytes) (sha256 : Bytes → Bytes) {watched : Set UInt32}
  {g g' : IngressState}

theorem agreeOn_applyWireBatch (h : AgreeOn watched g g') (c : WireCall) :
    AgreeOn watched (applyWireBatch c lz4 hmacSha256 sha256 g).1 (applyWireBatch c lz4 hmacSha256 sha256 g').1 ∧
      (applyWireBatch c lz4 hmacSha256 sha256 g).2 = (applyWireBatch c lz4 hmacSha256 sha256 g').2 := by
  have hrecorded (o : IngressOutcome) : ∀ siteId ∈ watched,
      (recordPeerIngressResult c.clock.recordedUnixMs g.telemetry o).find? siteId =
        (recordPeerIngressResult c.clock.recordedUnixMs g'.telemetry o).find? siteId :=
    fun siteId hsite => find?_recordPeerIngressResult_congr _ o (h.telemetry siteId hsite)
  simp only [applyWireBatch, ← h.inflight, ← h.buckets, ← h.journal]
  generalize enter c g.inflight = entered
  obtain ⟨inflight, refused⟩ := entered
  cases refused with
  | some r => exact ⟨⟨rfl, rfl, rfl, hrecorded _⟩, rfl⟩
  | none =>
    simp only
    generalize screen c lz4 hmacSha256 g.buckets = screened
    obtain ⟨buckets, screened⟩ := screened
    cases screened with
    | error r => exact ⟨⟨rfl, rfl, rfl, hrecorded _⟩, rfl⟩
    | ok batch => exact ⟨⟨rfl, rfl, rfl, hrecorded _⟩, rfl⟩

structure FrameAgrees (watched : Set UInt32) (r r' : FrameResult) : Prop where
  session : r.session = r'.session
  outcome : r.outcome = r'.outcome
  stop : r.stop = r'.stop
  ingress : AgreeOn watched r.ingress r'.ingress

theorem agreeOn_consumeFrame (h : AgreeOn watched g g') (w : Surroundings) (frame : RpcFrame)
    (s : ReplicationIngressSession) (o : ReplicationIngressOutcome) :
    FrameAgrees watched (consumeFrame lz4 hmacSha256 sha256 w frame s g o)
      (consumeFrame lz4 hmacSha256 sha256 w frame s g' o) := by
  have hrejected (siteId : UInt32) (reason : PeerIngressRejectionReason) (error : Bytes) :=
    agreeOn_recordPeerIngressRejection h w.clock.recordedUnixMs siteId frame.payload.length reason error
  unfold consumeFrame
  simp only
  split
  · split
    · exact ⟨rfl, rfl, rfl, h⟩
    · split
      · exact ⟨rfl, rfl, rfl, h⟩
      · split
        · exact ⟨rfl, rfl, rfl, hrejected _ _ _⟩
        · split
          · exact ⟨rfl, rfl, rfl, hrejected _ _ _⟩
          · exact ⟨rfl, rfl, rfl, h⟩
  · split
    · split
      · exact ⟨rfl, rfl, rfl, hrejected _ _ _⟩
      · exact ⟨rfl, rfl, rfl, h⟩
    · obtain ⟨happlied, hresult⟩ := agreeOn_applyWireBatch lz4 hmacSha256 sha256 h
        ⟨s.dbOpen, s.request, frame.payload, w.limits, w.clock, w.env⟩
      rw [← hresult]
      split
      · exact ⟨rfl, rfl, rfl, happlied⟩
      · exact ⟨rfl, rfl, rfl, happlied⟩

structure CallAgrees (watched : Set UInt32) (r r' : SessionState × ReplicationIngressOutcome) : Prop where
  session : r.1.session = r'.1.session
  outcome : r.2 = r'.2
  ingress : AgreeOn watched r.1.ingress r'.1.ingress

theorem agreeOn_consumeLoop (ws : ℕ → Surroundings) (n : ℕ) {st st' : SessionState} (o : ReplicationIngressOutcome)
    (hsession : st.session = st'.session) (h : AgreeOn watched st.ingress st'.ingress) :
    CallAgrees watched (consumeLoop lz4 hmacSha256 sha256 ws n st o)
      (consumeLoop lz4 hmacSha256 sha256 ws n st' o) := by
  induction n generalizing st st' o with
  | zero => exact ⟨hsession, rfl, h⟩
  | succ n ih =>
    rw [consumeLoop, consumeLoop, ← hsession]
    split
    · exact ⟨hsession, rfl, h⟩
    · obtain ⟨queue, popped⟩ := st.session.ingressQueue.pop
      cases popped with
      | none => exact ⟨rfl, rfl, h⟩
      | some frame =>
        have hframe := agreeOn_consumeFrame lz4 hmacSha256 sha256 h (ws o.consumedFrames) frame
          { st.session with ingressQueue := queue } { o with consumedFrames := o.consumedFrames + 1 }
        simp only [← hframe.stop, ← hframe.outcome]
        split
        · exact ⟨hframe.session, rfl, hframe.ingress⟩
        · exact ih _ hframe.session hframe.ingress

theorem agreeOn_consumeFrames (ws : ℕ → Surroundings) (frameBudget : UInt64) {st st' : SessionState}
    (hsession : st.session = st'.session) (h : AgreeOn watched st.ingress st'.ingress) :
    CallAgrees watched (consumeFrames lz4 hmacSha256 sha256 ws frameBudget st)
      (consumeFrames lz4 hmacSha256 sha256 ws frameBudget st') := by
  have hloop := agreeOn_consumeLoop lz4 hmacSha256 sha256 ws (if frameBudget = 0 then 1 else frameBudget).toNat
    { ok := true } hsession h
  exact ⟨hloop.session, by simp only [consumeFrames, hloop.session, hloop.outcome], hloop.ingress⟩

theorem agreeOn_ingest (ws : ℕ → Surroundings) (bytes : Bytes) (s : ReplicationIngressSession)
    (h : AgreeOn watched g g') :
    CallAgrees watched (SessionState.ingest lz4 hmacSha256 sha256 ws bytes ⟨s, g, []⟩)
      (SessionState.ingest lz4 hmacSha256 sha256 ws bytes ⟨s, g', []⟩) := by
  unfold SessionState.ingest
  obtain ⟨queue, error⟩ := s.ingressQueue.ingest bytes
  cases error with
  | none => exact agreeOn_consumeFrames lz4 hmacSha256 sha256 ws _ rfl h
  | some error =>
    refine ⟨rfl, rfl, ?_⟩
    simp only
    split
    · exact agreeOn_recordPeerIngressRejection h _ _ _ _ _
    · exact h

theorem agreeOn_drain (ws : ℕ → Surroundings) (s : ReplicationIngressSession) (h : AgreeOn watched g g') :
    CallAgrees watched (SessionState.drain lz4 hmacSha256 sha256 ws ⟨s, g, []⟩)
      (SessionState.drain lz4 hmacSha256 sha256 ws ⟨s, g', []⟩) :=
  agreeOn_consumeFrames lz4 hmacSha256 sha256 ws _ rfl h

end Calls

def OpensClaiming (watched : Set UInt32) (s : ReplicationIngressSession) (bytes : Bytes) : Prop :=
  (s.ingressQueue.ingest bytes).2 = none ∧ ∃ frame remote, (s.ingressQueue.ingest bytes).1.queue.head? = some frame ∧
    frame.channel = s.config.handshakeChannel ∧ decodeHandshake frame.payload = some remote ∧
      remote.siteId ≠ 0 ∧ remote.siteId ∈ watched

structure Unopened (s : ReplicationIngressSession) : Prop where
  incomplete : s.handshakeComplete = false
  waiting : s.ingressQueue.queue = []
  unnamed : s.request.remoteHandshake.siteId = 0

def LeavesNothing (watched : Set UInt32) (g : IngressState) (r : SessionState × ReplicationIngressOutcome) : Prop :=
  r.1.session.handshakeComplete = true ∨
    AgreeOn watched r.1.ingress g ∧ (r.2.ok = false ∨ Unopened r.1.session)

section Opening

variable (lz4 : Lz4) (hmacSha256 : Bytes → Bytes → Bytes) (sha256 : Bytes → Bytes) {watched : Set UInt32}

theorem consumeFrame_opening (w : Surroundings) (frame : RpcFrame) {s : ReplicationIngressSession} (g : IngressState)
    (o : ReplicationIngressOutcome) (hopen : s.handshakeComplete = false)
    (hunwatched : ∀ remote, frame.channel = s.config.handshakeChannel → decodeHandshake frame.payload = some remote →
      remote.siteId ≠ 0 → remote.siteId ∉ watched) :
    let r := consumeFrame lz4 hmacSha256 sha256 w frame s g o
    r.session.handshakeComplete = true ∨ AgreeOn watched r.ingress g ∧ r.outcome.ok = false ∧ r.stop = true := by
  intro r
  have hr : r = consumeFrame lz4 hmacSha256 sha256 w frame s g o := rfl
  unfold consumeFrame at hr
  simp only [hopen, Bool.false_eq_true, not_false_eq_true, ↓reduceIte] at hr
  by_cases hchannel : frame.channel = s.config.handshakeChannel
  · simp only [hchannel, ne_eq, not_true_eq_false, ↓reduceIte] at hr
    cases hdecode : decodeHandshake frame.payload with
    | none =>
      simp only [hdecode] at hr
      rw [hr]
      exact .inr ⟨.refl g, rfl, rfl⟩
    | some remote =>
      have hrejected := agreeOn_rejection_elsewhere w.clock.recordedUnixMs g (hunwatched remote hchannel hdecode)
        frame.payload.length
      simp only [hdecode] at hr
      split_ifs at hr
      · rw [hr]
        exact .inl rfl
      · rw [hr]
        exact .inr ⟨hrejected _ _, rfl, rfl⟩
      · rw [hr]
        exact .inr ⟨hrejected _ _, rfl, rfl⟩
  · simp only [hchannel, ne_eq, not_false_eq_true, ↓reduceIte] at hr
    rw [hr]
    exact .inr ⟨.refl g, rfl, rfl⟩

theorem handshakeComplete_consumeFrame (w : Surroundings) (frame : RpcFrame) {s : ReplicationIngressSession}
    (g : IngressState) (o : ReplicationIngressOutcome) (hdone : s.handshakeComplete = true) :
    (consumeFrame lz4 hmacSha256 sha256 w frame s g o).session.handshakeComplete = true := by
  obtain ⟨-, -, ⟨hopen, -⟩ | ⟨hopen, -⟩ | ⟨-, hsession, -⟩ | ⟨-, hsession, -⟩⟩ :=
    consumeFrame_cases lz4 hmacSha256 sha256 w frame s g o
  · rw [hdone] at hopen
    cases hopen
  · rw [hdone] at hopen
    cases hopen
  · rw [hsession, hdone]
  · rw [hsession, hdone]

theorem handshakeComplete_consumeLoop (ws : ℕ → Surroundings) (n : ℕ) {st : SessionState}
    {o : ReplicationIngressOutcome} (hdone : st.session.handshakeComplete = true) :
    (consumeLoop lz4 hmacSha256 sha256 ws n st o).1.session.handshakeComplete = true := by
  induction n generalizing st o with
  | zero => exact hdone
  | succ n ih =>
    rw [consumeLoop]
    split_ifs
    · obtain ⟨queue, popped⟩ := st.session.ingressQueue.pop
      cases popped with
      | none => exact hdone
      | some frame =>
        have hopened : { st.session with ingressQueue := queue }.handshakeComplete = true := hdone
        have hframe := handshakeComplete_consumeFrame lz4 hmacSha256 sha256 (ws o.consumedFrames) frame st.ingress
          { o with consumedFrames := o.consumedFrames + 1 } hopened
        simp only
        split_ifs
        · exact hframe
        · exact ih hframe
    · exact hdone

theorem consumeFrames_opening (ws : ℕ → Surroundings) (frameBudget : UInt64) {st : SessionState}
    (hopen : st.session.handshakeComplete = false) (hunnamed : st.session.request.remoteHandshake.siteId = 0)
    (hfirst : ∀ frame remote, st.session.ingressQueue.queue.head? = some frame →
      frame.channel = st.session.config.handshakeChannel → decodeHandshake frame.payload = some remote →
      remote.siteId ≠ 0 → remote.siteId ∉ watched) :
    LeavesNothing watched st.ingress (consumeFrames lz4 hmacSha256 sha256 ws frameBudget st) := by
  obtain ⟨n, hbudget⟩ : ∃ n, (if frameBudget = 0 then 1 else frameBudget).toNat = n + 1 := by
    apply Nat.exists_eq_succ_of_ne_zero
    split_ifs with hzero
    · decide
    · exact fun h => hzero (UInt64.toNat_inj.mp h)
  unfold consumeFrames
  simp only [hbudget]
  rw [consumeLoop]
  cases hqueue : st.session.ingressQueue.queue with
  | nil =>
    have hnone : st.session.ingressQueue.hasFrame = false := by simp [RpcIngressQueue.hasFrame, hqueue]
    rw [if_pos (by simp [hnone])]
    exact .inr ⟨.refl _, .inr ⟨hopen, hqueue, hunnamed⟩⟩
  | cons frame rest =>
    have hsome : st.session.ingressQueue.hasFrame = true := by simp [RpcIngressQueue.hasFrame, hqueue]
    obtain ⟨queue, hpop⟩ : ∃ queue, st.session.ingressQueue.pop = (queue, some frame) := by
      simp only [RpcIngressQueue.pop, hqueue]
      exact ⟨_, rfl⟩
    rw [if_neg (by simp [hsome]), hpop]
    have hframe := consumeFrame_opening lz4 hmacSha256 sha256 (ws 0) frame
      (s := { st.session with ingressQueue := queue }) st.ingress
      { ({ ok := true } : ReplicationIngressOutcome) with consumedFrames := 0 + 1 } hopen
      (fun remote => hfirst frame remote (by rw [hqueue]; rfl))
    simp only
    obtain hdone | ⟨hsame, hfailed, hstop⟩ := hframe
    · split_ifs
      · exact .inl hdone
      · exact .inl (handshakeComplete_consumeLoop lz4 hmacSha256 sha256 ws n hdone)
    · rw [if_pos hstop]
      exact .inr ⟨hsame, .inl hfailed⟩

theorem ingest_opening (ws : ℕ → Surroundings) {st : SessionState} {bytes : Bytes} (h : Unopened st.session)
    (hclaims : ¬ OpensClaiming watched st.session bytes) :
    LeavesNothing watched st.ingress (st.ingest lz4 hmacSha256 sha256 ws bytes) := by
  unfold SessionState.ingest
  cases hingest : st.session.ingressQueue.ingest bytes with
  | mk queue error =>
    cases error with
    | some error =>
      simp only [h.unnamed, ne_eq, not_true_eq_false, if_false]
      exact .inr ⟨.refl _, .inl rfl⟩
    | none =>
      apply consumeFrames_opening
      · exact h.incomplete
      · exact h.unnamed
      · intro frame remote hhead hchannel hdecode hsite hwatched
        apply hclaims
        rw [OpensClaiming, hingest]
        exact ⟨rfl, frame, remote, hhead, hchannel, hdecode, hsite, hwatched⟩

theorem drain_opening (ws : ℕ → Surroundings) {st : SessionState} (h : Unopened st.session) :
    LeavesNothing watched st.ingress (st.drain lz4 hmacSha256 sha256 ws) := by
  apply consumeFrames_opening
  · exact h.incomplete
  · exact h.unnamed
  · intro frame remote hhead
    rw [h.waiting] at hhead
    cases hhead

end Opening

end Tightrope.Sync.Transport
