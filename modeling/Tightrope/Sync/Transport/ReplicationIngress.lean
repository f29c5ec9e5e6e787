import Tightrope.Sync.Transport.RpcChannel
import Tightrope.Sync.WireIngress

namespace Tightrope.Sync.Transport

open Bytes MachineWords Runs SyncEngine

structure ReplicationIngressConfig where
  rpcLimits : RpcIngressLimits := {}
  handshakeChannel : UInt16 := 1
  replicationChannel : UInt16 := 2
  requireInitialHandshake : Bool := false
  rejectUnknownChannels : Bool := false
  maxFramesPerIngest : UInt64 := 0xFFFFFFFFFFFFFFFF

structure ReplicationIngressOutcome where
  ok : Bool := false
  error : Bytes := []
  handshakeComplete : Bool := false
  handshakeAccepted : Bool := false
  consumedFrames : ℕ := 0
  ignoredFrames : ℕ := 0
  appliedBatches : ℕ := 0
  appliedEntries : ℕ := 0
  pauseReads : Bool := false
  resumeReads : Bool := false
  deriving DecidableEq

structure ReplicationIngressSession where
  dbOpen : Bool := true
  request : ApplyWireBatchRequest
  config : ReplicationIngressConfig
  ingressQueue : RpcIngressQueue
  handshakeComplete : Bool

def ReplicationIngressSession.create (dbOpen : Bool) (request : ApplyWireBatchRequest)
    (config : ReplicationIngressConfig) : ReplicationIngressSession :=
  ⟨dbOpen, request, config, .ofLimits config.rpcLimits, !config.requireInitialHandshake⟩

/-- What a call reads besides the session: the configured limits, the clocks and the database. -/
structure Surroundings where
  limits : IngressLimits := {}
  clock : IngressClock
  env : ApplyEnv

def recordPeerIngressRejection (nowMs : UInt64) (g : IngressState) (peerSiteId : UInt32) (wireBytes : ℕ)
    (reason : PeerIngressRejectionReason) (error : Bytes) : IngressState :=
  let outcome : IngressOutcome := ⟨peerSiteId, 0, 0, false, UInt64.ofNat wireBytes, reason, error, 0, none⟩
  { g with telemetry := recordPeerIngressResult nowMs g.telemetry outcome }

structure ConsumedFrame where
  frame : RpcFrame
  before : JournalTable
  after : JournalTable
  call : Option WireCall

structure FrameResult where
  session : ReplicationIngressSession
  ingress : IngressState
  outcome : ReplicationIngressOutcome
  call : Option WireCall := none
  stop : Bool := false

structure SessionState where
  session : ReplicationIngressSession
  ingress : IngressState
  consumed : List ConsumedFrame := []

section Session

variable (lz4 : Lz4) (hmacSha256 : Bytes → Bytes → Bytes) (sha256 : Bytes → Bytes)

def consumeFrame (w : Surroundings) (frame : RpcFrame) (s : ReplicationIngressSession) (g : IngressState)
    (o : ReplicationIngressOutcome) : FrameResult :=
  let fail (s : ReplicationIngressSession) (g : IngressState) (error : Bytes) : FrameResult :=
    { session := s, ingress := g, outcome := { o with ok := false, error := error }, stop := true }
  let reject (s : ReplicationIngressSession) (reason : PeerIngressRejectionReason) (error : Bytes) : FrameResult :=
    fail s (recordPeerIngressRejection w.clock.recordedUnixMs g s.request.remoteHandshake.siteId frame.payload.length
      reason error) error
  let channel := decimal frame.channel.toNat
  if ¬ s.handshakeComplete then
    if frame.channel ≠ s.config.handshakeChannel then
      fail s g (ofString "unexpected rpc channel " ++ channel ++ ofString " before handshake (expected " ++
        decimal s.config.handshakeChannel.toNat ++ ofString ")")
    else match decodeHandshake frame.payload with
      | none => fail s g (ofString "invalid handshake frame payload")
      | some remote =>
        let s := { s with request := { s.request with remoteHandshake := remote } }
        let auth := validateHandshakeAuth hmacSha256 remote s.request.clusterSharedSecret s.request.requireHandshakeAuth
        let schema := validateHandshakeSchemaVersion remote s.request.localSchemaVersion s.request.allowSchemaDowngrade
          s.request.minSupportedSchemaVersion
        if ¬ auth.accepted then reject s .handshakeAuth (ofString "handshake rejected: " ++ auth.error)
        else if ¬ schema.accepted then reject s .handshakeSchema (ofString "handshake rejected: " ++ schema.error)
        else
          { session := { s with handshakeComplete := true }, ingress := g,
            outcome := { o with handshakeAccepted := true } }
  else if frame.channel ≠ s.config.replicationChannel then
    if s.config.rejectUnknownChannels then
      reject s .ingressProtocol (ofString "unexpected rpc channel " ++ channel ++ ofString " (expected " ++
        decimal s.config.replicationChannel.toNat ++ ofString ")")
    else { session := s, ingress := g, outcome := { o with ignoredFrames := o.ignoredFrames + 1 } }
  else
    let call : WireCall := ⟨s.dbOpen, s.request, frame.payload, w.limits, w.clock, w.env⟩
    let (applied, result) := applyWireBatch call lz4 hmacSha256 sha256 g
    if ¬ result.success then
      { session := s, ingress := applied, outcome := { o with ok := false, error := result.error }, call := call,
        stop := true }
    else
      { session := s, ingress := applied, call := call
        outcome := { o with
          appliedBatches := o.appliedBatches + 1
          appliedEntries := o.appliedEntries + result.appliedCount } }

def consumeLoop (ws : ℕ → Surroundings) : ℕ → SessionState → ReplicationIngressOutcome →
    SessionState × ReplicationIngressOutcome
  | 0, st, o => (st, o)
  | n + 1, st, o =>
    if ¬ st.session.ingressQueue.hasFrame then (st, o)
    else match st.session.ingressQueue.pop with
      | (queue, none) => ({ st with session := { st.session with ingressQueue := queue } }, o)
      | (queue, some frame) =>
        let r := consumeFrame lz4 hmacSha256 sha256 (ws o.consumedFrames) frame
          { st.session with ingressQueue := queue } st.ingress { o with consumedFrames := o.consumedFrames + 1 }
        let st' := ⟨r.session, r.ingress, st.consumed ++ [⟨frame, st.ingress.journal, r.ingress.journal, r.call⟩]⟩
        if r.stop then (st', r.outcome) else consumeLoop ws n st' r.outcome

def ReplicationIngressOutcome.ofSession (o : ReplicationIngressOutcome) (s : ReplicationIngressSession) :
    ReplicationIngressOutcome :=
  { o with
    handshakeComplete := s.handshakeComplete
    pauseReads := s.ingressQueue.shouldPauseReads
    resumeReads := s.ingressQueue.shouldResumeReads }

def consumeFrames (ws : ℕ → Surroundings) (frameBudget : UInt64) (st : SessionState) :
    SessionState × ReplicationIngressOutcome :=
  let maxFrames := if frameBudget = 0 then 1 else frameBudget
  let r := consumeLoop lz4 hmacSha256 sha256 ws maxFrames.toNat st { ok := true }
  (r.1, r.2.ofSession r.1.session)

def SessionState.ingest (ws : ℕ → Surroundings) (bytes : Bytes) (st : SessionState) :
    SessionState × ReplicationIngressOutcome :=
  let (queue, ingressError) := st.session.ingressQueue.ingest bytes
  let st := { st with session := { st.session with ingressQueue := queue } }
  match ingressError with
  | some error =>
    let peer := st.session.request.remoteHandshake.siteId
    let ingress := if peer ≠ 0 then
        recordPeerIngressRejection (ws 0).clock.recordedUnixMs st.ingress peer bytes.length .ingressProtocol error
      else st.ingress
    ({ st with ingress := ingress }, ReplicationIngressOutcome.ofSession { ok := false, error := error } st.session)
  | none => consumeFrames lz4 hmacSha256 sha256 ws st.session.config.maxFramesPerIngest st

def SessionState.drain (ws : ℕ → Surroundings) (st : SessionState) : SessionState × ReplicationIngressOutcome :=
  consumeFrames lz4 hmacSha256 sha256 ws st.session.config.maxFramesPerIngest st

inductive SessionCall
  | ingest (bytes : Bytes) (ws : ℕ → Surroundings)
  | drain (ws : ℕ → Surroundings)

def SessionState.step (st : SessionState) : SessionCall → SessionState
  | .ingest bytes ws => (st.ingest lz4 hmacSha256 sha256 ws bytes).1
  | .drain ws => (st.drain lz4 hmacSha256 sha256 ws).1

end Session

def sessionStart (dbOpen : Bool) (request : ApplyWireBatchRequest) (config : ReplicationIngressConfig)
    (ingress : IngressState) : SessionState :=
  ⟨.create dbOpen request config, ingress, []⟩

section Authentication

variable (hmacSha256 : Bytes → Bytes → Bytes) (config : ReplicationIngressConfig) (request : ApplyWireBatchRequest)

structure HandshakeAccepted (c : ConsumedFrame) (handshake : HandshakeFrame) : Prop where
  channel : c.frame.channel = config.handshakeChannel
  decoded : decodeHandshake c.frame.payload = some handshake
  auth : (validateHandshakeAuth hmacSha256 handshake request.clusterSharedSecret
    request.requireHandshakeAuth).accepted = true
  schema : (validateHandshakeSchemaVersion handshake request.localSchemaVersion request.allowSchemaDowngrade
    request.minSupportedSchemaVersion).accepted = true

structure WriteAuthenticated (earlier : List ConsumedFrame) (c : ConsumedFrame) : Prop where
  modified : c.after ≠ c.before → ∃ p ∈ earlier, ∃ handshake, HandshakeAccepted hmacSha256 config request p handshake
  attributed : ∀ call, c.call = some call →
    ∃ p ∈ earlier, ∃ handshake, HandshakeAccepted hmacSha256 config request p handshake ∧
      call.peer = handshake.siteId

def WritesAuthenticated (consumed : List ConsumedFrame) : Prop :=
  ∀ earlier c later, consumed = earlier ++ c :: later → WriteAuthenticated hmacSha256 config request earlier c

def JournalThrough : JournalTable → List ConsumedFrame → JournalTable → Prop
  | t, [], t' => t = t'
  | t, c :: cs, t' => c.before = t ∧ JournalThrough c.after cs t'

def SameSettings (a b : ApplyWireBatchRequest) : Prop :=
  { a with remoteHandshake := {} } = { b with remoteHandshake := {} }

structure Guarded (t : JournalTable) (st : SessionState) : Prop where
  config_eq : st.session.config = config
  settings : SameSettings st.session.request request
  complete : st.session.handshakeComplete = true →
    ∃ p ∈ st.consumed, HandshakeAccepted hmacSha256 config request p st.session.request.remoteHandshake
  writes : WritesAuthenticated hmacSha256 config request st.consumed
  through : JournalThrough t st.consumed st.ingress.journal

variable {hmacSha256 config request}

theorem writesAuthenticated_snoc {consumed : List ConsumedFrame} {c : ConsumedFrame}
    (h : WritesAuthenticated hmacSha256 config request consumed)
    (hc : WriteAuthenticated hmacSha256 config request consumed c) :
    WritesAuthenticated hmacSha256 config request (consumed ++ [c]) := by
  intro earlier d later heq
  obtain rfl | ⟨later, last, rfl⟩ := List.eq_nil_or_concat later
  · obtain ⟨rfl, hlast⟩ := List.append_inj' heq rfl
    obtain rfl := List.singleton_inj.mp hlast
    exact hc
  · rw [List.concat_eq_append, ← List.cons_append, ← List.append_assoc] at heq
    obtain ⟨hconsumed, -⟩ := List.append_inj' heq rfl
    exact h earlier d later hconsumed

theorem journalThrough_snoc {t t' : JournalTable} {consumed : List ConsumedFrame} (h : JournalThrough t consumed t')
    {c : ConsumedFrame} (hc : c.before = t') : JournalThrough t (consumed ++ [c]) c.after := by
  induction consumed generalizing t with
  | nil => exact ⟨hc.trans h.symm, rfl⟩
  | cons d ds ih => exact ⟨h.1, ih h.2⟩

section Frames

variable (lz4 : Lz4) (hmacSha256 : Bytes → Bytes → Bytes) (sha256 : Bytes → Bytes)

theorem consumeFrame_cases (w : Surroundings) (frame : RpcFrame) (s : ReplicationIngressSession) (g : IngressState)
    (o : ReplicationIngressOutcome) :
    let r := consumeFrame lz4 hmacSha256 sha256 w frame s g o
    r.session.config = s.config ∧ SameSettings r.session.request s.request ∧
    ((s.handshakeComplete = false ∧ r.session.handshakeComplete = false ∧ r.ingress.journal = g.journal ∧
        r.call = none) ∨
      (s.handshakeComplete = false ∧ r.ingress.journal = g.journal ∧ r.call = none ∧
        ∀ c : ConsumedFrame, c.frame = frame →
          HandshakeAccepted hmacSha256 s.config s.request c r.session.request.remoteHandshake) ∨
      (s.handshakeComplete = true ∧ r.session = s ∧ r.ingress.journal = g.journal ∧ r.call = none) ∨
      (s.handshakeComplete = true ∧ r.session = s ∧ ∃ call, r.call = some call ∧ call.request = s.request)) := by
  intro r
  have hr : r = consumeFrame lz4 hmacSha256 sha256 w frame s g o := rfl
  unfold consumeFrame at hr
  cases hcomplete : s.handshakeComplete with
  | true =>
    simp only [hcomplete, not_true_eq_false, ↓reduceIte] at hr
    by_cases hchannel : frame.channel = s.config.replicationChannel
    · simp only [hchannel, ne_eq, not_true_eq_false, ↓reduceIte] at hr
      split_ifs at hr
      · rw [hr]
        exact ⟨rfl, rfl, .inr (.inr (.inr ⟨rfl, rfl, _, rfl, rfl⟩))⟩
      · rw [hr]
        exact ⟨rfl, rfl, .inr (.inr (.inr ⟨rfl, rfl, _, rfl, rfl⟩))⟩
    · simp only [hchannel, ne_eq, not_false_eq_true, ↓reduceIte] at hr
      split_ifs at hr
      · rw [hr]
        exact ⟨rfl, rfl, .inr (.inr (.inl ⟨rfl, rfl, rfl, rfl⟩))⟩
      · rw [hr]
        exact ⟨rfl, rfl, .inr (.inr (.inl ⟨rfl, rfl, rfl, rfl⟩))⟩
  | false =>
    simp only [hcomplete, Bool.false_eq_true, not_false_eq_true, ↓reduceIte] at hr
    by_cases hchannel : frame.channel = s.config.handshakeChannel
    · simp only [hchannel, ne_eq, not_true_eq_false, ↓reduceIte] at hr
      cases hdecode : decodeHandshake frame.payload with
      | none =>
        simp only [hdecode] at hr
        rw [hr]
        exact ⟨rfl, rfl, .inl ⟨rfl, hcomplete, rfl, rfl⟩⟩
      | some remote =>
        simp only [hdecode] at hr
        split_ifs at hr with hauth hschema
        · rw [hr]
          refine ⟨rfl, rfl, .inr (.inl ⟨rfl, rfl, rfl, fun c hc => ?_⟩)⟩
          exact ⟨hc ▸ hchannel, hc ▸ hdecode, hauth, hschema⟩
        · rw [hr]
          exact ⟨rfl, rfl, .inl ⟨rfl, rfl, rfl, rfl⟩⟩
        · rw [hr]
          exact ⟨rfl, rfl, .inl ⟨rfl, rfl, rfl, rfl⟩⟩
    · simp only [hchannel, ne_eq, not_false_eq_true, ↓reduceIte] at hr
      rw [hr]
      exact ⟨rfl, rfl, .inl ⟨rfl, hcomplete, rfl, rfl⟩⟩

theorem HandshakeAccepted.congr {config' : ReplicationIngressConfig} {request' : ApplyWireBatchRequest}
    {c : ConsumedFrame} {handshake : HandshakeFrame} (hconfig : config' = config)
    (hsettings : SameSettings request' request) (h : HandshakeAccepted hmacSha256 config' request' c handshake) :
    HandshakeAccepted hmacSha256 config request c handshake := by
  simp only [SameSettings, ApplyWireBatchRequest.mk.injEq, true_and] at hsettings
  obtain ⟨hsecret, hrequire, hlocal, hdowngrade, hmin, -⟩ := hsettings
  obtain ⟨hchannel, hdecoded, hauth, hschema⟩ := h
  rw [hconfig] at hchannel
  rw [hsecret, hrequire] at hauth
  rw [hlocal, hdowngrade, hmin] at hschema
  exact ⟨hchannel, hdecoded, hauth, hschema⟩

theorem guarded_consumeFrame {t : JournalTable} {st : SessionState} (h : Guarded hmacSha256 config request t st)
    (w : Surroundings) (frame : RpcFrame) (queue : RpcIngressQueue) (o : ReplicationIngressOutcome) :
    let r := consumeFrame lz4 hmacSha256 sha256 w frame { st.session with ingressQueue := queue } st.ingress o
    Guarded hmacSha256 config request t
      ⟨r.session, r.ingress, st.consumed ++ [⟨frame, st.ingress.journal, r.ingress.journal, r.call⟩]⟩ := by
  intro r
  obtain ⟨hconfig, hsettings, hcases⟩ := consumeFrame_cases lz4 hmacSha256 sha256 w frame
    { st.session with ingressQueue := queue } st.ingress o
  have hconfig' : r.session.config = config := hconfig.trans h.config_eq
  have hsettings' : SameSettings r.session.request request := hsettings.trans h.settings
  have hthrough := journalThrough_snoc h.through (c := ⟨frame, st.ingress.journal, r.ingress.journal, r.call⟩) rfl
  have hquiet : r.ingress.journal = st.ingress.journal → r.call = none → WriteAuthenticated hmacSha256 config request
      st.consumed ⟨frame, st.ingress.journal, r.ingress.journal, r.call⟩ := by
    intro hjournal hcall
    refine ⟨fun hne => absurd hjournal hne, fun call heq => ?_⟩
    rw [hcall] at heq
    cases heq
  have hstill : ∀ handshake, (∃ p ∈ st.consumed, HandshakeAccepted hmacSha256 config request p handshake) →
      ∃ p ∈ st.consumed ++ [⟨frame, st.ingress.journal, r.ingress.journal, r.call⟩],
        HandshakeAccepted hmacSha256 config request p handshake := by
    rintro handshake ⟨p, hp, haccepted⟩
    exact ⟨p, List.mem_append_left _ hp, haccepted⟩
  obtain ⟨-, hopen, hjournal, hcall⟩ | ⟨-, hjournal, hcall, haccepted⟩ | ⟨hdone, hsession, hjournal, hcall⟩ |
    ⟨hdone, hsession, call, hcall, hrequest⟩ := hcases
  · refine ⟨hconfig', hsettings', fun hcomplete => ?_, writesAuthenticated_snoc h.writes (hquiet hjournal hcall),
      hthrough⟩
    rw [hopen] at hcomplete
    cases hcomplete
  · refine ⟨hconfig', hsettings', fun _ => ?_, writesAuthenticated_snoc h.writes (hquiet hjournal hcall), hthrough⟩
    exact ⟨_, List.mem_append_right _ (List.mem_singleton_self _),
      (haccepted ⟨frame, st.ingress.journal, r.ingress.journal, r.call⟩ rfl).congr hmacSha256 h.config_eq h.settings⟩
  · refine ⟨hconfig', hsettings', fun _ => hstill _ ?_, writesAuthenticated_snoc h.writes (hquiet hjournal hcall),
      hthrough⟩
    have hprior := h.complete hdone
    rw [hsession]
    exact hprior
  · have hprior := h.complete hdone
    refine ⟨hconfig', hsettings', fun _ => hstill _ ?_, writesAuthenticated_snoc h.writes ⟨fun _ => ?_, ?_⟩, hthrough⟩
    · rw [hsession]
      exact hprior
    · obtain ⟨p, hp, haccepted⟩ := hprior
      exact ⟨p, hp, _, haccepted⟩
    · intro call' hcall'
      rw [hcall, Option.some_inj] at hcall'
      obtain ⟨p, hp, haccepted⟩ := hprior
      refine ⟨p, hp, _, haccepted, ?_⟩
      rw [← hcall', WireCall.peer, hrequest]

theorem guarded_consumeLoop {t : JournalTable} (ws : ℕ → Surroundings) (n : ℕ) {st : SessionState}
    {o : ReplicationIngressOutcome} (h : Guarded hmacSha256 config request t st) :
    Guarded hmacSha256 config request t (consumeLoop lz4 hmacSha256 sha256 ws n st o).1 := by
  induction n generalizing st o with
  | zero => exact h
  | succ n ih =>
    rw [consumeLoop]
    split_ifs
    · obtain ⟨queue, popped⟩ := st.session.ingressQueue.pop
      cases popped with
      | none => exact ⟨h.config_eq, h.settings, h.complete, h.writes, h.through⟩
      | some frame =>
        have hframe := guarded_consumeFrame lz4 hmacSha256 sha256 h (ws o.consumedFrames) frame queue
          { o with consumedFrames := o.consumedFrames + 1 }
        simp only
        split_ifs
        · exact hframe
        · exact ih hframe
    · exact h

theorem guarded_step {t : JournalTable} {st : SessionState} (h : Guarded hmacSha256 config request t st)
    (call : SessionCall) : Guarded hmacSha256 config request t (st.step lz4 hmacSha256 sha256 call) := by
  cases call with
  | ingest bytes ws =>
    simp only [SessionState.step, SessionState.ingest]
    obtain ⟨queue, error⟩ := st.session.ingressQueue.ingest bytes
    have hqueue : Guarded hmacSha256 config request t
        { st with session := { st.session with ingressQueue := queue } } :=
      ⟨h.config_eq, h.settings, h.complete, h.writes, h.through⟩
    cases error with
    | none => exact guarded_consumeLoop lz4 hmacSha256 sha256 ws _ hqueue
    | some error =>
      simp only
      split_ifs
      · exact ⟨h.config_eq, h.settings, h.complete, h.writes, h.through⟩
      · exact hqueue
  | drain ws => exact guarded_consumeLoop lz4 hmacSha256 sha256 ws _ h

end Frames

end Authentication

theorem no_unauthenticated_write (lz4 : Lz4) (hmacSha256 : Bytes → Bytes → Bytes) (sha256 : Bytes → Bytes)
    (dbOpen : Bool) {request : ApplyWireBatchRequest} {config : ReplicationIngressConfig} (ingress : IngressState)
    (hinitial : config.requireInitialHandshake = true) (calls : List SessionCall) :
    let st := run (SessionState.step lz4 hmacSha256 sha256) (sessionStart dbOpen request config ingress) calls
    JournalThrough ingress.journal st.consumed st.ingress.journal ∧
      WritesAuthenticated hmacSha256 config request st.consumed := by
  have hstart : Guarded hmacSha256 config request ingress.journal (sessionStart dbOpen request config ingress) := by
    refine ⟨rfl, rfl, fun hcomplete => ?_, fun earlier c later heq => ?_, rfl⟩
    · simp [sessionStart, ReplicationIngressSession.create, hinitial] at hcomplete
    · cases earlier <;> cases heq
  have hall : AllStates (SessionState.step lz4 hmacSha256 sha256) (Guarded hmacSha256 config request ingress.journal)
      (sessionStart dbOpen request config ingress) calls := by
    apply allStates_of_step _ (P := fun _ _ => True)
    · exact fun st call h _ => guarded_step lz4 hmacSha256 sha256 h call
    · exact hstart
    · exact allSteps_of_forall _ fun _ _ => trivial
  exact ⟨hall.final.through, hall.final.writes⟩

def signedRequest : ApplyWireBatchRequest :=
  { clusterSharedSecret := clusterSecret, requireHandshakeAuth := true, localSchemaVersion := 3 }

def signedConfig : ReplicationIngressConfig := { requireInitialHandshake := true, maxFramesPerIngest := 4 }

def quietSurroundings (_ : ℕ) : Surroundings :=
  { clock := ⟨1000, 1001, 1, 0⟩, env := ⟨none, none, fun _ => none, none, fun _ => []⟩ }

def signedCalls : List SessionCall :=
  [.ingest (RpcFrame.encode ⟨2, plainWire wholeBatch⟩) quietSurroundings,
    .ingest (RpcFrame.encode ⟨1, encodeHandshake (signHandshake clusterHmac (keyedHandshake (ofString "k1"))
      clusterSecret)⟩ ++ RpcFrame.encode ⟨2, plainWire wholeBatch⟩) quietSurroundings]

theorem no_unauthenticated_write_signed :
    let st := run (SessionState.step noLz4 clusterHmac sampleSha256)
      (sessionStart true signedRequest signedConfig { journal := .empty }) signedCalls
    (st.consumed.map fun c => (c.frame.channel, c.before.entries.length, c.after.entries.length,
      c.call.map WireCall.peer)) = [(2, 0, 0, none), (1, 0, 0, none), (2, 0, 1, some 7)] ∧
      JournalThrough .empty st.consumed st.ingress.journal ∧
      WritesAuthenticated clusterHmac signedConfig signedRequest st.consumed := by
  refine ⟨by decide +kernel, ?_⟩
  exact no_unauthenticated_write noLz4 clusterHmac sampleSha256 true { journal := .empty } rfl signedCalls

end Tightrope.Sync.Transport
