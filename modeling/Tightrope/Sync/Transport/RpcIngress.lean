import Mathlib.Algebra.BigOperators.Group.List.Basic
import Tightrope.Library.Runs
import Tightrope.Sync.Transport.RpcChannel

namespace Tightrope.Sync.Transport

open Bytes WireCodec Framing MachineWords Runs

inductive RpcIngressOp
  | ingest (bytes : Bytes)
  | pop
  deriving DecidableEq

structure RpcIngressTrace where
  queue : RpcIngressQueue
  received : Bytes := []
  popped : List RpcFrame := []
  deriving DecidableEq

namespace RpcIngressTrace

def ofLimits (limits : RpcIngressLimits) : RpcIngressTrace := { queue := .ofLimits limits }

def step (t : RpcIngressTrace) : RpcIngressOp → RpcIngressTrace
  | .ingest bytes => { t with queue := (t.queue.ingest bytes).1, received := t.received ++ bytes }
  | .pop => { t with queue := t.queue.pop.1, popped := t.popped ++ t.queue.pop.2.toList }

def Ingested (t : RpcIngressTrace) : RpcIngressOp → Prop
  | .ingest bytes => (t.queue.ingest bytes).2 = none
  | .pop => True

instance (t : RpcIngressTrace) : DecidablePred t.Ingested
  | .ingest _ => inferInstanceAs (Decidable (_ = none))
  | .pop => .isTrue trivial

end RpcIngressTrace

def payloadBytes (queue : List RpcFrame) : ℕ := (queue.map (·.payload.length)).sum

@[simp] theorem payloadBytes_nil : payloadBytes [] = 0 := rfl

@[simp] theorem payloadBytes_cons (frame : RpcFrame) (queue : List RpcFrame) :
    payloadBytes (frame :: queue) = frame.payload.length + payloadBytes queue := rfl

theorem payloadBytes_snoc (queue : List RpcFrame) (frame : RpcFrame) :
    payloadBytes (queue ++ [frame]) = payloadBytes queue + frame.payload.length := by
  simp [payloadBytes]

theorem toNat_ofNat_payload {n : ℕ} (h : n < 2 ^ 64) : (UInt64.ofNat n).toNat = n := by
  rw [UInt64.toNat_ofNat']
  exact Nat.mod_eq_of_lt h

theorem toNat_dequeue (q : RpcIngressQueue) {frame : RpcFrame} (h : frame.payload.length < 2 ^ 64)
    (queue : List RpcFrame) : (q.dequeue frame queue).queuedPayloadBytes.toNat =
      q.queuedPayloadBytes.toNat - frame.payload.length := by
  have hof := toNat_ofNat_payload h
  simp only [RpcIngressQueue.dequeue]
  split_ifs with hge
  · rw [UInt64.toNat_sub_of_le _ _ hge, hof]
  · rw [ge_iff_le, UInt64.le_iff_toNat_le, hof] at hge
    rw [UInt64.toNat_zero]
    omega

structure RpcIngressTrace.Framed (limits : RpcIngressLimits) (t : RpcIngressTrace) : Prop where
  decodes : Decodes tryDecode t.received (t.popped ++ t.queue.queue) t.queue.inputBuffer
  settled : t.queue.Settled
  counted : t.queue.queuedPayloadBytes.toNat ≤ payloadBytes t.queue.queue
  limits_eq : t.queue.limits = limits.clamped

theorem toNat_clampMin (value least : UInt64) : (clampMin value least).toNat = max value.toNat least.toNat := by
  unfold clampMin
  split_ifs with h
  · rw [UInt64.lt_iff_toNat_lt] at h
    omega
  · rw [UInt64.lt_iff_toNat_lt] at h
    omega

theorem one_le_clamped_maxQueuedFrames (limits : RpcIngressLimits) : 1 ≤ limits.clamped.maxQueuedFrames.toNat := by
  have hmax := toNat_clampMin limits.maxQueuedFrames 1
  have hone : (1 : UInt64).toNat = 1 := rfl
  change 1 ≤ (clampMin limits.maxQueuedFrames 1).toNat
  omega

theorem header_le_clamped (limits : RpcIngressLimits) : kHeaderSize ≤ limits.clamped.maxBufferedBytes.toNat := by
  have hmax := toNat_clampMin limits.maxBufferedBytes (UInt64.ofNat kHeaderSize)
  have hheader : (UInt64.ofNat kHeaderSize).toNat = kHeaderSize := rfl
  change kHeaderSize ≤ (clampMin limits.maxBufferedBytes (UInt64.ofNat kHeaderSize)).toNat
  omega

namespace RpcIngressTrace

variable {limits : RpcIngressLimits}

theorem drain_decodes (popped : List RpcFrame) (received : Bytes) {q : RpcIngressQueue}
    (h : Decodes tryDecode received (popped ++ q.queue) q.inputBuffer)
    (hcount : q.queuedPayloadBytes.toNat ≤ payloadBytes q.queue) (hlimits : q.limits = limits.clamped) :
    Framed limits ⟨q.drainDecodedFrames.1, received, popped⟩ := by
  have hkeeps := RpcIngressQueue.drainLoop_keeps (P := fun q =>
      Decodes tryDecode received (popped ++ q.queue) q.inputBuffer ∧
        q.queuedPayloadBytes.toNat ≤ payloadBytes q.queue ∧ q.limits = limits.clamped)
    (fun q frame rest hq hdecode _ _ => by
      obtain ⟨hdec, hcount, hlimits⟩ := hq
      refine ⟨?_, ?_, hlimits⟩
      · have hone : Decodes tryDecode q.inputBuffer [frame] rest := .cons hdecode (.nil rest)
        have hall := hdec.trans hone
        rwa [List.append_assoc] at hall
      · have hadd := UInt64.toNat_add q.queuedPayloadBytes (UInt64.ofNat frame.payload.length)
        have hof : (UInt64.ofNat frame.payload.length).toNat ≤ frame.payload.length := by
          rw [UInt64.toNat_ofNat']
          exact Nat.mod_le _ _
        have hsum := payloadBytes_snoc q.queue frame
        simp only [RpcIngressQueue.push]
        omega)
    q.inputBuffer.length ⟨h, hcount, hlimits⟩
  exact ⟨hkeeps.1, RpcIngressQueue.drainLoop_settled le_rfl, hkeeps.2.1, hkeeps.2.2⟩

theorem framed_step {t : RpcIngressTrace} {op : RpcIngressOp} (h : Framed limits t) (hop : t.Ingested op) :
    Framed limits (t.step op) := by
  cases op with
  | ingest bytes =>
    obtain ⟨-, -, hfailed⟩ | ⟨-, heq⟩ := t.queue.ingest_cases bytes
    · exact absurd hop hfailed
    · simp only [step, heq]
      apply drain_decodes
      · exact h.decodes.extend tryDecode_streaming bytes
      · exact h.counted
      · exact h.limits_eq
  | pop =>
    obtain ⟨-, heq⟩ | ⟨frame, queue, hqueue, heq⟩ := t.queue.pop_cases
    · simpa [step, heq] using h
    · simp only [step, heq]
      have hdec := h.decodes
      have hcount := h.counted
      rw [hqueue] at hdec hcount
      apply drain_decodes
      · simpa [RpcIngressQueue.dequeue] using hdec
      · have hsmall : frame.payload.length < 2 ^ 32 :=
          h.decodes.forall_mem (fun _ _ _ => length_payload_lt) frame (by simp [hqueue])
        rw [toNat_dequeue _ (by omega)]
        rw [payloadBytes_cons] at hcount
        simp only [RpcIngressQueue.dequeue]
        omega
      · exact h.limits_eq

theorem framed_ofLimits (limits : RpcIngressLimits) : Framed limits (ofLimits limits) :=
  ⟨.nil [], RpcIngressQueue.settled_of_empty rfl, le_rfl, rfl⟩

theorem not_admits_of_empty {t : RpcIngressTrace} (h : Framed limits t) (hempty : t.queue.queue = []) {frame : RpcFrame}
    {rest : Bytes} (hdecode : tryDecode t.queue.inputBuffer = some (frame, rest)) : ¬ t.queue.limits.Admits frame := by
  intro hadmits
  have hframes := one_le_clamped_maxQueuedFrames limits
  have hcounted := h.counted
  rw [hempty, payloadBytes_nil] at hcounted
  have hzero : t.queue.queuedPayloadBytes = 0 := UInt64.toNat_inj.mp (Nat.le_zero.mp hcounted)
  have hroom : t.queue.HasRoomFor frame := by
    refine ⟨?_, ?_⟩
    · rw [hempty, h.limits_eq]
      exact hframes
    · rw [hzero, UInt64.le_iff_toNat_le]
      exact Nat.zero_le _
  exact h.settled _ (RpcIngressQueue.drainStep_eq_decoded.mpr ⟨frame, rest, hdecode, hadmits, hroom, rfl⟩)

end RpcIngressTrace

theorem RpcIngressQueue.drainStep_failed {q : RpcIngressQueue}
    (hframes : q.queue.length < q.limits.maxQueuedFrames.toNat)
    {frame : RpcFrame} {rest : Bytes} (hdecode : tryDecode q.inputBuffer = some (frame, rest))
    (hnot : ¬ q.limits.Admits frame) : ∃ error, q.drainStep = .failed error := by
  have hsize := length_payload_of_tryDecode hdecode
  obtain ⟨hheader, -, -, -⟩ := tryDecode_eq_some.mp hdecode
  have hpos : 0 < kHeaderSize := by decide
  have hempty : q.inputBuffer ≠ [] := by
    apply List.ne_nil_of_length_pos
    omega
  rw [RpcIngressLimits.Admits, hsize, not_and_or] at hnot
  simp only [drainStep, if_neg hempty, if_neg (not_le.mpr hframes), if_neg (not_lt.mpr hheader)]
  split_ifs with hpayload hframe
  · exact ⟨_, rfl⟩
  · exact ⟨_, rfl⟩
  · omega
  · omega
  · omega

theorem RpcIngressQueue.ingest_failed {q : RpcIngressQueue} (hframes : q.queue.length < q.limits.maxQueuedFrames.toNat)
    {frame : RpcFrame} {rest : Bytes} (hdecode : tryDecode q.inputBuffer = some (frame, rest))
    (hnot : ¬ q.limits.Admits frame) (bytes : Bytes) : (q.ingest bytes).2 ≠ none := by
  obtain ⟨-, -, hfailed⟩ | ⟨-, heq⟩ := q.ingest_cases bytes
  · exact hfailed
  · have hoffer : tryDecode (q.offer bytes).inputBuffer = some (frame, rest ++ bytes) :=
      tryDecode_streaming.extend hdecode bytes
    obtain ⟨error, hstep⟩ := drainStep_failed (q := q.offer bytes) hframes hoffer hnot
    have hlt := tryDecode_streaming.consume hoffer
    obtain ⟨n, hn⟩ := Nat.exists_eq_add_one_of_ne_zero (Nat.ne_zero_of_lt hlt)
    rw [heq, drainDecodedFrames, hn, drainLoop, hstep]
    simp

theorem rpc_framing_independent_of_chunking (limits : RpcIngressLimits) (ops : List RpcIngressOp)
    (h : AllSteps RpcIngressTrace.step RpcIngressTrace.Ingested (.ofLimits limits) ops) :
    let t := run RpcIngressTrace.step (.ofLimits limits) ops
    Decodes tryDecode t.received (t.popped ++ t.queue.queue) t.queue.inputBuffer ∧
      t.popped ++ t.queue.queue <+: (readAll tryDecode t.received).1 ∧
      (t.queue.hasFrame = false → ∀ frame rest, tryDecode t.queue.inputBuffer = some (frame, rest) →
        ¬ t.queue.limits.Admits frame ∧ ∀ bytes, (t.queue.ingest bytes).2 ≠ none) := by
  have hframed : (run RpcIngressTrace.step (.ofLimits limits) ops).Framed limits :=
    (allStates_of_step RpcIngressTrace.step (fun _ _ => RpcIngressTrace.framed_step)
      (RpcIngressTrace.framed_ofLimits limits) h).final
  refine ⟨hframed.decodes, hframed.decodes.isPrefix tryDecode_streaming, ?_⟩
  intro hnone frame rest hdecode
  have hempty : (run RpcIngressTrace.step (.ofLimits limits) ops).queue.queue = [] := by
    simpa [RpcIngressQueue.hasFrame] using hnone
  have hframes : (run RpcIngressTrace.step (.ofLimits limits) ops).queue.queue.length <
      (run RpcIngressTrace.step (.ofLimits limits) ops).queue.limits.maxQueuedFrames.toNat := by
    rw [hempty, hframed.limits_eq]
    exact one_le_clamped_maxQueuedFrames limits
  have hnot := RpcIngressTrace.not_admits_of_empty hframed hempty hdecode
  exact ⟨hnot, RpcIngressQueue.ingest_failed hframes hdecode hnot⟩

def oneFrameLimits : RpcIngressLimits := { maxQueuedFrames := 1, maxFramePayloadBytes := 3 }

def cutFrames : List RpcIngressOp :=
  [.ingest [1, 0, 1], .ingest [0, 0, 0, 7, 2, 0, 2, 0, 0, 0, 8, 9, 3], .pop, .pop]

theorem rpc_framing_cutFrames :
    let t := run RpcIngressTrace.step (.ofLimits oneFrameLimits) cutFrames
    t.popped = [⟨1, [7]⟩, ⟨2, [8, 9]⟩] ∧ t.queue.hasFrame = false ∧ t.queue.inputBuffer = [3] ∧
      Decodes tryDecode t.received (t.popped ++ t.queue.queue) t.queue.inputBuffer ∧
      t.popped ++ t.queue.queue <+: (readAll tryDecode t.received).1 := by
  have hsteps : AllSteps RpcIngressTrace.step RpcIngressTrace.Ingested (.ofLimits oneFrameLimits) cutFrames := by
    decide +kernel
  have h := rpc_framing_independent_of_chunking oneFrameLimits cutFrames hsteps
  exact ⟨by decide +kernel, by decide +kernel, by decide +kernel, h.1, h.2.1⟩

def oversizedBetween : List RpcIngressOp :=
  [.ingest (RpcFrame.encode ⟨1, [7]⟩ ++ (RpcFrame.encode ⟨1, [1, 2, 3, 4, 5]⟩ ++ RpcFrame.encode ⟨1, [9]⟩)), .pop]

theorem rpc_frame_behind_oversized_stuck :
    let t := run RpcIngressTrace.step (.ofLimits oneFrameLimits) oversizedBetween
    AllSteps RpcIngressTrace.step RpcIngressTrace.Ingested (.ofLimits oneFrameLimits) oversizedBetween ∧
      t.queue.hasFrame = false ∧
      Decodes tryDecode t.queue.inputBuffer [⟨1, [1, 2, 3, 4, 5]⟩, ⟨1, [9]⟩] [] ∧
      t.queue.limits.Admits ⟨1, [9]⟩ := by
  have hbuffer : (run RpcIngressTrace.step (.ofLimits oneFrameLimits) oversizedBetween).queue.inputBuffer =
      [1, 0, 5, 0, 0, 0, 1, 2, 3, 4, 5, 1, 0, 1, 0, 0, 0, 9] := by decide +kernel
  refine ⟨by decide +kernel, by decide +kernel, ?_, by decide +kernel⟩
  have hlarge : tryDecode [1, 0, 5, 0, 0, 0, 1, 2, 3, 4, 5, 1, 0, 1, 0, 0, 0, 9] =
      some (⟨1, [1, 2, 3, 4, 5]⟩, [1, 0, 1, 0, 0, 0, 9]) := by decide +kernel
  have hsmall : tryDecode [1, 0, 1, 0, 0, 0, 9] = some (⟨1, [9]⟩, []) := by decide +kernel
  rw [hbuffer]
  exact .cons hlarge (.cons hsmall (.nil []))

def RpcIngressQueue.step (q : RpcIngressQueue) : RpcIngressOp → RpcIngressQueue
  | .ingest bytes => (q.ingest bytes).1
  | .pop => q.pop.1

structure RpcIngressQueue.WithinBudgets (q : RpcIngressQueue) : Prop where
  buffered : q.bufferedBytes ≤ q.limits.maxBufferedBytes.toNat
  frames : q.queuedFrames ≤ q.limits.maxQueuedFrames.toNat
  counted : q.queuedPayloadBytes.toNat = payloadBytes q.queue
  payload : q.queuedPayloadBytes ≤ q.limits.maxQueuedPayloadBytes

def RpcIngressLimits.largestPayload (limits : RpcIngressLimits) : ℕ :=
  min (min limits.maxFramePayloadBytes.toNat (limits.maxBufferedBytes.toNat - kHeaderSize)) (2 ^ 32 - 1)

def RpcIngressLimits.QueuesEveryFrame (limits : RpcIngressLimits) : Prop :=
  limits.largestPayload ≤ limits.maxQueuedPayloadBytes.toNat

namespace RpcIngressQueue

theorem push_withinBudgets {q : RpcIngressQueue} {frame : RpcFrame} {rest : Bytes}
    (hlimits : q.limits.QueuesEveryFrame) (h : q.WithinBudgets)
    (hdecode : tryDecode q.inputBuffer = some (frame, rest)) (hadmits : q.limits.Admits frame)
    (hroom : q.HasRoomFor frame) : (q.push frame rest).WithinBudgets := by
  have hsmall := length_payload_lt hdecode
  have hof := toNat_ofNat_payload (hsmall.trans (by decide))
  have hfits : frame.payload.length ≤ q.limits.maxQueuedPayloadBytes.toNat := by
    obtain ⟨hpayload, hframe⟩ := hadmits
    rw [RpcIngressLimits.QueuesEveryFrame, RpcIngressLimits.largestPayload] at hlimits
    omega
  have hle : UInt64.ofNat frame.payload.length ≤ q.limits.maxQueuedPayloadBytes := by
    rw [UInt64.le_iff_toNat_le, hof]
    exact hfits
  have hsum : q.queuedPayloadBytes.toNat + frame.payload.length ≤ q.limits.maxQueuedPayloadBytes.toNat := by
    have hbudget := hroom.2
    rw [UInt64.le_iff_toNat_le, UInt64.toNat_sub_of_le _ _ hle, hof] at hbudget
    omega
  have hadd : (q.queuedPayloadBytes + UInt64.ofNat frame.payload.length).toNat =
      q.queuedPayloadBytes.toNat + frame.payload.length := by
    have hmax := q.limits.maxQueuedPayloadBytes.toNat_lt
    rw [UInt64.toNat_add, hof]
    omega
  have hlt := tryDecode_streaming.consume hdecode
  have hbuffered := h.buffered
  have hframes := hroom.1
  rw [bufferedBytes] at hbuffered
  refine ⟨?_, ?_, ?_, ?_⟩
  · simp only [push, bufferedBytes]
    omega
  · simp only [push, queuedFrames, List.length_append, List.length_singleton]
    omega
  · simp only [push]
    rw [hadd, payloadBytes_snoc, h.counted]
  · simp only [push]
    rw [UInt64.le_iff_toNat_le, hadd]
    exact hsum

theorem drain_withinBudgets {q : RpcIngressQueue} (hlimits : q.limits.QueuesEveryFrame) (h : q.WithinBudgets) :
    q.drainDecodedFrames.1.WithinBudgets ∧ q.drainDecodedFrames.1.limits = q.limits := by
  apply drainLoop_keeps (P := fun q' => q'.WithinBudgets ∧ q'.limits = q.limits)
  · rintro q' frame rest ⟨hq', heq⟩ hdecode hadmits hroom
    refine ⟨push_withinBudgets ?_ hq' hdecode hadmits hroom, heq⟩
    rw [heq]
    exact hlimits
  · exact ⟨h, rfl⟩

theorem step_withinBudgets {q : RpcIngressQueue} {op : RpcIngressOp} (hlimits : q.limits.QueuesEveryFrame)
    (h : q.WithinBudgets) : (q.step op).WithinBudgets ∧ (q.step op).limits = q.limits := by
  cases op with
  | ingest bytes =>
    obtain ⟨-, heq, -⟩ | ⟨hroom, heq⟩ := q.ingest_cases bytes
    · simp only [step, heq]
      exact ⟨h, trivial⟩
    · simp only [step, heq]
      apply drain_withinBudgets (q := q.offer bytes) hlimits
      refine ⟨?_, h.frames, h.counted, h.payload⟩
      have hbuffered := h.buffered
      rw [bufferedBytes] at hbuffered
      simp only [offer, bufferedBytes, List.length_append]
      omega
  | pop =>
    obtain ⟨-, heq⟩ | ⟨frame, queue, hqueue, heq⟩ := q.pop_cases
    · simp only [step, heq]
      exact ⟨h, trivial⟩
    · simp only [step, heq]
      apply drain_withinBudgets (q := q.dequeue frame queue) hlimits
      have hcounted := h.counted
      have hframes := h.frames
      rw [hqueue, payloadBytes_cons] at hcounted
      rw [queuedFrames, hqueue, List.length_cons] at hframes
      have hlt := q.queuedPayloadBytes.toNat_lt
      have hcount := @toNat_dequeue q frame (by omega) queue
      refine ⟨h.buffered, ?_, ?_, ?_⟩
      · simp only [dequeue, queuedFrames]
        omega
      · rw [hcount]
        simp only [dequeue]
        omega
      · rw [UInt64.le_iff_toNat_le, hcount]
        have hpayload := h.payload
        rw [UInt64.le_iff_toNat_le] at hpayload
        simp only [dequeue]
        omega

theorem ofLimits_withinBudgets (limits : RpcIngressLimits) : (ofLimits limits).WithinBudgets := by
  refine ⟨Nat.zero_le _, Nat.zero_le _, rfl, ?_⟩
  rw [UInt64.le_iff_toNat_le]
  exact Nat.zero_le _

theorem ingest_encode {limits : RpcIngressLimits} {frame : RpcFrame} (hsmall : frame.payload.length < 2 ^ 32)
    (hadmits : limits.clamped.Admits frame) :
    ((ofLimits limits).ingest frame.encode).1 = ((ofLimits limits).offer frame.encode).push frame [] := by
  have hdecode : tryDecode ((ofLimits limits).offer frame.encode).inputBuffer = some (frame, []) := by
    have hread := reads_frame_encode hsmall []
    rw [List.append_nil] at hread
    exact hread
  have hroom : ((ofLimits limits).offer frame.encode).HasRoomFor frame := by
    refine ⟨one_le_clamped_maxQueuedFrames limits, ?_⟩
    rw [UInt64.le_iff_toNat_le]
    exact Nat.zero_le _
  have hlength := length_encode frame
  obtain ⟨hbudget, -, -⟩ | ⟨-, heq⟩ := (ofLimits limits).ingest_cases frame.encode
  · have hmax := hadmits.2
    have hempty : (ofLimits limits).inputBuffer.length = 0 := rfl
    have hclamped : (ofLimits limits).limits = limits.clamped := rfl
    rw [hclamped] at hbudget
    omega
  · have hstep := drainStep_eq_decoded.mpr ⟨frame, [], hdecode, hadmits, hroom, rfl⟩
    have hbuffer : ((ofLimits limits).offer frame.encode).inputBuffer.length = 5 + frame.payload.length + 1 := by
      have hoffer : ((ofLimits limits).offer frame.encode).inputBuffer = frame.encode := rfl
      rw [hoffer, hlength, kHeaderSize]
      omega
    have hdone : (((ofLimits limits).offer frame.encode).push frame []).drainStep = .done := by
      simp [drainStep, push]
    have hloop : ∀ n, (drainLoop n (((ofLimits limits).offer frame.encode).push frame [])).1 =
        ((ofLimits limits).offer frame.encode).push frame [] := by
      intro n
      cases n with
      | zero => rfl
      | succ n => rw [drainLoop, hdone]
    rw [heq, drainDecodedFrames, hbuffer, drainLoop, hstep]
    exact hloop _

end RpcIngressQueue

theorem admits_largestPayload (limits : RpcIngressLimits) :
    limits.clamped.Admits ⟨0, List.replicate limits.clamped.largestPayload 0⟩ := by
  have hleft : limits.clamped.largestPayload ≤
      min limits.clamped.maxFramePayloadBytes.toNat (limits.clamped.maxBufferedBytes.toNat - kHeaderSize) :=
    min_le_left _ _
  have hheader : kHeaderSize ≤ limits.clamped.maxBufferedBytes.toNat := header_le_clamped limits
  constructor
  · rw [List.length_replicate]
    omega
  · rw [List.length_replicate]
    omega

theorem largestPayload_queued (limits : RpcIngressLimits) :
    let frame : RpcFrame := ⟨0, List.replicate limits.clamped.largestPayload 0⟩
    run RpcIngressQueue.step (.ofLimits limits) [.ingest frame.encode] =
      ((RpcIngressQueue.ofLimits limits).offer frame.encode).push frame [] := by
  have hlargest : limits.clamped.largestPayload ≤ 2 ^ 32 - 1 := min_le_right _ _
  have hsmall : (List.replicate limits.clamped.largestPayload (0 : UInt8)).length < 2 ^ 32 := by
    rw [List.length_replicate]
    omega
  exact RpcIngressQueue.ingest_encode hsmall (admits_largestPayload limits)

theorem rpc_ingress_budgets_iff (limits : RpcIngressLimits) :
    (∀ ops, AllStates RpcIngressQueue.step RpcIngressQueue.WithinBudgets (.ofLimits limits) ops) ↔
      limits.clamped.QueuesEveryFrame := by
  constructor
  · intro h
    by_contra hlarge
    rw [RpcIngressLimits.QueuesEveryFrame, not_le] at hlarge
    have hbudget := (h [.ingest (RpcFrame.encode ⟨0, List.replicate limits.clamped.largestPayload 0⟩)]).final
    rw [largestPayload_queued limits] at hbudget
    have hcounted := hbudget.counted
    have hpayload := hbudget.payload
    rw [UInt64.le_iff_toNat_le, hcounted] at hpayload
    simp only [RpcIngressQueue.push, RpcIngressQueue.offer, RpcIngressQueue.ofLimits, List.nil_append,
      payloadBytes_cons, payloadBytes_nil, List.length_replicate] at hpayload
    omega
  · intro hlimits ops
    have hall : AllStates RpcIngressQueue.step
        (fun q => q.WithinBudgets ∧ q.limits = limits.clamped) (.ofLimits limits) ops := by
      apply allStates_of_step RpcIngressQueue.step (P := fun _ _ => True)
      · rintro q op ⟨hq, heq⟩ -
        rw [← heq]
        exact RpcIngressQueue.step_withinBudgets (heq ▸ hlimits) hq
      · exact ⟨RpcIngressQueue.ofLimits_withinBudgets limits, rfl⟩
      · exact allSteps_of_forall _ fun _ _ => trivial
    exact hall.mono _ fun q hq => hq.1

def oneByteBudget : RpcIngressLimits := { maxQueuedPayloadBytes := 1 }

theorem rpc_ingress_budget_exceeded :
    let q := run RpcIngressQueue.step (.ofLimits oneByteBudget) [.ingest (RpcFrame.encode ⟨1, [7, 8]⟩)]
    q.queue = [⟨1, [7, 8]⟩] ∧ q.limits.maxQueuedPayloadBytes = 1 ∧ q.queuedPayloadBytes = 2 ∧
      ¬ AllStates RpcIngressQueue.step RpcIngressQueue.WithinBudgets (.ofLimits oneByteBudget)
        [.ingest (RpcFrame.encode ⟨1, [7, 8]⟩)] := by
  refine ⟨by decide +kernel, by decide +kernel, by decide +kernel, ?_⟩
  intro h
  have hpayload := h.final.payload
  exact absurd hpayload (by decide +kernel)

end Tightrope.Sync.Transport
