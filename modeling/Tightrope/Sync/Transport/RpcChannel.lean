import Tightrope.Library.WireCodec

namespace Tightrope.Sync.Transport

open Bytes WireCodec Framing MachineWords

structure RpcFrame where
  channel : UInt16 := 0
  payload : Bytes
  deriving DecidableEq

def kHeaderSize : ℕ := 6

def writeU16 (value : UInt16) : Bytes := le 2 value.toNat

def rawU16 (raw : Bytes) : UInt16 := UInt16.ofNat (unLe (raw.take 2))

def rawU32 (raw : Bytes) : UInt32 := UInt32.ofNat (unLe (raw.take 4))

def RpcFrame.encode (frame : RpcFrame) : Bytes :=
  writeU16 frame.channel ++ (writeU32 (UInt32.ofNat frame.payload.length) ++ frame.payload)

def tryDecode (buffer : Bytes) : Option (RpcFrame × Bytes) :=
  if buffer.length < kHeaderSize then none
  else
    let payloadSize := (rawU32 (buffer.drop 2)).toNat
    if buffer.length < kHeaderSize + payloadSize then none
    else some (⟨rawU16 buffer, (buffer.drop kHeaderSize).take payloadSize⟩, buffer.drop (kHeaderSize + payloadSize))

structure RpcIngressLimits where
  maxBufferedBytes : UInt64 := 8388608
  pauseBufferedBytes : UInt64 := 4194304
  resumeBufferedBytes : UInt64 := 2097152
  maxQueuedFrames : UInt64 := 32
  maxQueuedPayloadBytes : UInt64 := 8388608
  maxFramePayloadBytes : UInt64 := 4194304
  deriving DecidableEq

structure RpcIngressQueue where
  limits : RpcIngressLimits
  inputBuffer : Bytes := []
  queue : List RpcFrame := []
  queuedPayloadBytes : UInt64 := 0
  deriving DecidableEq

def clampMin (value minValue : UInt64) : UInt64 := if value < minValue then minValue else value

def RpcIngressLimits.clamped (limits : RpcIngressLimits) : RpcIngressLimits :=
  let maxBufferedBytes := clampMin limits.maxBufferedBytes (UInt64.ofNat kHeaderSize)
  let pauseBufferedBytes := min limits.pauseBufferedBytes maxBufferedBytes
  { maxBufferedBytes
    pauseBufferedBytes
    resumeBufferedBytes := min limits.resumeBufferedBytes pauseBufferedBytes
    maxQueuedFrames := clampMin limits.maxQueuedFrames 1
    maxQueuedPayloadBytes := clampMin limits.maxQueuedPayloadBytes 1
    maxFramePayloadBytes := clampMin limits.maxFramePayloadBytes 1 }

def RpcIngressQueue.ofLimits (limits : RpcIngressLimits) : RpcIngressQueue := { limits := limits.clamped }

inductive DrainStep
  | done
  | failed (error : Bytes)
  | decoded (queue : RpcIngressQueue)

namespace RpcIngressQueue

def drainStep (q : RpcIngressQueue) : DrainStep :=
  if q.inputBuffer = [] then .done
  else if q.queue.length ≥ q.limits.maxQueuedFrames.toNat then .done
  else if q.inputBuffer.length < kHeaderSize then .done
  else
    let payloadSize := (rawU32 (q.inputBuffer.drop 2)).toNat
    let required := kHeaderSize + payloadSize
    if payloadSize > q.limits.maxFramePayloadBytes.toNat then
      .failed (ofString "rpc ingress frame payload exceeds limit (payload_bytes=" ++ decimal payloadSize ++
        ofString ", max=" ++ decimal q.limits.maxFramePayloadBytes.toNat ++ ofString ")")
    else if required > q.limits.maxBufferedBytes.toNat then
      .failed (ofString "rpc ingress frame size exceeds buffer limit (frame_bytes=" ++ decimal required ++
        ofString ", max=" ++ decimal q.limits.maxBufferedBytes.toNat ++ ofString ")")
    else if q.inputBuffer.length < required then .done
    else if q.queuedPayloadBytes > q.limits.maxQueuedPayloadBytes - UInt64.ofNat payloadSize then .done
    else match tryDecode q.inputBuffer with
      | none => .done
      | some (frame, rest) => .decoded { q with
          inputBuffer := rest
          queuedPayloadBytes := q.queuedPayloadBytes + UInt64.ofNat frame.payload.length
          queue := q.queue ++ [frame] }

def drainLoop : ℕ → RpcIngressQueue → RpcIngressQueue × Option Bytes
  | 0, q => (q, none)
  | n + 1, q =>
    match q.drainStep with
    | .done => (q, none)
    | .failed error => (q, some error)
    | .decoded q' => drainLoop n q'

def drainDecodedFrames (q : RpcIngressQueue) : RpcIngressQueue × Option Bytes := drainLoop q.inputBuffer.length q

def ingest (q : RpcIngressQueue) (bytes : Bytes) : RpcIngressQueue × Option Bytes :=
  let maxBufferedBytes := q.limits.maxBufferedBytes.toNat
  if bytes.length > maxBufferedBytes - min q.inputBuffer.length maxBufferedBytes then
    (q, some (ofString "rpc ingress buffer budget exceeded (incoming=" ++ decimal bytes.length ++
      ofString ", buffered=" ++ decimal q.inputBuffer.length ++ ofString ", max=" ++ decimal maxBufferedBytes ++
      ofString ")"))
  else { q with inputBuffer := q.inputBuffer ++ bytes }.drainDecodedFrames

def pop (q : RpcIngressQueue) : RpcIngressQueue × Option RpcFrame :=
  match q.queue with
  | [] => (q, none)
  | frame :: queue =>
    let size := UInt64.ofNat frame.payload.length
    let queuedPayloadBytes := if q.queuedPayloadBytes ≥ size then q.queuedPayloadBytes - size else 0
    ({ q with queue, queuedPayloadBytes }.drainDecodedFrames.1, some frame)

def hasFrame (q : RpcIngressQueue) : Bool := !q.queue.isEmpty

def bufferedBytes (q : RpcIngressQueue) : ℕ := q.inputBuffer.length

def queuedFrames (q : RpcIngressQueue) : ℕ := q.queue.length

def shouldPauseReads (q : RpcIngressQueue) : Bool :=
  q.inputBuffer.length ≥ q.limits.pauseBufferedBytes.toNat || q.queue.length ≥ q.limits.maxQueuedFrames.toNat ||
    q.queuedPayloadBytes ≥ q.limits.maxQueuedPayloadBytes

def shouldResumeReads (q : RpcIngressQueue) : Bool :=
  q.inputBuffer.length ≤ q.limits.resumeBufferedBytes.toNat && q.queue.length < q.limits.maxQueuedFrames.toNat &&
    q.queuedPayloadBytes < q.limits.maxQueuedPayloadBytes

end RpcIngressQueue

theorem rawU32_append {buffer : Bytes} (h : kHeaderSize ≤ buffer.length) (more : Bytes) :
    rawU32 ((buffer ++ more).drop 2) = rawU32 (buffer.drop 2) := by
  rw [kHeaderSize] at h
  have hdrop : (buffer ++ more).drop 2 = buffer.drop 2 ++ more := List.drop_append_of_le_length (by omega)
  have htake : (buffer.drop 2 ++ more).take 4 = (buffer.drop 2).take 4 := by
    apply List.take_append_of_le_length
    rw [List.length_drop]
    omega
  rw [rawU32, rawU32, hdrop, htake]

theorem tryDecode_eq_some {buffer rest : Bytes} {frame : RpcFrame} :
    tryDecode buffer = some (frame, rest) ↔ kHeaderSize ≤ buffer.length ∧
      kHeaderSize + (rawU32 (buffer.drop 2)).toNat ≤ buffer.length ∧
      frame = ⟨rawU16 buffer, (buffer.drop kHeaderSize).take (rawU32 (buffer.drop 2)).toNat⟩ ∧
      rest = buffer.drop (kHeaderSize + (rawU32 (buffer.drop 2)).toNat) := by
  simp only [tryDecode, Option.ite_none_left_eq_some, not_lt, Option.some_inj, Prod.mk.injEq]
  rw [eq_comm (a := frame), eq_comm (a := rest)]

theorem length_payload_of_tryDecode {buffer rest : Bytes} {frame : RpcFrame}
    (h : tryDecode buffer = some (frame, rest)) : frame.payload.length = (rawU32 (buffer.drop 2)).toNat := by
  obtain ⟨-, hsize, rfl, -⟩ := tryDecode_eq_some.mp h
  rw [List.length_take, List.length_drop]
  omega

theorem length_payload_lt {buffer rest : Bytes} {frame : RpcFrame} (h : tryDecode buffer = some (frame, rest)) :
    frame.payload.length < 2 ^ 32 := by
  rw [length_payload_of_tryDecode h]
  exact UInt32.toNat_lt _

theorem tryDecode_streaming : Streaming tryDecode := by
  refine ⟨fun {buffer frame rest} h more => ?_, fun {buffer frame rest} h => ?_⟩
  · obtain ⟨hheader, hsize, rfl, rfl⟩ := tryDecode_eq_some.mp h
    have hraw := rawU32_append hheader more
    have hchannel : rawU16 (buffer ++ more) = rawU16 buffer := by
      rw [kHeaderSize] at hheader
      have htake : (buffer ++ more).take 2 = buffer.take 2 := List.take_append_of_le_length (by omega)
      rw [rawU16, rawU16, htake]
    have hpayload : (buffer.drop kHeaderSize ++ more).take (rawU32 (buffer.drop 2)).toNat =
        (buffer.drop kHeaderSize).take (rawU32 (buffer.drop 2)).toNat := by
      apply List.take_append_of_le_length
      rw [List.length_drop]
      omega
    apply tryDecode_eq_some.mpr
    rw [hraw, hchannel, List.length_append, List.drop_append_of_le_length hheader, hpayload,
      List.drop_append_of_le_length hsize]
    exact ⟨by omega, by omega, rfl, rfl⟩
  · obtain ⟨hheader, hsize, -, rfl⟩ := tryDecode_eq_some.mp h
    have hpos : 0 < kHeaderSize := by decide
    rw [List.length_drop]
    omega

theorem length_encode (frame : RpcFrame) : frame.encode.length = kHeaderSize + frame.payload.length := by
  simp only [RpcFrame.encode, writeU16, writeU32, List.length_append, length_le, kHeaderSize]
  omega

theorem reads_frame_encode {frame : RpcFrame} (h : frame.payload.length < 2 ^ 32) :
    Reads tryDecode frame.encode frame := by
  intro rest
  have hchannel : (writeU16 frame.channel).length = 2 := length_le _ _
  have hcount : (writeU32 (UInt32.ofNat frame.payload.length)).length = 4 := length_le _ _
  have hlength := length_encode frame
  have hraw : rawU32 (frame.encode.drop 2) = UInt32.ofNat frame.payload.length := by
    rw [RpcFrame.encode, List.drop_left' hchannel, rawU32, List.take_left' hcount, writeU32,
      unLe_le (UInt32.toNat_lt _), UInt32.ofNat_toNat]
  have hword : rawU16 frame.encode = frame.channel := by
    rw [RpcFrame.encode, rawU16, List.take_left' hchannel, writeU16, unLe_le (UInt16.toNat_lt _), UInt16.ofNat_toNat]
  have hpayload : frame.encode.drop kHeaderSize = frame.payload := by
    rw [RpcFrame.encode, ← List.append_assoc]
    apply List.drop_left'
    rw [List.length_append, hchannel, hcount, kHeaderSize]
  have halone : tryDecode frame.encode = some (frame, []) := by
    apply tryDecode_eq_some.mpr
    rw [hraw, toNat_ofNat_size h, hlength, hword, hpayload, List.take_length]
    refine ⟨by omega, le_rfl, rfl, ?_⟩
    rw [List.drop_eq_nil_of_le (by omega)]
  exact tryDecode_streaming.extend halone rest

namespace RpcIngressQueue

def push (q : RpcIngressQueue) (frame : RpcFrame) (rest : Bytes) : RpcIngressQueue :=
  { q with
    inputBuffer := rest
    queuedPayloadBytes := q.queuedPayloadBytes + UInt64.ofNat frame.payload.length
    queue := q.queue ++ [frame] }

end RpcIngressQueue

def RpcIngressLimits.Admits (limits : RpcIngressLimits) (frame : RpcFrame) : Prop :=
  frame.payload.length ≤ limits.maxFramePayloadBytes.toNat ∧
    kHeaderSize + frame.payload.length ≤ limits.maxBufferedBytes.toNat

instance (limits : RpcIngressLimits) : DecidablePred limits.Admits := fun _ => inferInstanceAs (Decidable (_ ∧ _))

namespace RpcIngressQueue

def HasRoomFor (q : RpcIngressQueue) (frame : RpcFrame) : Prop :=
  q.queue.length < q.limits.maxQueuedFrames.toNat ∧
    q.queuedPayloadBytes ≤ q.limits.maxQueuedPayloadBytes - UInt64.ofNat frame.payload.length

theorem drainStep_eq_decoded {q q' : RpcIngressQueue} :
    q.drainStep = .decoded q' ↔ ∃ frame rest, tryDecode q.inputBuffer = some (frame, rest) ∧
      q.limits.Admits frame ∧ q.HasRoomFor frame ∧ q' = q.push frame rest := by
  constructor
  · intro h
    simp only [drainStep] at h
    split_ifs at h with hempty hfull hshort hpayload hframe hpartial hbudget
    cases hdecode : tryDecode q.inputBuffer with
    | none => simp [hdecode] at h
    | some r =>
      obtain ⟨frame, rest⟩ := r
      simp only [hdecode, DrainStep.decoded.injEq] at h
      have hsize := length_payload_of_tryDecode hdecode
      refine ⟨frame, rest, rfl, ⟨?_, ?_⟩, ⟨by omega, ?_⟩, h.symm⟩
      · omega
      · omega
      · rw [hsize]
        exact not_lt.mp hbudget
  · rintro ⟨frame, rest, hdecode, ⟨hpayload, hframe⟩, ⟨hfull, hbudget⟩, rfl⟩
    have hsize := length_payload_of_tryDecode hdecode
    obtain ⟨hheader, hlength, -, -⟩ := tryDecode_eq_some.mp hdecode
    have hpos : 0 < kHeaderSize := by decide
    have hempty : q.inputBuffer ≠ [] := by
      apply List.ne_nil_of_length_pos
      omega
    rw [hsize] at hpayload hframe hbudget
    rw [drainStep, if_neg hempty, if_neg (by omega), if_neg (by omega)]
    simp only
    rw [if_neg (by omega), if_neg (by omega), if_neg (by omega), if_neg (not_lt.mpr hbudget), hdecode]
    rfl

theorem drainLoop_keeps {P : RpcIngressQueue → Prop}
    (hpush : ∀ q frame rest, P q → tryDecode q.inputBuffer = some (frame, rest) → q.limits.Admits frame →
      q.HasRoomFor frame → P (q.push frame rest)) (n : ℕ) {q : RpcIngressQueue} (h : P q) :
    P (drainLoop n q).1 := by
  induction n generalizing q with
  | zero => exact h
  | succ n ih =>
    rw [drainLoop]
    cases hstep : q.drainStep with
    | done => exact h
    | failed error => exact h
    | decoded q' =>
      obtain ⟨frame, rest, hdecode, hadmits, hroom, rfl⟩ := drainStep_eq_decoded.mp hstep
      exact ih (hpush q frame rest h hdecode hadmits hroom)

def Settled (q : RpcIngressQueue) : Prop := ∀ q', q.drainStep ≠ .decoded q'

theorem settled_of_empty {q : RpcIngressQueue} (h : q.inputBuffer = []) : q.Settled := by
  intro q' hstep
  simp [drainStep, h] at hstep

theorem drainLoop_settled {n : ℕ} {q : RpcIngressQueue} (h : q.inputBuffer.length ≤ n) :
    (drainLoop n q).1.Settled := by
  induction n generalizing q with
  | zero =>
    apply settled_of_empty
    exact List.eq_nil_of_length_eq_zero (Nat.le_zero.mp h)
  | succ n ih =>
    rw [drainLoop]
    cases hstep : q.drainStep with
    | done => exact fun q' hq' => by rw [hstep] at hq'; cases hq'
    | failed error => exact fun q' hq' => by rw [hstep] at hq'; cases hq'
    | decoded q' =>
      obtain ⟨frame, rest, hdecode, -, -, rfl⟩ := drainStep_eq_decoded.mp hstep
      have hlt := tryDecode_streaming.consume hdecode
      have hle : rest.length ≤ n := by omega
      exact ih hle

def offer (q : RpcIngressQueue) (bytes : Bytes) : RpcIngressQueue := { q with inputBuffer := q.inputBuffer ++ bytes }

theorem ingest_cases (q : RpcIngressQueue) (bytes : Bytes) :
    (q.limits.maxBufferedBytes.toNat < q.inputBuffer.length + bytes.length ∧ (q.ingest bytes).1 = q ∧
      (q.ingest bytes).2 ≠ none) ∨
      bytes.length + min q.inputBuffer.length q.limits.maxBufferedBytes.toNat ≤ q.limits.maxBufferedBytes.toNat ∧
        q.ingest bytes = (q.offer bytes).drainDecodedFrames := by
  by_cases h : bytes.length > q.limits.maxBufferedBytes.toNat -
      min q.inputBuffer.length q.limits.maxBufferedBytes.toNat
  · left
    refine ⟨by omega, ?_⟩
    simp [ingest, if_pos h]
  · right
    have hmin := min_le_right q.inputBuffer.length q.limits.maxBufferedBytes.toNat
    refine ⟨by omega, ?_⟩
    simp only [ingest, if_neg h]
    rfl

def dequeue (q : RpcIngressQueue) (frame : RpcFrame) (queue : List RpcFrame) : RpcIngressQueue :=
  { q with
    queue
    queuedPayloadBytes :=
      if q.queuedPayloadBytes ≥ UInt64.ofNat frame.payload.length then
        q.queuedPayloadBytes - UInt64.ofNat frame.payload.length else 0 }

theorem pop_cases (q : RpcIngressQueue) :
    (q.queue = [] ∧ q.pop = (q, none)) ∨
      ∃ frame queue, q.queue = frame :: queue ∧
        q.pop = ((q.dequeue frame queue).drainDecodedFrames.1, some frame) := by
  cases h : q.queue with
  | nil =>
    left
    simp [pop, h]
  | cons frame queue =>
    right
    refine ⟨frame, queue, rfl, ?_⟩
    simp only [pop, h]
    rfl

end RpcIngressQueue

end Tightrope.Sync.Transport
