import Tightrope.Library.Threads
import Tightrope.Sync.WireIngress

namespace Tightrope.Sync

open MachineWords Runs Threads

inductive GuardPhase where
  | arrived
  | trying (current : UInt64)
  | batchHeld
  | budgetHeld
  | leaving
  | returned
  deriving DecidableEq

def GuardPhase.holdsBatch : GuardPhase → Bool
  | .batchHeld | .budgetHeld | .leaving => true
  | .arrived | .trying _ | .returned => false

def GuardPhase.holdsBudget : GuardPhase → Bool
  | .budgetHeld => true
  | .arrived | .trying _ | .batchHeld | .leaving | .returned => false

structure InflightCall where
  dbOpen : Bool := true
  remoteSiteId : UInt32
  wireBytes : UInt64

structure GuardedCall extends InflightCall where
  phase : GuardPhase := .arrived

inductive GuardStep where
  | load
  | compareExchange (spurious : Bool)
  | acquireBudget
  | releaseBudget
  | releaseBatch
  deriving DecidableEq

namespace GuardedCall

variable (limits : IngressLimits)

def begin (call : InflightCall) : GuardedCall := { call with phase := .arrived }

def goTo (c : GuardedCall) (phase : GuardPhase) : GuardedCall := { c with phase := phase }

def advance (s : InflightState) (c : GuardedCall) : GuardStep → InflightState × GuardedCall
  | .load =>
    match c.phase with
    | .arrived =>
      if ¬ c.dbOpen ∨ c.wireBytes > limits.maxWireBatchBytes then (s, c.goTo .returned)
      else (s, c.goTo (.trying s.wireBatches))
    | _ => (s, c)
  | .compareExchange spurious =>
    match c.phase with
    | .trying current =>
      if current < limits.maxInflightWireBatches then
        if s.wireBatches = current ∧ ¬ spurious then ({ s with wireBatches := current + 1 }, c.goTo .batchHeld)
        else (s, c.goTo (.trying s.wireBatches))
      else (s, c.goTo .returned)
    | _ => (s, c)
  | .acquireBudget =>
    match c.phase with
    | .batchHeld =>
      match s.acquireBudget limits c.remoteSiteId c.wireBytes with
      | (refused, some _) => (refused, c.goTo .leaving)
      | (granted, none) => (granted, c.goTo .budgetHeld)
    | _ => (s, c)
  | .releaseBudget =>
    match c.phase with
    | .budgetHeld => (s.releaseBudget c.remoteSiteId c.wireBytes, c.goTo .leaving)
    | _ => (s, c)
  | .releaseBatch =>
    match c.phase with
    | .leaving => (s.releaseBatch, c.goTo .returned)
    | _ => (s, c)

def batches (c : GuardedCall) : ℕ := if c.phase.holdsBatch then 1 else 0

def bytes (c : GuardedCall) : ℕ := if c.phase.holdsBudget then c.wireBytes.toNat else 0

def batchesOf (peer : UInt32) (c : GuardedCall) : ℕ := if c.phase.holdsBudget ∧ c.remoteSiteId = peer then 1 else 0

def bytesOf (peer : UInt32) (c : GuardedCall) : ℕ :=
  if c.phase.holdsBudget ∧ c.remoteSiteId = peer then c.wireBytes.toNat else 0

def SameHoldings (c c' : GuardedCall) : Prop :=
  c'.toInflightCall = c.toInflightCall ∧ c'.phase.holdsBatch = c.phase.holdsBatch ∧
    c'.phase.holdsBudget = c.phase.holdsBudget

theorem sameHoldings_goTo {c : GuardedCall} {phase : GuardPhase} (hbatch : phase.holdsBatch = c.phase.holdsBatch)
    (hbudget : phase.holdsBudget = c.phase.holdsBudget) : c.SameHoldings (c.goTo phase) := ⟨rfl, hbatch, hbudget⟩

theorem advance_cases (s : InflightState) (c : GuardedCall) (a : GuardStep) :
    (∃ c', advance limits s c a = (s, c') ∧ c.SameHoldings c') ∨
    (c.phase = .trying s.wireBatches ∧ s.wireBatches < limits.maxInflightWireBatches ∧
      advance limits s c a = ({ s with wireBatches := s.wireBatches + 1 }, c.goTo .batchHeld)) ∨
    (c.phase = .batchHeld ∧ ∃ s' e, s.acquireBudget limits c.remoteSiteId c.wireBytes = (s', some e) ∧
      advance limits s c a = (s', c.goTo .leaving)) ∨
    (c.phase = .batchHeld ∧ ∃ s', s.acquireBudget limits c.remoteSiteId c.wireBytes = (s', none) ∧
      advance limits s c a = (s', c.goTo .budgetHeld)) ∨
    (c.phase = .budgetHeld ∧ a = .releaseBudget ∧
      advance limits s c a = (s.releaseBudget c.remoteSiteId c.wireBytes, c.goTo .leaving)) ∨
    (c.phase = .leaving ∧ a = .releaseBatch ∧ advance limits s c a = (s.releaseBatch, c.goTo .returned)) := by
  have hidle : c.SameHoldings c := ⟨rfl, rfl, rfl⟩
  cases a with
  | load =>
    left
    simp only [advance]
    split
    · rename_i hphase
      split_ifs
      · exact ⟨_, rfl, sameHoldings_goTo (by rw [hphase]; rfl) (by rw [hphase]; rfl)⟩
      · exact ⟨_, rfl, sameHoldings_goTo (by rw [hphase]; rfl) (by rw [hphase]; rfl)⟩
    · exact ⟨c, rfl, hidle⟩
  | compareExchange spurious =>
    simp only [advance]
    split
    · rename_i current hphase
      split_ifs with hlt hswap
      · obtain ⟨rfl, -⟩ := hswap
        exact .inr (.inl ⟨hphase, hlt, rfl⟩)
      · exact .inl ⟨_, rfl, sameHoldings_goTo (by rw [hphase]; rfl) (by rw [hphase]; rfl)⟩
      · exact .inl ⟨_, rfl, sameHoldings_goTo (by rw [hphase]; rfl) (by rw [hphase]; rfl)⟩
    · exact .inl ⟨c, rfl, hidle⟩
  | acquireBudget =>
    simp only [advance]
    split
    · rename_i hphase
      split
      · rename_i refused e hrefused
        exact .inr (.inr (.inl ⟨hphase, refused, e, hrefused, rfl⟩))
      · rename_i granted hgranted
        exact .inr (.inr (.inr (.inl ⟨hphase, granted, hgranted, rfl⟩)))
    · exact .inl ⟨c, rfl, hidle⟩
  | releaseBudget =>
    simp only [advance]
    split
    · exact .inr (.inr (.inr (.inr (.inl ⟨‹_›, trivial, rfl⟩))))
    · exact .inl ⟨c, rfl, hidle⟩
  | releaseBatch =>
    simp only [advance]
    split
    · exact .inr (.inr (.inr (.inr (.inr ⟨‹_›, trivial, rfl⟩))))
    · exact .inl ⟨c, rfl, hidle⟩

end GuardedCall

namespace InflightState

variable {limits : IngressLimits} {s : InflightState} {p : UInt32} {n : UInt64}

def peer (s : InflightState) (p : UInt32) : InflightWirePeerState := (s.peerState.find? p).getD {}

theorem peer_insert {peerState : FlatMap UInt32 InflightWirePeerState} {a b : UInt64}
    {slot : InflightWirePeerState} (q : UInt32) :
    peer ⟨a, b, peerState.insert p slot⟩ q = if q = p then slot else (peerState.find? q).getD {} := by
  rw [peer, FlatMap.find?_insert]
  split_ifs <;> rfl

theorem toNat_add_of_room {limit used : UInt64} (hn : n ≤ limit) (hroom : used ≤ limit - n) :
    (used + n).toNat = used.toNat + n.toNat ∧ used + n ≤ limit := by
  rw [UInt64.le_iff_toNat_le] at hn hroom
  rw [UInt64.toNat_sub_of_le limit n (UInt64.le_iff_toNat_le.mpr hn)] at hroom
  have hlimit := limit.toNat_lt
  have hsum : (used + n).toNat = used.toNat + n.toNat := by
    rw [UInt64.toNat_add, Nat.mod_eq_of_lt]
    omega
  refine ⟨hsum, ?_⟩
  rw [UInt64.le_iff_toNat_le, hsum]
  omega

theorem toNat_add_one_of_lt {limit used : UInt64} (h : used < limit) :
    (used + 1).toNat = used.toNat + 1 ∧ used + 1 ≤ limit := by
  rw [UInt64.lt_iff_toNat_lt] at h
  have hlimit := limit.toNat_lt
  have hone : (1 : UInt64).toNat = 1 := rfl
  have hsum : (used + 1).toNat = used.toNat + 1 := by
    rw [UInt64.toNat_add, hone, Nat.mod_eq_of_lt]
    omega
  refine ⟨hsum, ?_⟩
  rw [UInt64.le_iff_toNat_le, hsum]
  omega

theorem acquireBudget_cases (limits : IngressLimits) (s : InflightState) (p : UInt32) (n : UInt64) :
    (∃ s' e, s.acquireBudget limits p n = (s', some e) ∧ s'.wireBatches = s.wireBatches ∧
      s'.totalBytes = s.totalBytes ∧ ∀ q, s'.peer q = s.peer q) ∨
    (∃ s', s.acquireBudget limits p n = (s', none) ∧ s'.wireBatches = s.wireBatches ∧
      (s'.totalBytes.toNat = s.totalBytes.toNat + n.toNat ∧ s'.totalBytes ≤ limits.maxInflightWireBytes) ∧
      ((s'.peer p).batches.toNat = (s.peer p).batches.toNat + 1 ∧
        (s'.peer p).batches ≤ limits.maxInflightWireBatchesPerPeer) ∧
      ((s'.peer p).bytes.toNat = (s.peer p).bytes.toNat + n.toNat ∧
        (s'.peer p).bytes ≤ limits.maxInflightWireBytesPerPeer) ∧
      ∀ q ≠ p, s'.peer q = s.peer q) := by
  have hseen : ∀ q, peer { s with peerState := s.peerState.insert p (s.peer p) } q = s.peer q := by
    intro q
    rw [peer_insert]
    split_ifs with hq
    · rw [hq]
    · rfl
  unfold acquireBudget
  simp only [show (s.peerState.find? p).getD {} = s.peer p from rfl]
  split_ifs with htotal hbatches hbytes
  · exact .inl ⟨_, _, rfl, rfl, rfl, hseen⟩
  · exact .inl ⟨_, _, rfl, rfl, rfl, hseen⟩
  · exact .inl ⟨_, _, rfl, rfl, rfl, hseen⟩
  · simp only [not_or, gt_iff_lt, ge_iff_le, not_lt, not_le] at htotal hbatches hbytes
    refine .inr ⟨_, rfl, rfl, toNat_add_of_room htotal.1 htotal.2, ?_, ?_, ?_⟩
    · rw [peer_insert, if_pos rfl]
      exact toNat_add_one_of_lt hbatches
    · rw [peer_insert, if_pos rfl]
      exact toNat_add_of_room hbytes.1 hbytes.2
    · intro q hq
      rw [peer_insert, if_neg hq]
      rfl

theorem toNat_sub_le {used : UInt64} (h : n ≤ used) : (used - n).toNat + n.toNat = used.toNat ∧ used - n ≤ used := by
  rw [UInt64.le_iff_toNat_le, UInt64.toNat_sub_of_le used n h]
  rw [UInt64.le_iff_toNat_le] at h
  omega

structure Unclamped (s : InflightState) (p : UInt32) (n : UInt64) : Prop where
  slot : (s.peerState.find? p).isSome
  totalBytes : n ≤ s.totalBytes
  batches : 0 < (s.peer p).batches
  bytes : n ≤ (s.peer p).bytes

theorem releaseBudget_spec (h : s.Unclamped p n) :
    (s.releaseBudget p n).wireBatches = s.wireBatches ∧ (s.releaseBudget p n).totalBytes = s.totalBytes - n ∧
      ((s.releaseBudget p n).peer p).batches = (s.peer p).batches - 1 ∧
      ((s.releaseBudget p n).peer p).bytes = (s.peer p).bytes - n ∧
      ∀ q ≠ p, (s.releaseBudget p n).peer q = s.peer q := by
  obtain ⟨slot, hslot⟩ := Option.isSome_iff_exists.mp h.slot
  have hpeer : s.peer p = slot := by rw [peer, hslot]; rfl
  have htotal := h.totalBytes
  have hbatches := h.batches
  have hbytes := h.bytes
  rw [hpeer] at hbatches hbytes
  unfold releaseBudget
  simp only [hslot, ge_iff_le, htotal, ↓reduceIte, gt_iff_lt, hbatches, hbytes, peer_insert, hpeer, true_and]
  intro q hq
  rw [if_neg hq]
  rfl

end InflightState

section Conservation

variable (limits : IngressLimits)

structure WithinLimits (s : InflightState) : Prop where
  wireBatches : s.wireBatches ≤ limits.maxInflightWireBatches
  totalBytes : s.totalBytes ≤ limits.maxInflightWireBytes
  peerBatches : ∀ p, (s.peer p).batches ≤ limits.maxInflightWireBatchesPerPeer
  peerBytes : ∀ p, (s.peer p).bytes ≤ limits.maxInflightWireBytesPerPeer

structure CountsGuards (s : State InflightState GuardedCall) : Prop where
  wireBatches : s.shared.wireBatches.toNat = Threads.total GuardedCall.batches s
  totalBytes : s.shared.totalBytes.toNat = Threads.total GuardedCall.bytes s
  peerBatches : ∀ p, (s.shared.peer p).batches.toNat = Threads.total (GuardedCall.batchesOf p) s
  peerBytes : ∀ p, (s.shared.peer p).bytes.toNat = Threads.total (GuardedCall.bytesOf p) s

def Conserved (s : State InflightState GuardedCall) : Prop := CountsGuards s ∧ WithinLimits limits s.shared

def inflightStep : State InflightState GuardedCall → Action InflightCall GuardStep → State InflightState GuardedCall :=
  Threads.step GuardedCall.begin (GuardedCall.advance limits)

def ReleasesInFull (s : State InflightState GuardedCall) : Action InflightCall GuardStep → Prop
  | .move i .releaseBudget => ∀ c, s.threads[i]? = some c → c.phase = .budgetHeld →
      s.shared.Unclamped c.remoteSiteId c.wireBytes
  | .move i .releaseBatch => ∀ c, s.threads[i]? = some c → c.phase = .leaving → 0 < s.shared.wireBatches
  | _ => True

variable {limits} {s : State InflightState GuardedCall} {i : ℕ} {c c' : GuardedCall} {g : InflightState}

theorem CountsGuards.unclamped (h : CountsGuards s) (hc : s.threads[i]? = some c) (hphase : c.phase = .budgetHeld) :
    s.shared.Unclamped c.remoteSiteId c.wireBytes := by
  have htotal := weight_le_total GuardedCall.bytes hc
  have hbatches := weight_le_total (GuardedCall.batchesOf c.remoteSiteId) hc
  have hbytes := weight_le_total (GuardedCall.bytesOf c.remoteSiteId) hc
  rw [← h.totalBytes] at htotal
  rw [← h.peerBatches] at hbatches
  rw [← h.peerBytes] at hbytes
  simp only [GuardedCall.bytes, GuardedCall.batchesOf, GuardedCall.bytesOf, GuardPhase.holdsBudget, hphase,
    ↓reduceIte, and_self] at htotal hbatches hbytes
  have hpos : 0 < (s.shared.peer c.remoteSiteId).batches := by
    rw [UInt64.lt_iff_toNat_lt]
    exact hbatches
  refine ⟨?_, UInt64.le_iff_toNat_le.mpr htotal, hpos, UInt64.le_iff_toNat_le.mpr hbytes⟩
  -- A peer without a slot would count no batch.
  by_contra hslot
  rw [Option.not_isSome_iff_eq_none] at hslot
  rw [InflightState.peer, hslot] at hpos
  exact absurd hpos (by decide)

theorem CountsGuards.wireBatches_pos (h : CountsGuards s) (hc : s.threads[i]? = some c) (hphase : c.phase = .leaving) :
    0 < s.shared.wireBatches := by
  have hle := weight_le_total GuardedCall.batches hc
  rw [← h.wireBatches] at hle
  rw [UInt64.lt_iff_toNat_lt]
  simp only [GuardedCall.batches, GuardPhase.holdsBatch, hphase, ↓reduceIte] at hle
  exact hle

theorem CountsGuards.set (h : CountsGuards s) (hc : s.threads[i]? = some c)
    (hwire : g.wireBatches.toNat + c.batches = s.shared.wireBatches.toNat + c'.batches)
    (htotal : g.totalBytes.toNat + c.bytes = s.shared.totalBytes.toNat + c'.bytes)
    (hbatches : ∀ p, (g.peer p).batches.toNat + c.batchesOf p = (s.shared.peer p).batches.toNat + c'.batchesOf p)
    (hbytes : ∀ p, (g.peer p).bytes.toNat + c.bytesOf p = (s.shared.peer p).bytes.toNat + c'.bytesOf p) :
    CountsGuards ⟨g, s.threads.set i c'⟩ where
  wireBatches := by
    have hsum := total_set GuardedCall.batches c' g hc
    have hold := h.wireBatches
    change g.wireBatches.toNat = _
    omega
  totalBytes := by
    have hsum := total_set GuardedCall.bytes c' g hc
    have hold := h.totalBytes
    change g.totalBytes.toNat = _
    omega
  peerBatches p := by
    have hsum := total_set (GuardedCall.batchesOf p) c' g hc
    have hold := h.peerBatches p
    have hnew := hbatches p
    change (g.peer p).batches.toNat = _
    omega
  peerBytes p := by
    have hsum := total_set (GuardedCall.bytesOf p) c' g hc
    have hold := h.peerBytes p
    have hnew := hbytes p
    change (g.peer p).bytes.toNat = _
    omega

theorem CountsGuards.append (h : CountsGuards s) (call : InflightCall) :
    CountsGuards ⟨s.shared, s.threads ++ [GuardedCall.begin call]⟩ where
  wireBatches := by
    rw [total_append, ← h.wireBatches]
    rfl
  totalBytes := by
    rw [total_append, ← h.totalBytes]
    rfl
  peerBatches p := by
    rw [total_append, ← h.peerBatches p]
    simp [GuardedCall.batchesOf, GuardPhase.holdsBudget, GuardedCall.begin]
  peerBytes p := by
    rw [total_append, ← h.peerBytes p]
    simp [GuardedCall.bytesOf, GuardPhase.holdsBudget, GuardedCall.begin]

theorem CountsGuards.set_unbudgeted (h : CountsGuards s) (hc : s.threads[i]? = some c)
    (hbefore : c.phase.holdsBudget = false) (hafter : c'.phase.holdsBudget = false)
    (hwire : g.wireBatches.toNat + c.batches = s.shared.wireBatches.toNat + c'.batches)
    (htotal : g.totalBytes = s.shared.totalBytes) (hpeer : ∀ p, g.peer p = s.shared.peer p) :
    CountsGuards ⟨g, s.threads.set i c'⟩ := by
  apply h.set hc hwire
  · simp [GuardedCall.bytes, hbefore, hafter, htotal]
  · simp [GuardedCall.batchesOf, hbefore, hafter, hpeer]
  · simp [GuardedCall.bytesOf, hbefore, hafter, hpeer]

theorem WithinLimits.of_peer {p : UInt32} (h : WithinLimits limits s.shared)
    (hwire : g.wireBatches ≤ limits.maxInflightWireBatches) (htotal : g.totalBytes ≤ limits.maxInflightWireBytes)
    (hbatches : (g.peer p).batches ≤ limits.maxInflightWireBatchesPerPeer)
    (hbytes : (g.peer p).bytes ≤ limits.maxInflightWireBytesPerPeer)
    (hother : ∀ q ≠ p, g.peer q = s.shared.peer q) : WithinLimits limits g := by
  refine ⟨hwire, htotal, ?_, ?_⟩
  · intro q
    by_cases hq : q = p
    · exact hq ▸ hbatches
    · exact hother q hq ▸ h.peerBatches q
  · intro q
    by_cases hq : q = p
    · exact hq ▸ hbytes
    · exact hother q hq ▸ h.peerBytes q

theorem Conserved.admit (h : Conserved limits s) (hc : s.threads[i]? = some c)
    (hphase : c.phase = .trying s.shared.wireBatches) (hlt : s.shared.wireBatches < limits.maxInflightWireBatches) :
    Conserved limits ⟨{ s.shared with wireBatches := s.shared.wireBatches + 1 },
      s.threads.set i (c.goTo .batchHeld)⟩ := by
  obtain ⟨hsucc, hle⟩ := InflightState.toNat_add_one_of_lt hlt
  refine ⟨h.1.set_unbudgeted hc (by rw [hphase]; rfl) rfl ?_ rfl (fun p => rfl),
    ⟨hle, h.2.totalBytes, h.2.peerBatches, h.2.peerBytes⟩⟩
  rw [hsucc]
  simp [GuardedCall.batches, hphase, GuardedCall.goTo, GuardPhase.holdsBatch]

theorem Conserved.refuse {s' : InflightState} (h : Conserved limits s) (hc : s.threads[i]? = some c)
    (hphase : c.phase = .batchHeld) (hwire : s'.wireBatches = s.shared.wireBatches)
    (htotal : s'.totalBytes = s.shared.totalBytes) (hpeer : ∀ q, s'.peer q = s.shared.peer q) :
    Conserved limits ⟨s', s.threads.set i (c.goTo .leaving)⟩ := by
  refine ⟨h.1.set_unbudgeted hc (by rw [hphase]; rfl) rfl ?_ htotal hpeer, ?_⟩
  · rw [hwire]
    simp [GuardedCall.batches, hphase, GuardedCall.goTo, GuardPhase.holdsBatch]
  · constructor
    · exact hwire ▸ h.2.wireBatches
    · exact htotal ▸ h.2.totalBytes
    · exact fun q => (hpeer q).symm ▸ h.2.peerBatches q
    · exact fun q => (hpeer q).symm ▸ h.2.peerBytes q

theorem Conserved.grant {s' : InflightState} (h : Conserved limits s) (hc : s.threads[i]? = some c)
    (hphase : c.phase = .batchHeld) (hgranted : s.shared.acquireBudget limits c.remoteSiteId c.wireBytes = (s', none)) :
    Conserved limits ⟨s', s.threads.set i (c.goTo .budgetHeld)⟩ := by
  obtain ⟨s'', e, heq, -⟩ | ⟨s'', heq, hwire, ⟨htotal, htotalLe⟩, ⟨hbatches, hbatchesLe⟩, ⟨hbytes, hbytesLe⟩, hother⟩ :=
    InflightState.acquireBudget_cases limits s.shared c.remoteSiteId c.wireBytes
  · rw [heq] at hgranted
    cases hgranted
  · rw [heq] at hgranted
    obtain rfl : s'' = s' := congrArg Prod.fst hgranted
    refine ⟨h.1.set hc ?_ ?_ ?_ ?_, h.2.of_peer (hwire ▸ h.2.wireBatches) htotalLe hbatchesLe hbytesLe hother⟩
    · rw [hwire]
      simp [GuardedCall.batches, hphase, GuardedCall.goTo, GuardPhase.holdsBatch]
    · rw [htotal]
      simp [GuardedCall.bytes, hphase, GuardedCall.goTo, GuardPhase.holdsBudget]
    · intro p
      by_cases hp : c.remoteSiteId = p
      · subst hp
        rw [hbatches]
        simp [GuardedCall.batchesOf, hphase, GuardedCall.goTo, GuardPhase.holdsBudget]
      · rw [hother p (Ne.symm hp)]
        simp [GuardedCall.batchesOf, GuardedCall.goTo, hp]
    · intro p
      by_cases hp : c.remoteSiteId = p
      · subst hp
        rw [hbytes]
        simp [GuardedCall.bytesOf, hphase, GuardedCall.goTo, GuardPhase.holdsBudget]
      · rw [hother p (Ne.symm hp)]
        simp [GuardedCall.bytesOf, GuardedCall.goTo, hp]

theorem Conserved.releaseBudget (h : Conserved limits s) (hc : s.threads[i]? = some c)
    (hphase : c.phase = .budgetHeld) :
    Conserved limits ⟨s.shared.releaseBudget c.remoteSiteId c.wireBytes, s.threads.set i (c.goTo .leaving)⟩ := by
  have hfull := h.1.unclamped hc hphase
  obtain ⟨hwire, htotal, hbatches, hbytes, hother⟩ := InflightState.releaseBudget_spec hfull
  obtain ⟨htotalNat, htotalLe⟩ := InflightState.toNat_sub_le hfull.totalBytes
  obtain ⟨hbatchesNat, hbatchesLe⟩ := InflightState.toNat_sub_le
    (show 1 ≤ (s.shared.peer c.remoteSiteId).batches from UInt64.le_iff_toNat_le.mpr
      (UInt64.lt_iff_toNat_lt.mp hfull.batches))
  obtain ⟨hbytesNat, hbytesLe⟩ := InflightState.toNat_sub_le hfull.bytes
  rw [← htotal] at htotalNat htotalLe
  rw [← hbatches] at hbatchesNat hbatchesLe
  rw [← hbytes] at hbytesNat hbytesLe
  refine ⟨h.1.set hc ?_ ?_ ?_ ?_, h.2.of_peer (hwire ▸ h.2.wireBatches) (htotalLe.trans h.2.totalBytes)
    (hbatchesLe.trans (h.2.peerBatches _)) (hbytesLe.trans (h.2.peerBytes _)) hother⟩
  · rw [hwire]
    simp [GuardedCall.batches, hphase, GuardedCall.goTo, GuardPhase.holdsBatch]
  · simp only [GuardedCall.bytes, hphase, GuardedCall.goTo, GuardPhase.holdsBudget, ↓reduceIte, Bool.false_eq_true]
    exact htotalNat
  · intro p
    by_cases hp : c.remoteSiteId = p
    · subst hp
      simp only [GuardedCall.batchesOf, hphase, GuardedCall.goTo, GuardPhase.holdsBudget, and_self, ↓reduceIte,
        Bool.false_eq_true, false_and]
      exact hbatchesNat
    · rw [hother p (Ne.symm hp)]
      simp [GuardedCall.batchesOf, GuardedCall.goTo, hp]
  · intro p
    by_cases hp : c.remoteSiteId = p
    · subst hp
      simp only [GuardedCall.bytesOf, hphase, GuardedCall.goTo, GuardPhase.holdsBudget, and_self, ↓reduceIte,
        Bool.false_eq_true, false_and]
      exact hbytesNat
    · rw [hother p (Ne.symm hp)]
      simp [GuardedCall.bytesOf, GuardedCall.goTo, hp]

theorem Conserved.releaseBatch (h : Conserved limits s) (hc : s.threads[i]? = some c) (hphase : c.phase = .leaving) :
    Conserved limits ⟨s.shared.releaseBatch, s.threads.set i (c.goTo .returned)⟩ := by
  have hpos := h.1.wireBatches_pos hc hphase
  obtain ⟨hnat, hle⟩ := InflightState.toNat_sub_le
    (show 1 ≤ s.shared.wireBatches from UInt64.le_iff_toNat_le.mpr (UInt64.lt_iff_toNat_lt.mp hpos))
  refine ⟨h.1.set_unbudgeted hc (by rw [hphase]; rfl) rfl ?_ rfl (fun p => rfl),
    ⟨hle.trans h.2.wireBatches, h.2.totalBytes, h.2.peerBatches, h.2.peerBytes⟩⟩
  simp only [GuardedCall.batches, hphase, GuardedCall.goTo, GuardPhase.holdsBatch, ↓reduceIte, Bool.false_eq_true]
  exact hnat

theorem Conserved.advance (h : Conserved limits s) (hc : s.threads[i]? = some c) (a : GuardStep) :
    Conserved limits ⟨(GuardedCall.advance limits s.shared c a).1,
      s.threads.set i (GuardedCall.advance limits s.shared c a).2⟩ := by
  obtain ⟨c', hadv, hcall, hbatch, hbudget⟩ | ⟨hphase, hlt, hadv⟩ | ⟨hphase, s', e, hrefused, hadv⟩ |
    ⟨hphase, s', hgranted, hadv⟩ | ⟨hphase, -, hadv⟩ | ⟨hphase, -, hadv⟩ :=
    GuardedCall.advance_cases limits s.shared c a
  all_goals rw [hadv]
  · refine ⟨h.1.set hc ?_ ?_ ?_ ?_, h.2⟩
    all_goals simp [GuardedCall.batches, GuardedCall.bytes, GuardedCall.batchesOf, GuardedCall.bytesOf, hcall, hbatch,
      hbudget]
  · exact h.admit hc hphase hlt
  · obtain ⟨s'', e', heq, hwire, htotal, hpeer⟩ | ⟨s'', heq, -⟩ :=
      InflightState.acquireBudget_cases limits s.shared c.remoteSiteId c.wireBytes
    · rw [heq] at hrefused
      obtain rfl : s'' = s' := congrArg Prod.fst hrefused
      exact h.refuse hc hphase hwire htotal hpeer
    · rw [heq] at hrefused
      cases hrefused
  · exact h.grant hc hphase hgranted
  · exact h.releaseBudget hc hphase
  · exact h.releaseBatch hc hphase

theorem Conserved.step (h : Conserved limits s) (a : Action InflightCall GuardStep) :
    Conserved limits (inflightStep limits s a) ∧ ReleasesInFull s a := by
  constructor
  · obtain ⟨call, -, hstep⟩ | ⟨i, act, -, -, hstep⟩ | ⟨i, act, c, -, hc, hstep⟩ :=
      Threads.step_cases GuardedCall.begin (GuardedCall.advance limits) s a
    · rw [inflightStep, hstep]
      exact ⟨h.1.append call, h.2⟩
    · rw [inflightStep, hstep]
      exact h
    · rw [inflightStep, hstep]
      exact h.advance hc act
  · match a with
    | .spawn call => trivial
    | .move i .load => trivial
    | .move i (.compareExchange spurious) => trivial
    | .move i .acquireBudget => trivial
    | .move i .releaseBudget => exact fun c hc hphase => h.1.unclamped hc hphase
    | .move i .releaseBatch => exact fun c hc hphase => h.1.wireBatches_pos hc hphase

theorem conserved_empty (limits : IngressLimits) : Conserved limits ⟨{}, []⟩ := by
  refine ⟨⟨rfl, rfl, fun p => rfl, fun p => rfl⟩, ⟨?_, ?_, fun p => ?_, fun p => ?_⟩⟩
  all_goals exact UInt64.le_iff_toNat_le.mpr (Nat.zero_le _)

/-- The counters are the sums over the guards held and stay within the limits at every moment, and no release
is clamped. -/
theorem inflight_budget_conserved (limits : IngressLimits) (as : List (Action InflightCall GuardStep)) :
    AllStates (inflightStep limits) (Conserved limits) ⟨{}, []⟩ as ∧
      AllSteps (inflightStep limits) ReleasesInFull ⟨{}, []⟩ as := by
  have hall : AllSteps (inflightStep limits) (fun _ _ => True) ⟨{}, []⟩ as :=
    allSteps_of_forall (inflightStep limits) (V := fun _ => True) fun _ _ => trivial
  exact ⟨allStates_of_step _ (fun s a h _ => (h.step a).1) (conserved_empty limits) hall,
    allSteps_of_step _ (fun s a h _ => h.step a) (conserved_empty limits) hall⟩

end Conservation

section Solo

variable (c : WireCall)

def WireCall.guarded : GuardedCall := GuardedCall.begin ⟨c.dbOpen, c.peer, c.wireBytes⟩

def entrySteps : List (Action InflightCall GuardStep) :=
  [.move 0 .load, .move 0 (.compareExchange false), .move 0 .acquireBudget, .move 0 .releaseBatch]

def exitSteps : List (Action InflightCall GuardStep) := [.move 0 .releaseBudget, .move 0 .releaseBatch]

theorem shared_entrySteps (s : InflightState) :
    (run (inflightStep c.limits) ⟨s, [c.guarded]⟩ entrySteps).shared = (SyncEngine.enter c s).1 := by
  simp only [run, entrySteps, List.foldl_cons, List.foldl_nil, inflightStep, step_single]
  by_cases hopen : c.dbOpen = true
  · by_cases hsize : c.wireBytes > c.limits.maxWireBatchBytes
    · simp [WireCall.guarded, GuardedCall.begin, GuardedCall.advance, GuardedCall.goTo, SyncEngine.enter, hopen, hsize]
    · by_cases hlt : s.wireBatches < c.limits.maxInflightWireBatches
      · simp only [WireCall.guarded, GuardedCall.begin, GuardedCall.advance, GuardedCall.goTo, SyncEngine.enter, hopen,
          hsize, hlt, InflightState.acquireBatch, not_true_eq_false, or_self, ↓reduceIte, Bool.false_eq_true,
          not_false_eq_true, and_self]
        obtain ⟨granted, refusal⟩ := InflightState.acquireBudget c.limits c.peer c.wireBytes
          { s with wireBatches := s.wireBatches + 1 }
        cases refusal <;> rfl
      · simp [WireCall.guarded, GuardedCall.begin, GuardedCall.advance, GuardedCall.goTo, SyncEngine.enter, hopen,
          hsize, hlt, InflightState.acquireBatch]
  · simp [WireCall.guarded, GuardedCall.begin, GuardedCall.advance, GuardedCall.goTo, SyncEngine.enter, hopen]

theorem shared_exitSteps (s : InflightState) :
    (run (inflightStep c.limits) ⟨s, [c.guarded.goTo .budgetHeld]⟩ exitSteps).shared = SyncEngine.leave c s := rfl

end Solo

end Tightrope.Sync
