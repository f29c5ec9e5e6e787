import Mathlib.Data.List.Pairwise
import Mathlib.Data.Prod.Lex
import Tightrope.Library.MachineWords
import Tightrope.Library.Runs

namespace Tightrope.Sync

open MachineWords Runs

structure Hlc where
  wall : UInt64
  counter : UInt32
  siteId : UInt32
  deriving DecidableEq, Repr, Inhabited

def compareHlc (lhs rhs : Hlc) : ℤ :=
  if lhs.wall ≠ rhs.wall then if lhs.wall < rhs.wall then -1 else 1
  else if lhs.counter ≠ rhs.counter then if lhs.counter < rhs.counter then -1 else 1
  else if lhs.siteId ≠ rhs.siteId then if lhs.siteId < rhs.siteId then -1 else 1
  else 0

def Hlc.key (h : Hlc) : UInt64 ×ₗ UInt32 ×ₗ UInt32 := toLex (h.wall, toLex (h.counter, h.siteId))

theorem Hlc.key_injective : Function.Injective Hlc.key := by
  rintro ⟨w, c, s⟩ ⟨w', c', s'⟩ h
  simpa [Hlc.key] using h

theorem Hlc.key_lt_iff (a b : Hlc) :
    a.key < b.key ↔ a.wall < b.wall ∨ a.wall = b.wall ∧
      (a.counter < b.counter ∨ a.counter = b.counter ∧ a.siteId < b.siteId) := by
  simp only [Hlc.key, Prod.Lex.toLex_lt_toLex]

theorem compareHlc_lt_zero (a b : Hlc) : compareHlc a b < 0 ↔ a.key < b.key := by
  rw [Hlc.key_lt_iff, compareHlc]
  split_ifs <;> grind

theorem zero_lt_compareHlc (a b : Hlc) : 0 < compareHlc a b ↔ b.key < a.key := by
  rw [Hlc.key_lt_iff, compareHlc]
  split_ifs <;> grind

theorem compareHlc_eq_zero (a b : Hlc) : compareHlc a b = 0 ↔ a = b := by
  obtain ⟨w, c, s⟩ := a
  obtain ⟨w', c', s'⟩ := b
  rw [compareHlc]
  split_ifs <;> grind

structure HlcClock where
  current : Hlc
  deriving DecidableEq, Repr

def HlcClock.new (siteId : UInt32) (wall : UInt64) (counter : UInt32) : HlcClock :=
  ⟨⟨wall, counter, siteId⟩⟩

def HlcClock.snapshot (c : HlcClock) : Hlc := c.current

def HlcClock.onLocalEvent (c : HlcClock) (nowWallMs : UInt64) : HlcClock :=
  ⟨{ c.current with
    wall := max c.current.wall nowWallMs
    counter := c.current.counter + 1 }⟩

def HlcClock.onRemoteEvent (c : HlcClock) (remote : Hlc) (nowWallMs : UInt64) : HlcClock :=
  let mergedWall := max (max c.current.wall remote.wall) nowWallMs
  ⟨{ c.current with
    wall := mergedWall
    counter := if mergedWall = remote.wall then max c.current.counter remote.counter + 1 else 0 }⟩

inductive HlcEvent where
  | localEvent (nowWallMs : UInt64)
  | remoteEvent (remote : Hlc) (nowWallMs : UInt64)
  deriving DecidableEq, Repr

def HlcClock.step (c : HlcClock) : HlcEvent → HlcClock
  | .localEvent now => c.onLocalEvent now
  | .remoteEvent remote now => c.onRemoteEvent remote now

def HlcClock.returned (c : HlcClock) : List HlcEvent → List Hlc
  | [] => []
  | e :: es => (c.step e).snapshot :: (c.step e).returned es

def CountersBelowMax (c : HlcClock) : HlcEvent → Prop
  | .localEvent _ => c.current.counter ≠ 0xFFFFFFFF
  | .remoteEvent remote _ => c.current.counter ≠ 0xFFFFFFFF ∧ remote.counter ≠ 0xFFFFFFFF

instance (c : HlcClock) : DecidablePred (CountersBelowMax c)
  | .localEvent _ => inferInstanceAs (Decidable (_ ≠ _))
  | .remoteEvent _ _ => inferInstanceAs (Decidable (_ ∧ _))

def BeatsRemote (c : HlcClock) : HlcEvent → Prop
  | .localEvent _ => True
  | .remoteEvent remote now => 0 < compareHlc (c.onRemoteEvent remote now).snapshot remote

def OwnWallDominates (c : HlcClock) : HlcEvent → Prop
  | .localEvent _ => False
  | .remoteEvent remote now => remote.wall < c.current.wall ∧ now ≤ c.current.wall

def HlcMonotone (c : HlcClock) (events : List HlcEvent) : Prop :=
  (c.returned events).Pairwise (fun a b => compareHlc a b < 0) ∧
    AllSteps HlcClock.step BeatsRemote c events

def NeverDominatedAfterFirst (c : HlcClock) : List HlcEvent → Prop
  | [] => True
  | e :: es => AllSteps HlcClock.step (fun c e => ¬ OwnWallDominates c e) (c.step e) es

theorem key_lt_onLocalEvent (c : HlcClock) (now : UInt64) (h : c.current.counter ≠ 0xFFFFFFFF) :
    c.current.key < (c.onLocalEvent now).current.key := by
  rw [Hlc.key_lt_iff]
  simp only [HlcClock.onLocalEvent]
  rcases lt_or_eq_of_le (le_max_left c.current.wall now) with hw | hw
  · exact .inl hw
  · exact .inr ⟨hw, .inl (by grind)⟩

theorem key_lt_onRemoteEvent (c : HlcClock) (remote : Hlc) (now : UInt64)
    (hc : c.current.counter ≠ 0xFFFFFFFF) (hr : remote.counter ≠ 0xFFFFFFFF)
    (h : ¬ OwnWallDominates c (.remoteEvent remote now)) :
    c.current.key < (c.onRemoteEvent remote now).current.key := by
  rw [Hlc.key_lt_iff]
  simp only [HlcClock.onRemoteEvent, OwnWallDominates, not_and, not_le] at *
  split_ifs <;> grind

theorem not_key_lt_onRemoteEvent (c : HlcClock) (remote : Hlc) (now : UInt64)
    (h : OwnWallDominates c (.remoteEvent remote now)) :
    ¬ c.current.key < (c.onRemoteEvent remote now).current.key := by
  obtain ⟨hr, hn⟩ := h
  have hmerged : max (max c.current.wall remote.wall) now = c.current.wall := by
    rw [max_eq_left hr.le, max_eq_left hn]
  rw [Hlc.key_lt_iff]
  simp only [HlcClock.onRemoteEvent, hmerged]
  grind

theorem beatsRemote (c : HlcClock) (e : HlcEvent) (h : CountersBelowMax c e) : BeatsRemote c e := by
  cases e with
  | localEvent now => trivial
  | remoteEvent remote now =>
    obtain ⟨hc, hr⟩ := h
    rw [BeatsRemote, zero_lt_compareHlc, Hlc.key_lt_iff]
    simp only [HlcClock.snapshot, HlcClock.onRemoteEvent]
    split_ifs <;> grind

theorem key_lt_step_iff (c : HlcClock) (e : HlcEvent) (h : CountersBelowMax c e) :
    c.current.key < (c.step e).current.key ↔ ¬ OwnWallDominates c e := by
  cases e with
  | localEvent now => simpa [OwnWallDominates, HlcClock.step] using key_lt_onLocalEvent c now h
  | remoteEvent remote now =>
    exact ⟨fun hlt hd => not_key_lt_onRemoteEvent c remote now hd hlt,
      key_lt_onRemoteEvent c remote now h.1 h.2⟩

theorem returned_pairwise_iff (c : HlcClock) (events : List HlcEvent)
    (h : AllSteps HlcClock.step CountersBelowMax c events) :
    (c.current :: c.returned events).Pairwise (fun a b => a.key < b.key) ↔
      AllSteps HlcClock.step (fun c e => ¬ OwnWallDominates c e) c events := by
  have htrans : IsTrans Hlc (fun a b => a.key < b.key) := ⟨fun _ _ _ => lt_trans⟩
  induction events generalizing c with
  | nil => simp [HlcClock.returned, AllSteps]
  | cons e es ih =>
    rw [← List.isChain_iff_pairwise, HlcClock.returned, List.isChain_cons_cons, List.isChain_iff_pairwise]
    exact and_congr (key_lt_step_iff c e h.1) (ih (c.step e) h.2)

theorem returned_monotone_iff (c : HlcClock) (events : List HlcEvent)
    (h : AllSteps HlcClock.step CountersBelowMax c events) :
    HlcMonotone c events ↔ NeverDominatedAfterFirst c events := by
  simp only [HlcMonotone, AllSteps.mono HlcClock.step beatsRemote h, and_true, compareHlc_lt_zero]
  cases events with
  | nil => simp [HlcClock.returned, NeverDominatedAfterFirst]
  | cons e es => exact returned_pairwise_iff (c.step e) es h.2

theorem returned_monotone_two_events :
    HlcMonotone (.new 9 200 5) [.localEvent 90, .remoteEvent ⟨250, 2, 11⟩ 220] :=
  (returned_monotone_iff (.new 9 200 5) [.localEvent 90, .remoteEvent ⟨250, 2, 11⟩ 220]
    ⟨by decide, by decide, trivial⟩).mpr ⟨by simp [OwnWallDominates, HlcClock.step,
      HlcClock.onLocalEvent, HlcClock.new], trivial⟩

theorem remote_event_resets_counter :
    AllSteps HlcClock.step CountersBelowMax (.new 9 200 5) [.localEvent 90, .remoteEvent ⟨100, 0, 11⟩ 90] ∧
      ¬ HlcMonotone (.new 9 200 5) [.localEvent 90, .remoteEvent ⟨100, 0, 11⟩ 90] := by
  refine ⟨⟨by decide, by decide, trivial⟩, fun h => absurd h.1 (by decide)⟩

end Tightrope.Sync
