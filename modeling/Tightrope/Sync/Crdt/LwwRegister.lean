import Mathlib.Order.WithBot
import Tightrope.Library.Delivery
import Tightrope.Sync.Hlc

namespace Tightrope.Sync.Crdt

open MachineWords

structure LWWRegister (T : Type) [Inhabited T] where
  value : T
  timestamp : Hlc
  siteId : UInt32
  initialized : Bool
  fresh : initialized = false → value = default ∧ timestamp = default ∧ siteId = 0

namespace LWWRegister

variable {T : Type} [Inhabited T]

def new : LWWRegister T := ⟨default, default, 0, false, fun _ => ⟨rfl, rfl, rfl⟩⟩

instance : Inhabited (LWWRegister T) := ⟨new⟩

def set (newValue : T) (now : Hlc) (siteId : UInt32) : LWWRegister T := ⟨newValue, now, siteId, true, nofun⟩

def merge (r other : LWWRegister T) : LWWRegister T :=
  if !other.initialized then r
  else if !r.initialized then other
  else
    let cmp := compareHlc other.timestamp r.timestamp
    if cmp > 0 ∨ cmp = 0 ∧ other.siteId > r.siteId then other else r

theorem eq_new {r : LWWRegister T} (h : r.initialized = false) : r = new := by
  obtain ⟨v, t, s, i, hf⟩ := r
  obtain rfl : i = false := h
  obtain ⟨rfl, rfl, rfl⟩ := hf rfl
  rfl

theorem eq_set {r : LWWRegister T} (h : r.initialized = true) : r = set r.value r.timestamp r.siteId := by
  obtain ⟨v, t, s, i, hf⟩ := r
  obtain rfl : i = true := h
  rfl

instance [DecidableEq T] : DecidableEq (LWWRegister T) := fun a b =>
  decidable_of_iff ((a.value, a.timestamp, a.siteId, a.initialized) = (b.value, b.timestamp, b.siteId, b.initialized))
    ⟨fun h => by cases a; cases b; simpa using h, fun h => h ▸ rfl⟩

/-- The rank a register competes with: nothing when unset, else its timestamp and then its site. -/
def stamp (r : LWWRegister T) : WithBot ((UInt64 ×ₗ UInt32 ×ₗ UInt32) ×ₗ UInt32) :=
  if r.initialized then ↑(toLex (r.timestamp.key, r.siteId)) else ⊥

theorem stamp_of_unset {r : LWWRegister T} (h : r.initialized = false) : r.stamp = ⊥ := by simp [stamp, h]

theorem stamp_of_set {r : LWWRegister T} (h : r.initialized = true) :
    r.stamp = ↑(toLex (r.timestamp.key, r.siteId)) := by simp [stamp, h]

theorem stamp_lt_iff {a b : LWWRegister T} (ha : a.initialized = true) (hb : b.initialized = true) :
    a.stamp < b.stamp ↔ a.timestamp.key < b.timestamp.key ∨ a.timestamp = b.timestamp ∧ a.siteId < b.siteId := by
  rw [stamp_of_set ha, stamp_of_set hb, WithBot.coe_lt_coe, Prod.Lex.toLex_lt_toLex]
  simp only [Hlc.key_injective.eq_iff]

theorem merge_eq_keepLarger (a b : LWWRegister T) : a.merge b = Delivery.keepLarger stamp a b := by
  unfold merge Delivery.keepLarger
  cases hb : b.initialized with
  | false => simp [stamp_of_unset hb]
  | true =>
    cases ha : a.initialized with
    | false => simp [stamp_of_unset ha, stamp_of_set hb]
    | true =>
      have hsym : b.timestamp = a.timestamp ↔ a.timestamp = b.timestamp := eq_comm
      simp [stamp_lt_iff ha hb, zero_lt_compareHlc, compareHlc_eq_zero, hsym]

theorem stamp_eq_iff {a b : LWWRegister T} (ha : a.initialized = true) (hb : b.initialized = true) :
    a.stamp = b.stamp ↔ a.timestamp = b.timestamp ∧ a.siteId = b.siteId := by
  simp only [stamp, ha, hb, ↓reduceIte, WithBot.coe_inj, EmbeddingLike.apply_eq_iff_eq, Prod.mk.injEq,
    Hlc.key_injective.eq_iff]

def UniqueWrites (rs : List (LWWRegister T)) : Prop :=
  ∀ a ∈ rs, ∀ b ∈ rs, a.initialized = true → b.initialized = true →
    a.timestamp = b.timestamp → a.siteId = b.siteId → a.value = b.value

theorem UniqueWrites.subset {rs rs' : List (LWWRegister T)} (h : UniqueWrites rs) (hs : rs' ⊆ rs) :
    UniqueWrites rs' := fun a ha b hb => h a (hs ha) b (hs hb)

theorem UniqueWrites.stamp_injective {rs : List (LWWRegister T)} (h : UniqueWrites rs) :
    ∀ a ∈ rs, ∀ b ∈ rs, a.stamp = b.stamp → a = b := by
  intro a ha b hb heq
  cases hia : a.initialized with
  | false =>
    cases hib : b.initialized with
    | false => rw [eq_new hia, eq_new hib]
    | true => simp [stamp, hia, hib] at heq
  | true =>
    cases hib : b.initialized with
    | false => simp [stamp, hia, hib] at heq
    | true =>
      obtain ⟨ht, hs⟩ := (stamp_eq_iff hia hib).mp heq
      rw [eq_set hia, eq_set hib, h a ha b hb hia hib ht hs, ht, hs]

end LWWRegister

end Tightrope.Sync.Crdt
