import Mathlib.Order.Lattice
import Mathlib.Tactic.Linarith

/-!
Linear orders on the fixed-width integers, over their own `≤` and `<`, and the
reading of a 64-bit pattern as signed and as unsigned.
-/

namespace MachineWords

abbrev orderByValue {α : Type} [LE α] [LT α] [Min α] [Max α] [DecidableLE α] [DecidableLT α]
    [DecidableEq α] (f : α → ℤ) (hf : ∀ a b, f a = f b → a = b)
    (hle : ∀ a b : α, a ≤ b ↔ f a ≤ f b) (hlt : ∀ a b : α, a < b ↔ f a < f b)
    (hmin : ∀ a b : α, min a b = if a ≤ b then a else b)
    (hmax : ∀ a b : α, max a b = if a ≤ b then b else a) : LinearOrder α where
  le_refl a := (hle a a).mpr (le_refl _)
  le_trans a b c hab hbc := (hle a c).mpr (((hle a b).mp hab).trans ((hle b c).mp hbc))
  le_antisymm a b hab hba := hf a b (le_antisymm ((hle a b).mp hab) ((hle b a).mp hba))
  le_total a b := by rw [hle, hle]; exact le_total _ _
  lt_iff_le_not_ge a b := by rw [hlt, hle, hle]; omega
  min_def := hmin
  max_def := hmax
  toDecidableLE := inferInstance
  toDecidableLT := inferInstance
  toDecidableEq := inferInstance

instance uint8LinearOrder : LinearOrder UInt8 := orderByValue (fun a => (a.toNat : ℤ))
  (fun a b h => UInt8.toNat_inj.mp (by omega))
  (fun a b => by rw [UInt8.le_iff_toNat_le]; omega) (fun a b => by rw [UInt8.lt_iff_toNat_lt]; omega)
  (fun _ _ => rfl) (fun _ _ => rfl)

instance uint32LinearOrder : LinearOrder UInt32 := orderByValue (fun a => (a.toNat : ℤ))
  (fun a b h => UInt32.toNat_inj.mp (by omega))
  (fun a b => by rw [UInt32.le_iff_toNat_le]; omega) (fun a b => by rw [UInt32.lt_iff_toNat_lt]; omega)
  (fun _ _ => rfl) (fun _ _ => rfl)

instance uint64LinearOrder : LinearOrder UInt64 := orderByValue (fun a => (a.toNat : ℤ))
  (fun a b h => UInt64.toNat_inj.mp (by omega))
  (fun a b => by rw [UInt64.le_iff_toNat_le]; omega) (fun a b => by rw [UInt64.lt_iff_toNat_lt]; omega)
  (fun _ _ => rfl) (fun _ _ => rfl)

instance int64LinearOrder : LinearOrder Int64 := orderByValue Int64.toInt (fun _ _ => Int64.toInt.inj)
  (fun _ _ => Int64.le_iff_toInt_le) (fun _ _ => Int64.lt_iff_toInt_lt)
  (fun _ _ => rfl) (fun _ _ => rfl)

instance uint8LawfulBEq : LawfulBEq UInt8 := inferInstance

instance uint32LawfulBEq : LawfulBEq UInt32 := inferInstance

theorem toInt_toInt64 (x : UInt64) :
    x.toInt64.toInt = if x.toNat < 2 ^ 63 then (x.toNat : ℤ) else x.toNat - 2 ^ 64 := by
  have h : x.toInt64.toInt = x.toBitVec.toInt := rfl
  have hn : x.toBitVec.toNat = x.toNat := rfl
  rw [h, BitVec.toInt_eq_toNat_cond, hn]
  split_ifs <;> omega

theorem toInt64_injective : Function.Injective UInt64.toInt64 := by
  intro x y h
  rw [← UInt64.toUInt64_toInt64 x, h, UInt64.toUInt64_toInt64]

theorem toInt64_inj {x y : UInt64} : x.toInt64 = y.toInt64 ↔ x = y := toInt64_injective.eq_iff

def SignedRange (x : UInt64) : Prop := x.toNat < 2 ^ 63

instance : DecidablePred SignedRange := fun x => inferInstanceAs (Decidable (x.toNat < 2 ^ 63))

theorem toInt64_lt_iff {x y : UInt64} (h : SignedRange x ↔ SignedRange y) : x.toInt64 < y.toInt64 ↔ x < y := by
  rw [Int64.lt_iff_toInt_lt, UInt64.lt_iff_toNat_lt, toInt_toInt64, toInt_toInt64]
  unfold SignedRange at h
  split_ifs <;> omega

theorem toInt64_le_iff {x y : UInt64} (h : SignedRange x ↔ SignedRange y) : x.toInt64 ≤ y.toInt64 ↔ x ≤ y := by
  rw [← not_lt, toInt64_lt_iff h.symm, not_lt]

theorem toInt64_neg_iff {x : UInt64} : x.toInt64 < 0 ↔ ¬ SignedRange x := by
  have hx := x.toNat_lt
  have hzero : (0 : Int64).toInt = 0 := rfl
  rw [Int64.lt_iff_toInt_lt, toInt_toInt64, SignedRange, hzero]
  split_ifs <;> omega

theorem toNat_add_one {x : UInt64} (h : SignedRange x) : (x + 1).toNat = x.toNat + 1 := by
  have hone : (1 : UInt64).toNat = 1 := rfl
  unfold SignedRange at h
  rw [UInt64.toNat_add, hone]
  omega

theorem toInt64_lt_maxValue {x : UInt64} (hx : SignedRange x) (h : SignedRange (x + 1)) :
    x.toInt64 < Int64.maxValue := by
  have hmax : Int64.maxValue.toInt = 2 ^ 63 - 1 := rfl
  have hsucc := toNat_add_one hx
  unfold SignedRange at h hx
  rw [Int64.lt_iff_toInt_lt, toInt_toInt64, if_pos hx, hmax]
  omega

theorem add_one_pos {k : Int64} (h : 0 ≤ k) (hmax : k < Int64.maxValue) : 0 < k + 1 := by
  have hmaxv : Int64.maxValue.toInt = 2 ^ 63 - 1 := rfl
  have hzero : (0 : Int64).toInt = 0 := rfl
  have hone : (1 : Int64).toInt = 1 := rfl
  rw [Int64.le_iff_toInt_le, hzero] at h
  rw [Int64.lt_iff_toInt_lt, hmaxv] at hmax
  rw [Int64.lt_iff_toInt_lt, hzero, Int64.toInt_add, hone, Int.bmod_eq_of_le] <;> omega

theorem signedRange_toUInt64 {k : Int64} (h : 0 ≤ k) : SignedRange k.toUInt64 := by
  by_contra hneg
  rw [← toInt64_neg_iff, Int64.toInt64_toUInt64] at hneg
  exact absurd h (not_le.mpr hneg)

end MachineWords
