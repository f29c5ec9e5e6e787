import Mathlib.Data.List.Flatten
import Mathlib.Data.Nat.Bitwise
import Mathlib.Data.Nat.Notation

/-!
The two halves of a byte, numbers as groups of bits with the highest one first, and lists of bits cut into groups of
another size.
-/

namespace Nibbles

theorem low_lt (c : UInt8) : (c &&& 0x0F).toNat < 16 := by
  rw [UInt8.toNat_and]
  exact Nat.and_lt_two_pow c.toNat (by decide : (0x0F : UInt8).toNat < 2 ^ 4)

theorem forall_low {P : UInt8 → Prop} (h : ∀ n < 16, P (UInt8.ofNat n)) (c : UInt8) : P (c &&& 0x0F) := by
  have hlow := h _ (low_lt c)
  rwa [UInt8.ofNat_toNat] at hlow

theorem forall_byte {P : UInt8 → Prop} (h : ∀ n < 256, P (UInt8.ofNat n)) (c : UInt8) : P c := by
  have hbyte := h _ c.toNat_lt
  rwa [UInt8.ofNat_toNat] at hbyte

theorem join (c : UInt8) : ((c >>> 4) &&& 0x0F) <<< 4 ||| (c &&& 0x0F) = c :=
  forall_byte (P := fun c => ((c >>> 4) &&& 0x0F) <<< 4 ||| (c &&& 0x0F) = c) (by decide +kernel) c

theorem split_join_ofNat : ∀ high < 16, ∀ low < 16,
    ((UInt8.ofNat high <<< 4 ||| UInt8.ofNat low) >>> 4) &&& 0x0F = UInt8.ofNat high ∧
      (UInt8.ofNat high <<< 4 ||| UInt8.ofNat low) &&& 0x0F = UInt8.ofNat low := by
  decide +kernel

theorem split_join {high low : UInt8} (hhigh : high.toNat < 16) (hlow : low.toNat < 16) :
    ((high <<< 4 ||| low) >>> 4) &&& 0x0F = high ∧ (high <<< 4 ||| low) &&& 0x0F = low := by
  have hsplit := split_join_ofNat high.toNat hhigh low.toNat hlow
  rwa [UInt8.ofNat_toNat, UInt8.ofNat_toNat] at hsplit

end Nibbles

namespace BitGroups

def bits : ℕ → ℕ → List Bool
  | 0, _ => []
  | n + 1, v => v.testBit n :: bits n v

@[simp] theorem length_bits (n v : ℕ) : (bits n v).length = n := by
  induction n with
  | zero => rfl
  | succ n ih => rw [bits, List.length_cons, ih]

theorem bits_congr {n v w : ℕ} (h : ∀ i < n, v.testBit i = w.testBit i) : bits n v = bits n w := by
  induction n with
  | zero => rfl
  | succ n ih => rw [bits, bits, h n (by omega), ih (fun i hi => h i (by omega))]

theorem bits_mod {n k : ℕ} (h : n ≤ k) (v : ℕ) : bits n (v % 2 ^ k) = bits n v := by
  apply bits_congr
  intro i hi
  rw [Nat.testBit_mod_two_pow, decide_eq_true (by omega : i < k), Bool.true_and]

theorem bits_add (m n v : ℕ) : bits (m + n) v = bits m (v >>> n) ++ bits n v := by
  induction m with
  | zero => rw [Nat.zero_add]; rfl
  | succ m ih => rw [Nat.add_right_comm, bits, ih, bits, Nat.testBit_shiftRight, Nat.add_comm n m, List.cons_append]

theorem bits_shiftLeft_or {n v : ℕ} (h : v < 2 ^ n) (m buffer : ℕ) :
    bits (m + n) (buffer <<< n ||| v) = bits m buffer ++ bits n v := by
  rw [bits_add]
  congr 1
  · apply bits_congr
    intro i _
    rw [Nat.testBit_shiftRight, Nat.testBit_or, Nat.testBit_shiftLeft, decide_eq_true (by omega : n + i ≥ n),
      Bool.true_and, Nat.add_sub_cancel_left,
        Nat.testBit_lt_two_pow (h.trans_le (Nat.pow_le_pow_right (by decide) (by omega))),
      Bool.or_false]
  · apply bits_congr
    intro i hi
    rw [Nat.testBit_or, Nat.testBit_shiftLeft, decide_eq_false (by omega : ¬ i ≥ n), Bool.false_and, Bool.false_or]

theorem bits_inj {n v w : ℕ} (hv : v < 2 ^ n) (hw : w < 2 ^ n) (h : bits n v = bits n w) : v = w := by
  have hbit : ∀ m, bits m v = bits m w → ∀ i < m, v.testBit i = w.testBit i := by
    intro m
    induction m with
    | zero => intro _ i hi; omega
    | succ m ih =>
      intro heq i hi
      obtain ⟨hhead, htail⟩ := List.cons.inj heq
      obtain rfl | hi := Nat.lt_succ_iff_lt_or_eq.mp hi |>.symm
      · exact hhead
      · exact ih htail i hi
  apply Nat.eq_of_testBit_eq
  intro i
  obtain hi | hi := lt_or_ge i n
  · exact hbit n h i hi
  · have hpow : 2 ^ n ≤ 2 ^ i := Nat.pow_le_pow_right (by decide) hi
    rw [Nat.testBit_lt_two_pow (hv.trans_le hpow), Nat.testBit_lt_two_pow (hw.trans_le hpow)]

/-- Fewer bits than a group holds, put behind the groups, do not change what the groups are. -/
theorem groups_unique {n : ℕ} {vs ws : List ℕ} {r s : List Bool} (hvs : ∀ v ∈ vs, v < 2 ^ n) (hws : ∀ w ∈ ws, w < 2 ^ n)
    (hr : r.length < n) (hs : s.length < n) (h : vs.flatMap (bits n) ++ r = ws.flatMap (bits n) ++ s) : vs = ws := by
  induction vs generalizing ws with
  | nil =>
    cases ws with
    | nil => rfl
    | cons w ws =>
      have hlength := congrArg List.length h
      rw [List.flatMap_nil, List.nil_append, List.flatMap_cons, List.append_assoc, List.length_append,
        length_bits] at hlength
      omega
  | cons v vs ih =>
    cases ws with
    | nil =>
      have hlength := congrArg List.length h
      rw [List.flatMap_nil, List.nil_append, List.flatMap_cons, List.append_assoc, List.length_append,
        length_bits] at hlength
      omega
    | cons w ws =>
      rw [List.forall_mem_cons] at hvs hws
      rw [List.flatMap_cons, List.flatMap_cons, List.append_assoc, List.append_assoc] at h
      obtain ⟨hhead, htail⟩ := List.append_inj h (by rw [length_bits, length_bits])
      rw [bits_inj hvs.1 hws.1 hhead, ih hvs.2 hws.2 htail]

end BitGroups
