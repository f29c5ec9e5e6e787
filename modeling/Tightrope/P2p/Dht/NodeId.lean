import Tightrope.Library.BigEndian

namespace Tightrope.P2p.Dht

open BigEndian WireCodec

def NodeId.kBytes : ℕ := 32

structure NodeId where
  bytes : Bytes
  length_bytes : bytes.length = NodeId.kBytes
  deriving DecidableEq

namespace NodeId

def zero : NodeId := ⟨List.replicate kBytes 0, rfl⟩

instance : Inhabited NodeId := ⟨zero⟩

@[ext] theorem ext_bytes {a b : NodeId} (h : a.bytes = b.bytes) : a = b := by
  obtain ⟨bytes, hbytes⟩ := a
  obtain ⟨bytes', hbytes'⟩ := b
  cases h
  rfl

def read : Reader NodeId := fun bs =>
  if h : kBytes ≤ bs.length then some (⟨bs.take kBytes, List.length_take_of_le h⟩, bs.drop kBytes) else none

theorem exact : Exact (fun id : NodeId => some id.bytes) NodeId.read := by
  apply exact_total
  · intro id rest
    have hle : kBytes ≤ (id.bytes ++ rest).length := by
      rw [List.length_append, id.length_bytes]
      omega
    have htake : (id.bytes ++ rest).take kBytes = id.bytes := List.take_left' id.length_bytes
    have hdrop : (id.bytes ++ rest).drop kBytes = rest := List.drop_left' id.length_bytes
    rw [NodeId.read, dif_pos hle, Option.some_inj, Prod.mk.injEq]
    exact ⟨NodeId.ext_bytes htake, hdrop⟩
  · intro bytes id rest h
    rw [NodeId.read] at h
    split_ifs at h with hle
    obtain ⟨rfl, rfl⟩ := Prod.mk.inj (Option.some.inj h)
    exact (List.take_append_drop kBytes bytes).symm

/-- The identifier as a 256-bit number, most significant byte first. -/
def value (id : NodeId) : ℕ := unBe id.bytes

theorem value_injective : Function.Injective NodeId.value := by
  intro a b h
  apply NodeId.ext_bytes
  exact unBe_inj (by rw [a.length_bytes, b.length_bytes]) h

end NodeId

structure NodeDistance where
  bytes : Bytes
  length_bytes : bytes.length = NodeId.kBytes

def xorDistance (lhs rhs : NodeId) : NodeDistance where
  bytes := List.zipWith (· ^^^ ·) lhs.bytes rhs.bytes
  length_bytes := by rw [List.length_zipWith, lhs.length_bytes, rhs.length_bytes, min_self]

def distanceLess (lhs rhs : NodeDistance) : Bool := lhs.bytes < rhs.bytes

def highestBit (value : UInt8) : Option (Fin 8) :=
  [7, 6, 5, 4, 3, 2, 1, 0].find? fun bit : Fin 8 => value &&& (1 <<< UInt8.ofNat bit.val) ≠ 0

def bucketIndexFrom : (bytes : Bytes) → Option (Fin (8 * bytes.length))
  | [] => none
  | v :: rest =>
    let later := (bucketIndexFrom rest).map fun i : Fin (8 * rest.length) =>
      (⟨i, by have := i.isLt; rw [List.length_cons]; omega⟩ : Fin (8 * (v :: rest).length))
    if v = 0 then later
    else match highestBit v with
      | none => later
      | some bit => some ⟨rest.length * 8 + bit, by have := bit.isLt; rw [List.length_cons]; omega⟩

def bucketIndex (lhs rhs : NodeId) : Option (Fin 256) :=
  (bucketIndexFrom (xorDistance lhs rhs).bytes).map (Fin.cast (by rw [(xorDistance lhs rhs).length_bytes]; rfl))

def distance (lhs rhs : NodeId) : ℕ := lhs.value ^^^ rhs.value

theorem unBe_xorDistance (lhs rhs : NodeId) : unBe (xorDistance lhs rhs).bytes = distance lhs rhs :=
  unBe_xor (by rw [lhs.length_bytes, rhs.length_bytes])

theorem distanceLess_iff (a b c d : NodeId) :
    distanceLess (xorDistance a b) (xorDistance c d) = true ↔ distance a b < distance c d := by
  rw [distanceLess, decide_eq_true_iff, lt_iff_unBe_lt, unBe_xorDistance, unBe_xorDistance]
  rw [(xorDistance a b).length_bytes, (xorDistance c d).length_bytes]

theorem distance_xor (a b : NodeId) : distance a b ^^^ b.value = a.value := by
  rw [distance, Nat.xor_assoc, Nat.xor_self, Nat.xor_zero]

theorem distance_eq_zero {a b : NodeId} : distance a b = 0 ↔ a = b := by
  constructor
  · intro h
    apply NodeId.value_injective
    rw [← distance_xor a b, h, Nat.zero_xor]
  · rintro rfl
    exact Nat.xor_self _

theorem highestBit_spec {v : UInt8} (hv : v ≠ 0) :
    ∃ bit, highestBit v = some bit ∧ 2 ^ bit.val ≤ v.toNat ∧ v.toNat < 2 ^ (bit.val + 1) := by
  have hall : ∀ n < 256, UInt8.ofNat n ≠ 0 → ∃ bit, highestBit (UInt8.ofNat n) = some bit ∧
      2 ^ bit.val ≤ (UInt8.ofNat n).toNat ∧ (UInt8.ofNat n).toNat < 2 ^ (bit.val + 1) := by decide +kernel
  have h := hall v.toNat v.toNat_lt
  rw [UInt8.ofNat_toNat] at h
  exact h hv

theorem bucketIndexFrom_spec (bytes : Bytes) :
    (bucketIndexFrom bytes = none ∧ unBe bytes = 0) ∨
      ∃ i, bucketIndexFrom bytes = some i ∧ 2 ^ i.val ≤ unBe bytes ∧ unBe bytes < 2 ^ (i.val + 1) := by
  induction bytes with
  | nil => exact .inl ⟨rfl, rfl⟩
  | cons v rest ih =>
    by_cases hv : v = 0
    · subst hv
      have hvalue : unBe (0 :: rest) = unBe rest := by simp [unBe_cons]
      rw [hvalue, bucketIndexFrom]
      obtain ⟨hnone, hzero⟩ | ⟨i, hi, hlow, hhigh⟩ := ih
      · exact .inl ⟨by simp [hnone], hzero⟩
      · exact .inr ⟨⟨i, by have := i.isLt; rw [List.length_cons]; omega⟩, by simp [hi], hlow, hhigh⟩
    · right
      obtain ⟨bit, hbit, hlow, hhigh⟩ := highestBit_spec hv
      have hrest := unBe_lt rest
      have hpow : 256 ^ rest.length = 2 ^ (rest.length * 8) := by rw [Nat.mul_comm, Nat.pow_mul]
      rw [hpow] at hrest
      refine ⟨⟨rest.length * 8 + bit, by have := bit.isLt; rw [List.length_cons]; omega⟩, ?_, ?_, ?_⟩
      · simp only [bucketIndexFrom, hv, ↓reduceIte, hbit]
      · rw [unBe_cons, hpow, Nat.pow_add]
        exact (Nat.mul_le_mul_left _ hlow).trans (Nat.le_add_right _ _)
      · have hstep : 2 ^ (rest.length * 8) * (v.toNat + 1) ≤ 2 ^ (rest.length * 8) * 2 ^ (bit.val + 1) :=
          Nat.mul_le_mul_left _ hhigh
        rw [Nat.mul_succ] at hstep
        rw [unBe_cons, hpow, Nat.add_assoc, Nat.pow_add]
        omega

theorem bucketIndex_eq_none {a b : NodeId} : bucketIndex a b = none ↔ a = b := by
  rw [bucketIndex, Option.map_eq_none_iff, ← distance_eq_zero, ← unBe_xorDistance]
  obtain ⟨hnone, hzero⟩ | ⟨i, hi, hlow, -⟩ := bucketIndexFrom_spec (xorDistance a b).bytes
  · simp [hnone, hzero]
  · have hpos := Nat.two_pow_pos i.val
    simp only [hi, reduceCtorEq, false_iff]
    omega

theorem log2_of_bucketIndex {a b : NodeId} {i : Fin 256} (h : bucketIndex a b = some i) :
    distance a b ≠ 0 ∧ Nat.log2 (distance a b) = i := by
  obtain ⟨j, hj, rfl⟩ := Option.map_eq_some_iff.mp h
  rw [← unBe_xorDistance]
  obtain ⟨hnone, -⟩ | ⟨i, hi, hlow, hhigh⟩ := bucketIndexFrom_spec (xorDistance a b).bytes
  · rw [hnone] at hj
    cases hj
  · obtain rfl : i = j := Option.some.inj (hi.symm.trans hj)
    have hpos := Nat.two_pow_pos i.val
    have hne : unBe (xorDistance a b).bytes ≠ 0 := by omega
    exact ⟨hne, (Nat.log2_eq_iff hne).mpr ⟨hlow, hhigh⟩⟩

end Tightrope.P2p.Dht
