import Mathlib.Data.List.DropRight
import Tightrope.Library.Bytes

/-!
Base64 texts and the bytes they stand for, whatever number of padding characters ends them.
-/

namespace Base64

def sextet? (c : UInt8) : Option ℕ :=
  if 65 ≤ c ∧ c ≤ 90 then some (c.toNat - 65)
  else if 97 ≤ c ∧ c ≤ 122 then some (c.toNat - 71)
  else if 48 ≤ c ∧ c ≤ 57 then some (c.toNat + 4)
  else if c = 43 then some 62
  else if c = 47 then some 63
  else none

def fromSextets : List ℕ → Bytes
  | a :: b :: c :: d :: rest =>
    UInt8.ofNat (a * 4 + b / 16) :: UInt8.ofNat (b * 16 + c / 4) :: UInt8.ofNat (c * 64 + d) :: fromSextets rest
  | [a, b, c] => [UInt8.ofNat (a * 4 + b / 16), UInt8.ofNat (b * 16 + c / 4)]
  | [a, b] => [UInt8.ofNat (a * 4 + b / 16)]
  | [_] | [] => []

def unpadded (text : Bytes) : Bytes := text.rdropWhile (· = 61)

def decode (text : Bytes) : Option Bytes := ((unpadded text).mapM sextet?).map fromSextets

example : decode (Bytes.ofString "Zm9vYg==") = some (Bytes.ofString "foob") := by decide

theorem length_fromSextets (sextets : List ℕ) : (fromSextets sextets).length = sextets.length * 3 / 4 := by
  fun_induction fromSextets sextets with
  | case1 a b c d rest ih =>
    simp only [List.length_cons, ih]
    omega
  | _ => simp

theorem mapM_replicate {c : UInt8} {sextet : ℕ} (h : sextet? c = some sextet) (n : ℕ) :
    (List.replicate n c).mapM sextet? = some (List.replicate n sextet) := by
  induction n with
  | zero => rfl
  | succ n ih =>
    rw [List.replicate_succ, List.mapM_cons, h, ih]
    rfl

theorem decode_replicate {c : UInt8} {sextet : ℕ} (h : sextet? c = some sextet) (n : ℕ) :
    decode (List.replicate n c) = some (fromSextets (List.replicate n sextet)) := by
  have hpad : unpadded (List.replicate n c) = List.replicate n c := by
    refine List.rdropWhile_eq_self_iff.mpr fun hne => ?_
    rw [List.getLast_replicate]
    simp only [decide_eq_true_eq]
    rintro rfl
    cases h
  rw [decode, hpad, mapM_replicate h]
  rfl

end Base64
