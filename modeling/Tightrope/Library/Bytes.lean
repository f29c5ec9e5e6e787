import Mathlib.Data.List.Lex
import Mathlib.Data.List.TakeWhile
import Tightrope.Library.MachineWords

/-!
Byte strings, what is left of one after it passes through a C string, and numbers written in decimal digits.
-/

abbrev Bytes := List UInt8

namespace Bytes

open MachineWords

instance bytesLawfulBEq : LawfulBEq (List UInt8) := inferInstance

-- The bytes of a literal in UTF-8.
def ofString (s : String) : Bytes := s.toByteArray.data.toList

def decimal (n : ℕ) : Bytes := ofString (toString n)

def cstr (b : Bytes) : Bytes := b.takeWhile (· ≠ 0)

def NulFree (b : Bytes) : Prop := 0 ∉ b

instance : DecidablePred NulFree := fun b => inferInstanceAs (Decidable (0 ∉ b))

theorem cstr_eq_self {b : Bytes} : cstr b = b ↔ NulFree b := by
  rw [cstr, List.takeWhile_eq_self_iff]
  simp only [decide_eq_true_eq, NulFree, ne_eq]
  exact ⟨fun h hm => h 0 hm rfl, fun h x hx he => h (he ▸ hx)⟩

theorem nulFree_cstr (b : Bytes) : NulFree (cstr b) := by
  intro h
  simpa using List.mem_takeWhile_imp h

@[simp] theorem cstr_cstr (b : Bytes) : cstr (cstr b) = cstr b := cstr_eq_self.mpr (nulFree_cstr b)

theorem length_cstr_le (b : Bytes) : (cstr b).length ≤ b.length := (List.takeWhile_sublist _).length_le

def digitsValue (value : Bytes) : ℕ := value.foldl (fun n c => n * 10 + (c.toNat - 48)) 0

theorem toNat_of_isDigit {c : Char} (h : c.isDigit = true) : 48 ≤ c.toNat ∧ c.toNat ≤ 57 := by
  simp only [Char.isDigit, Bool.and_eq_true, decide_eq_true_eq] at h
  exact ⟨UInt32.le_iff_toNat_le.mp h.1, UInt32.le_iff_toNat_le.mp h.2⟩

theorem utf8EncodeChar_digit {c : Char} (h : c.isDigit = true) :
    String.utf8EncodeChar c = [UInt8.ofNat c.toNat] := by
  have hle : c.val.toNat ≤ 0x7F := (toNat_of_isDigit h).2.trans (by decide)
  rw [String.utf8EncodeChar, if_pos hle]
  rfl

theorem decimal_eq (n : ℕ) : decimal n = (Nat.toDigits 10 n).map fun c => UInt8.ofNat c.toNat := by
  rw [decimal, ofString, Nat.toString_eq_ofList_toDigits, String.toByteArray_ofList, List.utf8Encode,
    List.data_toByteArray, List.map_eq_flatMap]
  exact List.flatMap_congr fun c hc => utf8EncodeChar_digit (Nat.isDigit_of_mem_toDigits (by decide) (by decide) hc)

theorem decimal_ne_nil (n : ℕ) : decimal n ≠ [] := by
  rw [decimal_eq]
  exact fun h => Nat.toDigits_ne_nil (List.map_eq_nil_iff.mp h)

theorem toNat_digit {c : Char} (h : c.isDigit = true) : (UInt8.ofNat c.toNat).toNat = c.toNat := by
  have hle := (toNat_of_isDigit h).2
  rw [UInt8.toNat_ofNat']
  omega

theorem isDigit_of_mem_decimal {n : ℕ} {c : UInt8} (h : c ∈ decimal n) : 48 ≤ c ∧ c ≤ 57 := by
  rw [decimal_eq, List.mem_map] at h
  obtain ⟨char, hmem, rfl⟩ := h
  have hdigit := Nat.isDigit_of_mem_toDigits (by decide) (by decide) hmem
  rw [UInt8.le_iff_toNat_le, UInt8.le_iff_toNat_le, toNat_digit hdigit]
  exact toNat_of_isDigit hdigit

theorem digitsValue_decimal (n : ℕ) : digitsValue (decimal n) = n := by
  have hvalue : ∀ (digits : List Char) (start : ℕ), (∀ c ∈ digits, c.isDigit = true) →
      (digits.map fun c => UInt8.ofNat c.toNat).foldl (fun n c => n * 10 + (c.toNat - 48)) start =
        Nat.ofDigitChars 10 digits start := by
    intro digits start hdigits
    induction digits generalizing start with
    | nil => rw [List.map_nil, List.foldl_nil, Nat.ofDigitChars_nil]
    | cons c digits ih =>
      obtain ⟨hc, hrest⟩ := List.forall_mem_cons.mp hdigits
      rw [List.map_cons, List.foldl_cons, Nat.ofDigitChars_cons, ih _ hrest, toNat_digit hc, Nat.mul_comm start 10]
      rfl
  rw [digitsValue, decimal_eq, hvalue _ 0 fun c => Nat.isDigit_of_mem_toDigits (by decide) (by decide),
    Nat.ofDigitChars_ten_toDigits]

theorem decimal_injective : Function.Injective decimal := by
  intro m n h
  rw [← digitsValue_decimal m, h, digitsValue_decimal]

end Bytes
