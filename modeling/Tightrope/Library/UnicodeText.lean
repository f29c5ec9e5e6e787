import Mathlib.Data.Char
import Mathlib.Data.List.DropRight
import Mathlib.Data.List.Induction
import Tightrope.Library.Bytes

/-!
Text as the bytes of its UTF-8 encoding, each character in its shortest form, and as a sequence of UTF-16 units.
-/

namespace Utf8

def encode (text : List Char) : Bytes := text.flatMap String.utf8EncodeChar

def Valid (s : Bytes) : Prop := ∃ text, s = encode text

@[simp] theorem encode_nil : encode [] = [] := rfl

@[simp] theorem encode_cons (c : Char) (text : List Char) :
    encode (c :: text) = String.utf8EncodeChar c ++ encode text :=
  List.flatMap_cons

@[simp] theorem encode_append (text text' : List Char) : encode (text ++ text') = encode text ++ encode text' :=
  List.flatMap_append

theorem Valid.append {s t : Bytes} (hs : Valid s) (ht : Valid t) : Valid (s ++ t) := by
  obtain ⟨text, rfl⟩ := hs
  obtain ⟨text', rfl⟩ := ht
  exact ⟨text ++ text', (encode_append text text').symm⟩

theorem valid_nil : Valid [] := ⟨[], rfl⟩

theorem valid_encodeChar (c : Char) : Valid (String.utf8EncodeChar c) := ⟨[c], by simp⟩

theorem exists_char {n : ℕ} (h : n < 0xD800 ∨ 0xDFFF < n ∧ n < 0x110000) : ∃ c : Char, c.val.toNat = n :=
  ⟨Char.ofNatAux n h, rfl⟩

theorem toNat_val (c : Char) : c.val.toNat < 0xD800 ∨ 0xDFFF < c.val.toNat ∧ c.val.toNat < 0x110000 := c.valid

/-- A character up to 0x7F is one byte. -/
theorem encodeChar_ascii {c : Char} (h : c.val.toNat ≤ 0x7F) : String.utf8EncodeChar c = [UInt8.ofNat c.val.toNat] := by
  rw [String.utf8EncodeChar, if_pos h]

theorem valid_singleton {b : UInt8} (h : b ≤ 0x7F) : Valid [b] := by
  rw [UInt8.le_iff_toNat_le] at h
  have hle : b.toNat ≤ 0x7F := h
  obtain ⟨c, hc⟩ := exists_char (n := b.toNat) (.inl (by omega))
  refine ⟨[c], ?_⟩
  rw [encode_cons, encode_nil, List.append_nil, encodeChar_ascii (by omega), hc, UInt8.ofNat_toNat]

theorem valid_of_ascii {s : Bytes} (h : ∀ b ∈ s, b ≤ 0x7F) : Valid s := by
  induction s with
  | nil => exact valid_nil
  | cons b s ih =>
    have hs := ih fun c hc => h c (List.mem_cons_of_mem _ hc)
    exact (valid_singleton (h b List.mem_cons_self)).append hs

theorem valid_of_all {s : Bytes} (h : s.all (fun b => b.toNat ≤ 0x7F) = true) : Valid s := by
  apply valid_of_ascii
  intro b hb
  rw [UInt8.le_iff_toNat_le]
  simpa using List.all_eq_true.mp h b hb

/-- All bytes of a character beyond 0x7F are above it. -/
theorem encodeChar_high {c : Char} (h : 0x7F < c.val.toNat) {b : UInt8} (hb : b ∈ String.utf8EncodeChar c) :
    0x80 ≤ b.toNat := by
  rw [String.utf8EncodeChar, if_neg (by omega)] at hb
  split_ifs at hb <;> simp only [List.mem_cons, List.not_mem_nil, or_false] at hb
  · obtain rfl | rfl := hb <;> rw [UInt8.toNat_ofNat'] <;> omega
  · obtain rfl | rfl | rfl := hb <;> rw [UInt8.toNat_ofNat'] <;> omega
  · obtain rfl | rfl | rfl | rfl := hb <;> rw [UInt8.toNat_ofNat'] <;> omega

def Tail (b : UInt8) : Prop := 0x80 ≤ b.toNat ∧ b.toNat ≤ 0xBF

def SecondFits (lead second : UInt8) : Prop :=
  (lead.toNat = 0xE0 → 0xA0 ≤ second.toNat) ∧ (lead.toNat = 0xED → second.toNat ≤ 0x9F) ∧
    (lead.toNat = 0xF0 → 0x90 ≤ second.toNat) ∧ (lead.toNat = 0xF4 → second.toNat ≤ 0x8F)

def Sequence : Bytes → Prop
  | [a] => a.toNat ≤ 0x7F
  | [a, b] => 0xC2 ≤ a.toNat ∧ a.toNat ≤ 0xDF ∧ Tail b
  | [a, b, c] => 0xE0 ≤ a.toNat ∧ a.toNat ≤ 0xEF ∧ Tail b ∧ SecondFits a b ∧ Tail c
  | [a, b, c, d] => 0xF0 ≤ a.toNat ∧ a.toNat ≤ 0xF4 ∧ Tail b ∧ SecondFits a b ∧ Tail c ∧ Tail d
  | _ => False

theorem sequence_encodeChar (c : Char) : Sequence (String.utf8EncodeChar c) := by
  have hvalid := toNat_val c
  unfold String.utf8EncodeChar
  dsimp only
  split_ifs with hone htwo hthree <;>
    simp only [Sequence, Tail, SecondFits, UInt8.toNat_ofNat'] <;> omega

theorem tail_eq_nil {a : UInt8} {tail : Bytes} (h : Sequence (a :: tail)) (ha : a.toNat ≤ 0x7F) : tail = [] := by
  match tail with
  | [] => rfl
  | [b] => exact absurd h.1 (by omega)
  | [b, c] => exact absurd h.1 (by omega)
  | [b, c, d] => exact absurd h.1 (by omega)
  | _ :: _ :: _ :: _ :: _ => exact h.elim

theorem exists_char_of_sequence {bs : Bytes} (h : Sequence bs) : ∃ c, bs = String.utf8EncodeChar c := by
  match bs with
  | [] => exact h.elim
  | [a] =>
    have ha : a.toNat ≤ 0x7F := h
    obtain ⟨c, hc⟩ := exists_char (n := a.toNat) (.inl (by omega))
    refine ⟨c, ?_⟩
    rw [encodeChar_ascii (by omega), hc, UInt8.ofNat_toNat]
  | [a, b] =>
    obtain ⟨hlow, hhigh, htail⟩ := h
    have htail' : 0x80 ≤ b.toNat ∧ b.toNat ≤ 0xBF := htail
    obtain ⟨c, hc⟩ := exists_char (n := (a.toNat - 0xC0) * 0x40 + (b.toNat - 0x80)) (by omega)
    refine ⟨c, ?_⟩
    rw [String.utf8EncodeChar, hc, if_neg (by omega), if_pos (by omega)]
    simp only [List.cons.injEq, ← UInt8.toNat_inj, UInt8.toNat_ofNat', and_true]
    omega
  | [a, b, c] =>
    obtain ⟨hlow, hhigh, htail, ⟨hE0, hED, -⟩, htail'⟩ := h
    have htails : (0x80 ≤ b.toNat ∧ b.toNat ≤ 0xBF) ∧ 0x80 ≤ c.toNat ∧ c.toNat ≤ 0xBF := ⟨htail, htail'⟩
    obtain ⟨d, hd⟩ := exists_char
      (n := (a.toNat - 0xE0) * 0x1000 + (b.toNat - 0x80) * 0x40 + (c.toNat - 0x80)) (by omega)
    refine ⟨d, ?_⟩
    rw [String.utf8EncodeChar, hd, if_neg (by omega), if_neg (by omega), if_pos (by omega)]
    simp only [List.cons.injEq, ← UInt8.toNat_inj, UInt8.toNat_ofNat', and_true]
    omega
  | [a, b, c, d] =>
    obtain ⟨hlow, hhigh, htail, ⟨-, -, hF0, hF4⟩, htail', htail''⟩ := h
    have htails : (0x80 ≤ b.toNat ∧ b.toNat ≤ 0xBF) ∧ (0x80 ≤ c.toNat ∧ c.toNat ≤ 0xBF) ∧
        0x80 ≤ d.toNat ∧ d.toNat ≤ 0xBF := ⟨htail, htail', htail''⟩
    obtain ⟨e, he⟩ := exists_char (n := (a.toNat - 0xF0) * 0x40000 + (b.toNat - 0x80) * 0x1000 +
      (c.toNat - 0x80) * 0x40 + (d.toNat - 0x80)) (by omega)
    refine ⟨e, ?_⟩
    rw [String.utf8EncodeChar, he, if_neg (by omega), if_neg (by omega), if_neg (by omega)]
    simp only [List.cons.injEq, ← UInt8.toNat_inj, UInt8.toNat_ofNat', and_true]
    omega
  | _ :: _ :: _ :: _ :: _ :: _ => exact h.elim

/-- What is left of a text when ASCII characters at its ends are cut off. -/
theorem Valid.dropWhile {s : Bytes} (h : Valid s) {p : UInt8 → Bool} (hp : ∀ b, p b = true → b.toNat ≤ 0x7F) :
    Valid (s.dropWhile p) := by
  obtain ⟨text, rfl⟩ := h
  induction text with
  | nil => exact valid_nil
  | cons c text ih =>
    rw [encode_cons]
    by_cases hc : c.val.toNat ≤ 0x7F
    · rw [encodeChar_ascii hc, List.singleton_append, List.dropWhile_cons]
      split_ifs
      · exact ih
      · refine ⟨c :: text, ?_⟩
        rw [encode_cons, encodeChar_ascii hc, List.singleton_append]
    · refine ⟨c :: text, ?_⟩
      rw [encode_cons]
      cases hencode : String.utf8EncodeChar c with
      | nil => exact absurd hencode String.utf8EncodeChar_ne_nil
      | cons lead tail =>
        have hlead := encodeChar_high (not_le.mp hc) (hencode ▸ List.mem_cons_self)
        have hnot : p lead ≠ true := fun h => absurd (hp lead h) (by omega)
        rw [List.cons_append, List.dropWhile_cons_of_neg hnot]

theorem Valid.filter {s : Bytes} (h : Valid s) {p : UInt8 → Bool} (hp : ∀ b, p b = false → b.toNat ≤ 0x7F) :
    Valid (s.filter p) := by
  obtain ⟨text, rfl⟩ := h
  induction text with
  | nil => exact valid_nil
  | cons c text ih =>
    rw [encode_cons, List.filter_append]
    refine Valid.append ?_ ih
    by_cases hc : c.val.toNat ≤ 0x7F
    · have hself := valid_encodeChar c
      rw [encodeChar_ascii hc] at hself ⊢
      rw [List.filter_singleton]
      cases p (UInt8.ofNat c.val.toNat) with
      | true => exact hself
      | false => exact valid_nil
    · have hall : ∀ b ∈ String.utf8EncodeChar c, p b = true := by
        intro b hb
        by_contra hfalse
        have hhigh := encodeChar_high (Nat.lt_of_not_le hc) hb
        have hlow := hp b (by simpa using hfalse)
        omega
      rw [List.filter_eq_self.mpr hall]
      exact valid_encodeChar c

theorem Valid.rdropWhile {s : Bytes} (h : Valid s) {p : UInt8 → Bool} (hp : ∀ b, p b = true → b.toNat ≤ 0x7F) :
    Valid (s.rdropWhile p) := by
  obtain ⟨text, rfl⟩ := h
  induction text using List.reverseRecOn with
  | nil => exact valid_nil
  | append_singleton text c ih =>
    rw [encode_append, encode_cons, encode_nil, List.append_nil]
    by_cases hc : c.val.toNat ≤ 0x7F
    · rw [encodeChar_ascii hc, List.rdropWhile_concat]
      split_ifs
      · exact ih
      · refine ⟨text ++ [c], ?_⟩
        rw [encode_append, encode_cons, encode_nil, List.append_nil, encodeChar_ascii hc]
    · refine ⟨text ++ [c], ?_⟩
      rw [encode_append, encode_cons, encode_nil, List.append_nil, List.rdropWhile_eq_self_iff]
      intro hne hlast
      have hmem : (encode text ++ String.utf8EncodeChar c).getLast hne ∈ String.utf8EncodeChar c := by
        rw [List.getLast_append_of_ne_nil _ String.utf8EncodeChar_ne_nil]
        exact List.getLast_mem _
      exact absurd (hp _ hlast) (by have := encodeChar_high (not_le.mp hc) hmem; omega)

end Utf8

namespace Utf16

def units (c : Char) : List ℕ :=
  let n := c.val.toNat
  if n < 0x10000 then [n] else [0xD800 + (n - 0x10000) / 0x400, 0xDC00 + (n - 0x10000) % 0x400]

def encode (text : List Char) : List ℕ := text.flatMap units

abbrev IsHigh (unit : ℕ) : Prop := 0xD800 ≤ unit ∧ unit ≤ 0xDBFF

abbrev IsLow (unit : ℕ) : Prop := 0xDC00 ≤ unit ∧ unit ≤ 0xDFFF

def pair (high low : ℕ) : ℕ := 0x10000 + (high - 0xD800) * 0x400 + (low - 0xDC00)

theorem units_cases (c : Char) :
    (units c = [c.val.toNat] ∧ c.val.toNat < 0x10000 ∧ ¬ IsHigh c.val.toNat ∧ ¬ IsLow c.val.toNat) ∨
      ∃ high low, units c = [high, low] ∧ IsHigh high ∧ IsLow low ∧ pair high low = c.val.toNat := by
  have hvalid := Utf8.toNat_val c
  unfold units pair
  by_cases hlow : c.val.toNat < 0x10000
  · left
    rw [if_pos hlow]
    exact ⟨rfl, hlow, by omega, by omega⟩
  · right
    rw [if_neg hlow]
    exact ⟨_, _, rfl, by omega, by omega, by omega⟩

theorem exists_char_of_unit {unit : ℕ} (h : unit < 0x10000) (hhigh : ¬ IsHigh unit) (hlow : ¬ IsLow unit) :
    ∃ c : Char, c.val.toNat = unit :=
  Utf8.exists_char (by omega)

theorem exists_char_of_pair {high low : ℕ} (hhigh : IsHigh high) (hlow : IsLow low) :
    ∃ c : Char, c.val.toNat = pair high low :=
  Utf8.exists_char (by unfold pair; omega)

theorem units_ne_nil (c : Char) : units c ≠ [] := by
  unfold units
  dsimp only
  split_ifs <;> exact List.cons_ne_nil _ _

theorem unit_lt {c : Char} {unit : ℕ} (h : unit ∈ units c) : unit < 0x10000 := by
  obtain ⟨hunits, hlt, -⟩ | ⟨high, low, hunits, hhigh, hlow, -⟩ := units_cases c
  · rw [hunits, List.mem_singleton] at h
    rwa [h]
  · rw [hunits, List.mem_cons, List.mem_singleton] at h
    omega

end Utf16
