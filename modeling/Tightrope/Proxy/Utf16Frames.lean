import Tightrope.Library.UnicodeText
import Tightrope.Proxy.WebsocketPayload

namespace Tightrope.Proxy

open Bytes

section CodePoints

theorem mark_or (a n shift : ℕ) {i j : ℕ} (hij : j ≤ i) :
    (2 ^ i * a) ||| (n >>> shift &&& (2 ^ j - 1)) = n / 2 ^ shift % 2 ^ j + 2 ^ i * a := by
  have hlt : n / 2 ^ shift % 2 ^ j < 2 ^ i :=
    (Nat.mod_lt _ (Nat.two_pow_pos j)).trans_le (Nat.pow_le_pow_right (by decide) hij)
  rw [Nat.shiftRight_eq_div_pow, Nat.and_two_pow_sub_one_eq_mod, ← Nat.two_pow_add_eq_or_of_lt hlt, Nat.add_comm]

theorem utf8CodePoint_val (c : Char) : utf8CodePoint c.val.toNat = String.utf8EncodeChar c := by
  have hvalid := Utf8.toNat_val c
  unfold utf8CodePoint String.utf8EncodeChar
  dsimp only
  generalize c.val.toNat = n at hvalid
  have htail : 0x80 ||| (n &&& 0x3F) = n % 64 + 128 := by
    have h := mark_or 2 n 0 (i := 6) (j := 6) le_rfl
    rwa [Nat.shiftRight_zero, Nat.pow_zero, Nat.div_one] at h
  have hsix : 0x80 ||| (n >>> 6 &&& 0x3F) = n / 64 % 64 + 128 := mark_or 2 n 6 (i := 6) (j := 6) le_rfl
  have htwelve : 0x80 ||| (n >>> 12 &&& 0x3F) = n / 4096 % 64 + 128 := mark_or 2 n 12 (i := 6) (j := 6) le_rfl
  have hC0 : 0xC0 ||| (n >>> 6 &&& 0x1F) = n / 64 % 32 + 192 := mark_or 3 n 6 (i := 6) (j := 5) (by decide)
  have hE0 : 0xE0 ||| (n >>> 12 &&& 0x0F) = n / 4096 % 16 + 224 := mark_or 7 n 12 (i := 5) (j := 4) (by decide)
  have hF0 : 0xF0 ||| (n >>> 18 &&& 0x07) = n / 262144 % 8 + 240 := mark_or 15 n 18 (i := 4) (j := 3) (by decide)
  rw [htail, hsix, htwelve, hC0, hE0, hF0]
  by_cases hone : n ≤ 0x7F
  · rw [if_pos hone, if_pos hone]
  · rw [if_neg hone, if_neg hone]
    by_cases htwo : n ≤ 0x7FF
    · rw [if_pos htwo, if_pos htwo]
    · rw [if_neg htwo, if_neg htwo]
      by_cases hthree : n ≤ 0xFFFF
      · rw [if_pos hthree, if_pos hthree]
      · rw [if_neg hthree, if_neg hthree, if_pos (by omega)]

end CodePoints

section Decoding

def Endianness.bytes : Endianness → ℕ → Bytes
  | .little, unit => [UInt8.ofNat (unit % 256), UInt8.ofNat (unit / 256)]
  | .big, unit => [UInt8.ofNat (unit / 256), UInt8.ofNat (unit % 256)]

def Endianness.byteOrderMark : Endianness → Bytes
  | .little => [0xFF, 0xFE]
  | .big => [0xFE, 0xFF]

/-- A text as a frame that starts with the byte order mark. -/
def utf16Frame (endianness : Endianness) (text : List Char) : Bytes :=
  endianness.byteOrderMark ++ (Utf16.encode text).flatMap endianness.bytes

variable {endianness : Endianness} {pairs : List (UInt8 × UInt8)} {unit pending : ℕ} {decoded : Bytes}

theorem unit_lt (endianness : Endianness) (pair : UInt8 × UInt8) : endianness.unit pair < 0x10000 := by
  have hfirst := pair.1.toNat_lt
  have hsecond := pair.2.toNat_lt
  cases endianness with
  | little =>
    change pair.1.toNat + pair.2.toNat * 256 < 0x10000
    omega
  | big =>
    change pair.1.toNat * 256 + pair.2.toNat < 0x10000
    omega

theorem bytePairs_bytes (endianness : Endianness) (h : unit < 0x10000) (rest : Bytes) :
    ∃ pair, bytePairs (endianness.bytes unit ++ rest) = pair :: bytePairs rest ∧ endianness.unit pair = unit := by
  cases endianness with
  | little =>
    refine ⟨(UInt8.ofNat (unit % 256), UInt8.ofNat (unit / 256)), rfl, ?_⟩
    simp only [Endianness.unit, UInt8.toNat_ofNat']
    omega
  | big =>
    refine ⟨(UInt8.ofNat (unit / 256), UInt8.ofNat (unit % 256)), rfl, ?_⟩
    simp only [Endianness.unit, UInt8.toNat_ofNat']
    omega

theorem decodeUnits_plain {pair : UInt8 × UInt8} (hne : endianness.unit pair ≠ 0)
    (hhigh : ¬ Utf16.IsHigh (endianness.unit pair)) (hlow : ¬ Utf16.IsLow (endianness.unit pair)) :
    decodeUnits endianness 0 (pair :: pairs) =
      (decodeUnits endianness 0 pairs).map (utf8CodePoint (endianness.unit pair) ++ ·) := by
  rw [decodeUnits, if_neg hne, if_neg hhigh, if_neg hlow, if_neg (by simp)]

theorem decodeUnits_high {pair : UInt8 × UInt8} (h : Utf16.IsHigh (endianness.unit pair)) :
    decodeUnits endianness 0 (pair :: pairs) = decodeUnits endianness (endianness.unit pair) pairs := by
  have hne : endianness.unit pair ≠ 0 := by
    have := h.1
    omega
  rw [decodeUnits, if_neg hne, if_pos h, if_neg (by simp)]

theorem decodeUnits_low {pair : UInt8 × UInt8} (h : Utf16.IsLow (endianness.unit pair)) (hpending : pending ≠ 0) :
    decodeUnits endianness pending (pair :: pairs) =
      (decodeUnits endianness 0 pairs).map (utf8CodePoint (Utf16.pair pending (endianness.unit pair)) ++ ·) := by
  have hne : endianness.unit pair ≠ 0 := by
    have := h.1
    omega
  have hnot : ¬ Utf16.IsHigh (endianness.unit pair) := by
    intro hhigh
    have := h.1
    have := hhigh.2
    omega
  rw [decodeUnits, if_neg hne, if_neg hnot, if_pos h, if_neg hpending, Nat.shiftLeft_eq]
  rfl

theorem decodeUnits_char {c : Char} (hne : c.val.toNat ≠ 0) (rest : Bytes) :
    decodeUnits endianness 0 (bytePairs ((Utf16.units c).flatMap endianness.bytes ++ rest)) =
      (decodeUnits endianness 0 (bytePairs rest)).map (String.utf8EncodeChar c ++ ·) := by
  rw [← utf8CodePoint_val]
  obtain ⟨hunits, hlt, hhigh, hlow⟩ | ⟨high, low, hunits, hhigh, hlow, hpair⟩ := Utf16.units_cases c
  · rw [hunits, List.flatMap_singleton]
    obtain ⟨pair, hpairs, hunit⟩ := bytePairs_bytes endianness hlt rest
    rw [hpairs, decodeUnits_plain (by rwa [hunit]) (by rwa [hunit]) (by rwa [hunit]), hunit]
  · have hmem : high < 0x10000 ∧ low < 0x10000 := by
      constructor
      · exact Utf16.unit_lt (c := c) (by simp [hunits])
      · exact Utf16.unit_lt (c := c) (by simp [hunits])
    rw [hunits, List.flatMap_cons, List.flatMap_singleton, List.append_assoc, ← hpair]
    obtain ⟨first, hfirst, hunit⟩ := bytePairs_bytes endianness hmem.1 (endianness.bytes low ++ rest)
    obtain ⟨second, hsecond, hunit'⟩ := bytePairs_bytes endianness hmem.2 rest
    have hpending : high ≠ 0 := by
      have := hhigh.1
      omega
    rw [hfirst, hsecond, decodeUnits_high (by rwa [hunit]), hunit, decodeUnits_low (by rwa [hunit']) hpending, hunit']

theorem decodeUnits_encode {text : List Char} (h : ∀ c ∈ text, c.val.toNat ≠ 0) :
    decodeUnits endianness 0 (bytePairs ((Utf16.encode text).flatMap endianness.bytes)) = some (Utf8.encode text) := by
  induction text with
  | nil => rfl
  | cons c text ih =>
    have hrest := ih fun d hd => h d (List.mem_cons_of_mem c hd)
    rw [Utf16.encode, List.flatMap_cons, List.flatMap_append, decodeUnits_char (h c List.mem_cons_self),
      ← Utf16.encode, hrest, Option.map_some, Utf8.encode_cons]

theorem valid_decodeUnits (hpending : pending = 0 ∨ Utf16.IsHigh pending)
    (h : decodeUnits endianness pending pairs = some decoded) : Utf8.Valid decoded := by
  induction pairs generalizing pending decoded with
  | nil =>
    rw [decodeUnits] at h
    split_ifs at h
    obtain rfl := Option.some_inj.mp h
    exact Utf8.valid_nil
  | cons pair pairs ih =>
    by_cases hzero : endianness.unit pair = 0
    · rw [decodeUnits, if_pos hzero] at h
      exact ih hpending h
    · by_cases hhigh : Utf16.IsHigh (endianness.unit pair)
      · rw [decodeUnits, if_neg hzero, if_pos hhigh] at h
        split_ifs at h
        exact ih (.inr hhigh) h
      · by_cases hlow : Utf16.IsLow (endianness.unit pair)
        · obtain rfl | hpending := hpending
          · rw [decodeUnits, if_neg hzero, if_neg hhigh, if_pos hlow, if_pos rfl] at h
            cases h
          · have hne : pending ≠ 0 := by
              have := hpending.1
              omega
            rw [decodeUnits_low hlow hne] at h
            obtain ⟨rest, hrest, rfl⟩ := Option.map_eq_some_iff.mp h
            obtain ⟨c, hc⟩ := Utf16.exists_char_of_pair hpending hlow
            rw [← hc, utf8CodePoint_val]
            exact (Utf8.valid_encodeChar c).append (ih (.inl rfl) hrest)
        · obtain rfl | hpending := hpending
          · rw [decodeUnits_plain hzero hhigh hlow] at h
            obtain ⟨rest, hrest, rfl⟩ := Option.map_eq_some_iff.mp h
            obtain ⟨c, hc⟩ := Utf16.exists_char_of_unit (unit_lt endianness pair) hhigh hlow
            rw [← hc, utf8CodePoint_val]
            exact (Utf8.valid_encodeChar c).append (ih (.inl rfl) hrest)
          · have hne : pending ≠ 0 := by
              have := hpending.1
              omega
            rw [decodeUnits, if_neg hzero, if_neg hhigh, if_neg hlow, if_pos hne] at h
            cases h

end Decoding

section Frames

theorem length_flatMap_bytes (endianness : Endianness) (units : List ℕ) :
    (units.flatMap endianness.bytes).length = 2 * units.length := by
  induction units with
  | nil => rfl
  | cons unit units ih =>
    have htwo : (endianness.bytes unit).length = 2 := by cases endianness <;> rfl
    rw [List.flatMap_cons, List.length_append, htwo, ih, List.length_cons]
    omega

/-- Frames with a byte order mark decode to their text, and whatever is decoded is UTF-8. -/
theorem utf16_frames_decode :
    (∀ endianness text, text ≠ [] → (∀ c ∈ text, c.val.toNat ≠ 0) →
      tryDecodeUtf16Json (utf16Frame endianness text) = some (Utf8.encode text)) ∧
      ∀ payload decoded, tryDecodeUtf16Json payload = some decoded → Utf8.Valid decoded := by
  constructor
  · intro endianness text hne hnul
    have hlength : 0 < (Utf16.encode text).length := by
      cases text with
      | nil => exact absurd rfl hne
      | cons c text =>
        rw [Utf16.encode, List.flatMap_cons, List.length_append]
        have := List.length_pos_iff.mpr (Utf16.units_ne_nil c)
        omega
    have hsize := length_flatMap_bytes endianness (Utf16.encode text)
    have hdecode := @decodeUnits_encode endianness text hnul
    unfold tryDecodeUtf16Json utf16Frame
    cases endianness with
    | little =>
      have hcounted : ¬ ((Endianness.little.byteOrderMark ++
          (Utf16.encode text).flatMap Endianness.little.bytes).length < 4 ∨
          (Endianness.little.byteOrderMark ++ (Utf16.encode text).flatMap Endianness.little.bytes).length % 2 ≠ 0) := by
        rw [List.length_append, hsize, Endianness.byteOrderMark, List.length_cons, List.length_singleton]
        omega
      rw [if_neg hcounted]
      exact hdecode
    | big =>
      have hcounted : ¬ ((Endianness.big.byteOrderMark ++ (Utf16.encode text).flatMap Endianness.big.bytes).length < 4 ∨
          (Endianness.big.byteOrderMark ++ (Utf16.encode text).flatMap Endianness.big.bytes).length % 2 ≠ 0) := by
        rw [List.length_append, hsize, Endianness.byteOrderMark, List.length_cons, List.length_singleton]
        omega
      rw [if_neg hcounted]
      exact hdecode
  · intro payload decoded h
    unfold tryDecodeUtf16Json at h
    split_ifs at h
    split at h
    · exact valid_decodeUnits (.inl rfl) h
    · exact valid_decodeUnits (.inl rfl) h
    · obtain ⟨endianness, -, hunits⟩ := Option.bind_eq_some_iff.mp h
      exact valid_decodeUnits (.inl rfl) hunits

end Frames

end Tightrope.Proxy
