import Tightrope.Core.Ascii
import Tightrope.Library.BigEndian
import Tightrope.Library.BitGroups

namespace Tightrope.Auth.Dashboard

open Bytes Tightrope.Core BigEndian BitGroups

def kBase32Alphabet : Bytes := ofString "ABCDEFGHIJKLMNOPQRSTUVWXYZ234567"

def kTotpPeriodSeconds : ℤ := 30

section Base32

structure Repacker where
  buffer : ℕ := 0
  bitsLeft : ℕ := 0
  output : List ℕ := []
  deriving DecidableEq, Repr

def drain (size buffer : ℕ) : ℕ → ℕ → List ℕ × ℕ
  | 0, bitsLeft => ([], bitsLeft)
  | fuel + 1, bitsLeft =>
    if size ≤ bitsLeft then
      let (groups, left) := drain size buffer fuel (bitsLeft - size)
      ((buffer >>> (bitsLeft - size)) % 2 ^ size :: groups, left)
    else ([], bitsLeft)

def Repacker.push (inBits outBits : ℕ) (r : Repacker) (value : ℕ) : Repacker :=
  let buffer := (r.buffer <<< inBits ||| value) % 2 ^ 32
  let (groups, left) := drain outBits buffer (r.bitsLeft + inBits) (r.bitsLeft + inBits)
  { buffer := buffer, bitsLeft := left, output := r.output ++ groups }

def base32Encode (input : Bytes) : Bytes :=
  let r := (input.map UInt8.toNat).foldl (Repacker.push 8 5) {}
  let rest := if r.bitsLeft = 0 then [] else [(r.buffer <<< (5 - r.bitsLeft)) % 2 ^ 5]
  (r.output ++ rest).map fun index => kBase32Alphabet.getD index 0

def toUpper (c : UInt8) : UInt8 := if 97 ≤ c ∧ c ≤ 122 then c - 32 else c

def base32Index (ch : UInt8) : Option ℕ :=
  let upper := toUpper ch
  if 65 ≤ upper ∧ upper ≤ 90 then some (upper - 65).toNat
  else if 50 ≤ upper ∧ upper ≤ 55 then some (26 + (upper - 50).toNat)
  else none

def base32Decode (value : Bytes) : Option Bytes := do
  let indices ← (value.filter fun ch => !(isSpace ch || ch = 45)).mapM base32Index
  return ((indices.foldl (Repacker.push 5 8) {}).output).map UInt8.ofNat

end Base32

section Codes

variable (hmac : Bytes → Bytes → Option Bytes)

def sixDigits (otp : ℕ) : Bytes := List.replicate (6 - (decimal otp).length) 48 ++ decimal otp

def truncated (digest : Bytes) : ℕ :=
  let byteAt (i : ℕ) : ℕ := (digest.getD i 0).toNat
  let offset := byteAt 19 &&& 0x0F
  (byteAt offset &&& 0x7F) <<< 24 ||| byteAt (offset + 1) <<< 16 ||| byteAt (offset + 2) <<< 8 ||| byteAt (offset + 3)

def codeForStep (secret : Bytes) (step : ℤ) : Option Bytes :=
  if secret = [] ∨ step < 0 then none
  else (hmac secret (be 8 step.toNat)).map fun digest => sixDigits (truncated digest % 1000000)

def windowSteps (currentStep : ℤ) (window : ℕ) : List ℤ :=
  (List.range (2 * window + 1)).map fun offset => currentStep - window + offset

def verifyTotpCode (base32Secret code : Bytes) (unixTime : ℤ) (window : ℕ) (lastVerifiedStep : Option ℤ) : Option ℤ :=
  if unixTime < 0 ∨ code.length ≠ 6 then none
  else
    match base32Decode base32Secret with
    | none => none
    | some decoded =>
      (windowSteps (unixTime / kTotpPeriodSeconds) window).find? fun step =>
        0 ≤ step && lastVerifiedStep.all (· < step) && codeForStep hmac decoded step = some code

def zeroHmac : Bytes → Bytes → Option Bytes := fun _ _ => some (List.replicate 20 0)

def generateTotpSecret (random : Option Bytes) : Bytes := (random.map base32Encode).getD []

end Codes

section Uri

def isUnreserved (ch : UInt8) : Bool :=
  (48 ≤ ch && ch ≤ 57) || (65 ≤ ch && ch ≤ 90) || (97 ≤ ch && ch ≤ 122) || ch = 45 || ch = 46 || ch = 95 || ch = 126

def hexDigit (n : ℕ) : UInt8 := UInt8.ofNat (if n < 10 then 48 + n else 55 + n)

def percentEncode (value : Bytes) : Bytes :=
  value.flatMap fun ch => if isUnreserved ch then [ch] else [37, hexDigit (ch.toNat / 16), hexDigit (ch.toNat % 16)]

def buildTotpOtpauthUri (base32Secret issuer accountName : Bytes) : Bytes :=
  ofString "otpauth://totp/" ++ percentEncode issuer ++ ofString ":" ++ percentEncode accountName ++
    ofString "?secret=" ++ base32Secret ++ ofString "&issuer=" ++ percentEncode issuer

end Uri

section Repacking

theorem drain_groups {size : ℕ} (hsize : 0 < size) (buffer : ℕ) {fuel bitsLeft : ℕ} (hfuel : bitsLeft ≤ fuel) :
    (drain size buffer fuel bitsLeft).1.flatMap (bits size) ++ bits (drain size buffer fuel bitsLeft).2 buffer =
        bits bitsLeft buffer ∧
      (drain size buffer fuel bitsLeft).2 < size ∧ ∀ v ∈ (drain size buffer fuel bitsLeft).1, v < 2 ^ size := by
  induction fuel generalizing bitsLeft with
  | zero =>
    obtain rfl : bitsLeft = 0 := by omega
    exact ⟨rfl, hsize, fun v hv => absurd hv List.not_mem_nil⟩
  | succ fuel ih =>
    rw [drain]
    split_ifs with hle
    · obtain ⟨hgroups, hleft, hbound⟩ := ih (show bitsLeft - size ≤ fuel by omega)
      refine ⟨?_, hleft, ?_⟩
      · have hsplit := bits_add size (bitsLeft - size) buffer
        rw [Nat.add_sub_cancel' hle] at hsplit
        rw [List.flatMap_cons, List.append_assoc, hgroups, bits_mod (le_refl size), hsplit]
      · rw [List.forall_mem_cons]
        exact ⟨Nat.mod_lt _ (Nat.two_pow_pos size), hbound⟩
    · exact ⟨rfl, by omega, fun v hv => absurd hv List.not_mem_nil⟩

structure Repacker.Holds (inBits outBits : ℕ) (input : List ℕ) (r : Repacker) : Prop where
  bits_eq : r.output.flatMap (bits outBits) ++ bits r.bitsLeft r.buffer = input.flatMap (bits inBits)
  left_lt : r.bitsLeft < outBits
  output_lt : ∀ v ∈ r.output, v < 2 ^ outBits

variable {inBits outBits : ℕ} {input : List ℕ} {r : Repacker}

theorem Repacker.Holds.push (h : r.Holds inBits outBits input) (hsize : inBits + outBits ≤ 32) {value : ℕ}
    (hvalue : value < 2 ^ inBits) : (r.push inBits outBits value).Holds inBits outBits (input ++ [value]) := by
  obtain ⟨hbits, hleft, hbound⟩ := h
  have hout : 0 < outBits := by omega
  have hpush : r.push inBits outBits value =
      let buffer := (r.buffer <<< inBits ||| value) % 2 ^ 32
      let drained := drain outBits buffer (r.bitsLeft + inBits) (r.bitsLeft + inBits)
      { buffer := buffer, bitsLeft := drained.2, output := r.output ++ drained.1 } := rfl
  rw [hpush]
  obtain ⟨hgroups, hlt, hgroupBound⟩ := drain_groups hout ((r.buffer <<< inBits ||| value) % 2 ^ 32)
    (le_refl (r.bitsLeft + inBits))
  refine ⟨?_, hlt, ?_⟩
  · dsimp only
    -- No bit that counts is above the 32 that the buffer keeps.
    rw [bits_mod (show r.bitsLeft + inBits ≤ 32 by omega), bits_shiftLeft_or hvalue] at hgroups
    rw [List.flatMap_append, List.append_assoc, hgroups, ← List.append_assoc, hbits, List.flatMap_append,
      List.flatMap_singleton]
  · intro v hv
    obtain hv | hv := List.mem_append.mp hv
    · exact hbound v hv
    · exact hgroupBound v hv

theorem Repacker.Holds.foldl (h : r.Holds inBits outBits input) (hsize : inBits + outBits ≤ 32) {values : List ℕ}
    (hvalues : ∀ v ∈ values, v < 2 ^ inBits) :
    (values.foldl (Repacker.push inBits outBits) r).Holds inBits outBits (input ++ values) := by
  induction values generalizing r input with
  | nil => rwa [List.append_nil]
  | cons v values ih =>
    rw [List.forall_mem_cons] at hvalues
    have hstep := ih (h.push hsize hvalues.1) hvalues.2
    rwa [List.append_assoc] at hstep

theorem repacks (hout : 0 < outBits) (hsize : inBits + outBits ≤ 32) {values : List ℕ}
    (hvalues : ∀ v ∈ values, v < 2 ^ inBits) :
    (values.foldl (Repacker.push inBits outBits) {}).Holds inBits outBits values := by
  have hstart : Repacker.Holds inBits outBits [] {} := ⟨rfl, hout, fun v hv => absurd hv List.not_mem_nil⟩
  exact hstart.foldl hsize hvalues

end Repacking

section Encoding

def base32Indices (input : Bytes) : List ℕ :=
  let r := (input.map UInt8.toNat).foldl (Repacker.push 8 5) {}
  r.output ++ if r.bitsLeft = 0 then [] else [(r.buffer <<< (5 - r.bitsLeft)) % 2 ^ 5]

def base32Letter (index : ℕ) : UInt8 := kBase32Alphabet.getD index 0

theorem base32Encode_eq (input : Bytes) : base32Encode input = (base32Indices input).map base32Letter := rfl

theorem toNat_lt_of_mem {input : Bytes} {v : ℕ} (h : v ∈ input.map UInt8.toNat) : v < 2 ^ 8 := by
  obtain ⟨b, -, rfl⟩ := List.mem_map.mp h
  exact b.toNat_lt

theorem base32Indices_bits (input : Bytes) :
    (∃ fill : List Bool, fill.length < 5 ∧
      (base32Indices input).flatMap (bits 5) = (input.map UInt8.toNat).flatMap (bits 8) ++ fill) ∧
    ∀ v ∈ base32Indices input, v < 2 ^ 5 := by
  have hholds : ((input.map UInt8.toNat).foldl (Repacker.push 8 5) {}).Holds 8 5 (input.map UInt8.toNat) :=
    repacks (by decide) (by decide) fun _ hv => toNat_lt_of_mem hv
  obtain ⟨hbits, hleft, hbound⟩ := hholds
  unfold base32Indices
  generalize (input.map UInt8.toNat).foldl (Repacker.push 8 5) {} = r at hbits hleft hbound ⊢
  dsimp only
  split_ifs with hzero
  · rw [List.append_nil]
    rw [hzero, bits, List.append_nil] at hbits
    exact ⟨⟨[], by decide, by rw [hbits, List.append_nil]⟩, hbound⟩
  · refine ⟨⟨bits (5 - r.bitsLeft) 0, by rw [length_bits]; omega, ?_⟩, ?_⟩
    · have hfill := bits_shiftLeft_or (Nat.two_pow_pos (5 - r.bitsLeft)) r.bitsLeft r.buffer
      rw [Nat.or_zero, Nat.add_sub_cancel' (by omega : r.bitsLeft ≤ 5)] at hfill
      rw [List.flatMap_append, List.flatMap_singleton, bits_mod (le_refl 5), hfill, ← List.append_assoc, hbits]
    · intro v hv
      obtain hv | hv := List.mem_append.mp hv
      · exact hbound v hv
      · obtain rfl := List.mem_singleton.mp hv
        exact Nat.mod_lt _ (by decide)

theorem repack_base32Indices (input : Bytes) :
    (((base32Indices input).foldl (Repacker.push 5 8) {}).output).map UInt8.ofNat = input := by
  obtain ⟨⟨fill, hfill, hindices⟩, hbound⟩ := base32Indices_bits input
  have hholds : ((base32Indices input).foldl (Repacker.push 5 8) {}).Holds 5 8 (base32Indices input) :=
    repacks (by decide) (by decide) hbound
  obtain ⟨hbits, hleft, hout⟩ := hholds
  rw [hindices] at hbits
  have hsame := groups_unique hout (fun _ hv => toNat_lt_of_mem hv) (by rwa [length_bits]) (by omega) hbits
  rw [hsame, List.map_map]
  conv_rhs => rw [← List.map_id input]
  exact List.map_congr_left fun b _ => UInt8.ofNat_toNat

end Encoding

section Decoding

def isSeparator (ch : UInt8) : Bool := isSpace ch || ch = 45

/-- A text with separators put in at any places and letters changed to lower case. -/
inductive Respelled : Bytes → Bytes → Prop where
  | nil : Respelled [] []
  | separator {text s : Bytes} {ch : UInt8} : isSeparator ch = true → Respelled text s → Respelled text (ch :: s)
  | keep {text s : Bytes} (ch : UInt8) : Respelled text s → Respelled (ch :: text) (ch :: s)
  | lower {text s : Bytes} (ch : UInt8) : Respelled text s → Respelled (ch :: text) (toLower ch :: s)

theorem Respelled.refl (text : Bytes) : Respelled text text := by
  induction text with
  | nil => exact .nil
  | cons ch text ih => exact .keep ch ih

theorem base32Letter_reads :
    ∀ i < 2 ^ 5, (isSeparator (base32Letter i) = false ∧ base32Index (base32Letter i) = some i) ∧
      isSeparator (toLower (base32Letter i)) = false ∧ base32Index (toLower (base32Letter i)) = some i := by
  decide +kernel

def readIndices (value : Bytes) : Option (List ℕ) := (value.filter fun ch => !isSeparator ch).mapM base32Index

theorem readIndices_separator {ch : UInt8} (h : isSeparator ch = true) (s : Bytes) :
    readIndices (ch :: s) = readIndices s := by
  rw [readIndices, List.filter_cons_of_neg (by rw [h]; decide)]
  rfl

theorem readIndices_letter {ch : UInt8} {i : ℕ} (hsep : isSeparator ch = false) (hindex : base32Index ch = some i)
    {s : Bytes} {indices : List ℕ} (hs : readIndices s = some indices) :
    readIndices (ch :: s) = some (i :: indices) := by
  rw [readIndices] at hs ⊢
  rw [List.filter_cons_of_pos (by rw [hsep]; rfl), List.mapM_cons, hindex, hs]
  rfl

theorem readIndices_respelled {indices : List ℕ} (hbound : ∀ i ∈ indices, i < 2 ^ 5) {s : Bytes}
    (h : Respelled (indices.map base32Letter) s) : readIndices s = some indices := by
  generalize htext : indices.map base32Letter = text at h
  induction h generalizing indices with
  | nil =>
    obtain rfl := List.map_eq_nil_iff.mp htext
    rfl
  | separator hsep _ ih => rw [readIndices_separator hsep, ih hbound htext]
  | keep ch _ ih =>
    obtain ⟨i, indices, rfl, rfl, htail⟩ := List.map_eq_cons_iff.mp htext
    rw [List.forall_mem_cons] at hbound
    obtain ⟨hsep, hindex⟩ := (base32Letter_reads i hbound.1).1
    exact readIndices_letter hsep hindex (ih hbound.2 htail)
  | lower ch _ ih =>
    obtain ⟨i, indices, rfl, rfl, htail⟩ := List.map_eq_cons_iff.mp htext
    rw [List.forall_mem_cons] at hbound
    obtain ⟨hsep, hindex⟩ := (base32Letter_reads i hbound.1).2
    exact readIndices_letter hsep hindex (ih hbound.2 htail)

theorem base32Decode_of_readIndices {value : Bytes} {indices : List ℕ} (h : readIndices value = some indices) :
    base32Decode value = some (((indices.foldl (Repacker.push 5 8) {}).output).map UInt8.ofNat) := by
  change (readIndices value).bind _ = _
  rw [h]
  rfl

theorem base32Decode_respelled {input s : Bytes} (h : Respelled (base32Encode input) s) :
    base32Decode s = some input := by
  rw [base32Encode_eq] at h
  rw [base32Decode_of_readIndices (readIndices_respelled (base32Indices_bits input).2 h), repack_base32Indices]

/-- A secret is read back from its text, however a user spaces it and in whatever case. -/
theorem secret_survives_its_text (input : Bytes) :
    base32Decode (base32Encode input) = some input ∧
      ∀ s, Respelled (base32Encode input) s → base32Decode s = some input :=
  ⟨base32Decode_respelled (.refl _), fun _ h => base32Decode_respelled h⟩

theorem spaced_secret_survives : base32Decode (ofString "mz xW-6") = some (ofString "foo") := by
  have htext : base32Encode (ofString "foo") = [77, 90, 88, 87, 54] := by decide
  apply (secret_survives_its_text (ofString "foo")).2
  rw [htext]
  exact .lower 77 (.lower 90 (.separator (by decide) (.lower 88 (.keep 87 (.separator (by decide) (.keep 54 .nil))))))

end Decoding

end Tightrope.Auth.Dashboard
