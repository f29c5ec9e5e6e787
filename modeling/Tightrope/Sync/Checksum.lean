import Mathlib.Data.List.Nodup
import Tightrope.Library.BitGroups
import Tightrope.Library.Bytes

namespace Tightrope.Sync

open Bytes MachineWords

def kHex : Bytes := ofString "0123456789abcdef"

def hexDigit (nibble : UInt8) : UInt8 := kHex.getD nibble.toNat 0

def hexEncode (bytes : Bytes) : Bytes :=
  bytes.flatMap fun (value : UInt8) => [hexDigit ((value >>> 4) &&& 0x0F), hexDigit (value &&& 0x0F)]

theorem hexDigit_ne_zero (value : UInt8) : hexDigit (value &&& 0x0F) ≠ 0 := by
  have hdigit : ∀ n < 16, kHex.getD n 0 ≠ 0 := by decide
  exact hdigit _ (Nibbles.low_lt value)

theorem nulFree_hexEncode (bytes : Bytes) : NulFree (hexEncode bytes) := by
  intro h
  obtain ⟨value, -, hdigit⟩ := List.mem_flatMap.mp h
  simp only [List.mem_cons, List.not_mem_nil, or_false] at hdigit
  obtain hhigh | hlow := hdigit
  · exact hexDigit_ne_zero _ hhigh.symm
  · exact hexDigit_ne_zero _ hlow.symm

def kFieldSeparator : UInt8 := 0x1F

def journalPayload (tableName rowPk op oldValues newValues : Bytes) : Bytes :=
  tableName ++ kFieldSeparator :: rowPk ++ kFieldSeparator :: op ++ kFieldSeparator :: oldValues ++
    kFieldSeparator :: newValues

section Digest

variable (sha256 : Bytes → Bytes)

def sha256Hex (input : Bytes) : Bytes := hexEncode (sha256 input)

def journalChecksum (tableName rowPk op oldValues newValues : Bytes) : Bytes :=
  sha256Hex sha256 (journalPayload tableName rowPk op oldValues newValues)

theorem nulFree_journalChecksum (tableName rowPk op oldValues newValues : Bytes) :
    NulFree (journalChecksum sha256 tableName rowPk op oldValues newValues) := nulFree_hexEncode _

end Digest

def sha256On (known : List (Bytes × Bytes)) (input : Bytes) : Bytes :=
  (known.lookup input).getD (List.replicate 33 0 ++ input)

theorem sha256On_of_mem {known : List (Bytes × Bytes)} {input : Bytes} {digest : Bytes}
    (h : known.lookup input = some digest) : sha256On known input = digest := by
  rw [sha256On, h, Option.getD_some]

theorem mem_of_lookup {known : List (Bytes × Bytes)} {input digest : Bytes}
    (h : known.lookup input = some digest) : (input, digest) ∈ known := by
  obtain ⟨l₁, l₂, rfl, -⟩ := List.lookup_eq_some_iff.mp h
  simp

theorem sha256On_injective {known : List (Bytes × Bytes)} (hsize : ∀ k ∈ known, k.2.length = 32)
    (hdistinct : (known.map Prod.snd).Nodup) : Function.Injective (sha256On known) := by
  have hlength : ∀ {x d}, known.lookup x = some d → (sha256On known x).length = 32 := by
    intro x d hx
    rw [sha256On_of_mem hx]
    exact hsize _ (mem_of_lookup hx)
  have hother : ∀ {x}, known.lookup x = none → sha256On known x = List.replicate 33 0 ++ x := by
    intro x hx
    rw [sha256On, hx, Option.getD_none]
  intro x y heq
  cases hx : known.lookup x with
  | some d =>
    cases hy : known.lookup y with
    | some d' =>
      rw [sha256On_of_mem hx, sha256On_of_mem hy] at heq
      have hpair := List.inj_on_of_nodup_map hdistinct (mem_of_lookup hx) (mem_of_lookup hy) heq
      exact congrArg Prod.fst hpair
    | none =>
      have hlen := hlength hx
      rw [heq, hother hy, List.length_append, List.length_replicate] at hlen
      omega
  | none =>
    cases hy : known.lookup y with
    | some d' =>
      have hlen := hlength hy
      rw [← heq, hother hx, List.length_append, List.length_replicate] at hlen
      omega
    | none =>
      rw [hother hx, hother hy] at heq
      exact List.append_cancel_left heq

def accountInsertDigest : Bytes :=
  [120, 29, 159, 96, 7, 97, 166, 163, 124, 44, 110, 204, 202, 207, 29, 183, 190, 161, 116, 99,
    86, 49, 27, 0, 58, 60, 152, 243, 14, 150, 41, 69]

def sampleSha256 : Bytes → Bytes :=
  sha256On [(journalPayload (ofString "accounts") (ofString "1") (ofString "INSERT") [] (ofString "\x7b\x7d"),
    accountInsertDigest)]

end Tightrope.Sync
