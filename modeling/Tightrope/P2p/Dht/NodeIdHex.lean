import Tightrope.Core.Ascii
import Tightrope.P2p.Dht.NodeId
import Tightrope.Sync.Handshake

namespace Tightrope.P2p.Dht

open Bytes Sync
open Tightrope.Core (toLower toLowerAscii)

namespace NodeId

def toHex (id : NodeId) : Bytes := hexEncode id.bytes

def fromHex (hex : Bytes) : Option NodeId :=
  match hexDecode hex kBytes with
  | none => none
  | some bytes => if h : bytes.length = kBytes then some ⟨bytes, h⟩ else none

end NodeId

section Digits

theorem hexDigit_of_hexNibble {c value : UInt8} (h : hexNibble c = some value) :
    value.toNat < 16 ∧ hexDigit value = toLower c := by
  have hall := Nibbles.forall_byte
    (P := fun c => (hexNibble c).all (fun value => value.toNat < 16 ∧ hexDigit value = toLower c) = true)
    (by decide +kernel) c
  rw [h, Option.all_some] at hall
  exact of_decide_eq_true hall

theorem hexNibble_toLower (c : UInt8) : hexNibble (toLower c) = hexNibble c :=
  Nibbles.forall_byte (P := fun c => hexNibble (toLower c) = hexNibble c) (by decide +kernel) c

theorem hexNibble_hexDigit {value : UInt8} (hvalue : value.toNat < 16) : hexNibble (hexDigit value) = some value := by
  have hall : ∀ n < 16, hexNibble (hexDigit (UInt8.ofNat n)) = some (UInt8.ofNat n) := by decide
  have hdigit := hall value.toNat hvalue
  rwa [UInt8.ofNat_toNat] at hdigit

theorem hexNibble_of_toLower {c value : UInt8} (hvalue : value.toNat < 16) (h : toLower c = hexDigit value) :
    hexNibble c = some value := by
  rw [← hexNibble_toLower c, h, hexNibble_hexDigit hvalue]

end Digits

theorem hexPairs_eq_some_iff (hex bytes : Bytes) : hexPairs hex = some bytes ↔ toLowerAscii hex = hexEncode bytes := by
  induction hex using hexPairs.induct generalizing bytes with
  | case1 =>
    cases bytes with
    | nil => exact iff_of_true rfl rfl
    | cons value bytes => exact iff_of_false (fun h => by cases h) fun h => by cases h
  | case2 c =>
    cases bytes with
    | nil => exact iff_of_false (fun h => by cases h) fun h => by cases h
    | cons value bytes =>
      refine iff_of_false (fun h => by cases h) fun h => ?_
      have hlength := congrArg List.length h
      rw [length_hexEncode, toLowerAscii, List.length_map, List.length_cons, List.length_cons,
        List.length_nil] at hlength
      omega
  | case3 hi lo rest ih =>
    cases bytes with
    | nil =>
      refine iff_of_false ?_ fun h => by cases h
      intro h
      obtain ⟨_, -, h⟩ := Option.bind_eq_some_iff.mp h
      obtain ⟨_, -, h⟩ := Option.bind_eq_some_iff.mp h
      obtain ⟨_, -, h⟩ := Option.map_eq_some_iff.mp h
      cases h
    | cons value bytes =>
      have hlower : toLowerAscii (hi :: lo :: rest) = toLower hi :: toLower lo :: toLowerAscii rest := rfl
      rw [hexEncode_cons, hlower, hexPairs, List.cons.injEq, List.cons.injEq, ← ih]
      constructor
      · intro h
        obtain ⟨high, hhigh, h⟩ := Option.bind_eq_some_iff.mp h
        obtain ⟨low, hlow, h⟩ := Option.bind_eq_some_iff.mp h
        obtain ⟨out, hout, heq⟩ := Option.map_eq_some_iff.mp h
        obtain ⟨rfl, rfl⟩ := List.cons.inj heq
        obtain ⟨hhighLt, hhighDigit⟩ := hexDigit_of_hexNibble hhigh
        obtain ⟨hlowLt, hlowDigit⟩ := hexDigit_of_hexNibble hlow
        obtain ⟨hfirst, hsecond⟩ := Nibbles.split_join hhighLt hlowLt
        rw [hfirst, hsecond]
        exact ⟨hhighDigit.symm, hlowDigit.symm, hout⟩
      · rintro ⟨hhigh, hlow, hrest⟩
        rw [hexNibble_of_toLower (Nibbles.low_lt _) hhigh, hexNibble_of_toLower (Nibbles.low_lt _) hlow,
          Option.bind_some,
          Option.bind_some, hrest, Option.map_some, Nibbles.join]

/-- Exactly the texts that are the text of a node, up to the case of their letters, are read, and as that node. -/
theorem nodeId_fromHex_iff (hex : Bytes) (id : NodeId) : NodeId.fromHex hex = some id ↔
    toLowerAscii hex = id.toHex := by
  have hlength : (toLowerAscii hex).length = hex.length := List.length_map _
  constructor
  · intro h
    unfold NodeId.fromHex at h
    split at h
    · cases h
    · rename_i bytes hdecode
      split_ifs at h
      obtain rfl := Option.some.inj h
      unfold hexDecode at hdecode
      split_ifs at hdecode
      exact (hexPairs_eq_some_iff hex bytes).mp hdecode
  · intro h
    have hsize : hex.length = NodeId.kBytes * 2 := by
      rw [← hlength, h, NodeId.toHex, length_hexEncode, id.length_bytes]
    have hdecode : hexDecode hex NodeId.kBytes = some id.bytes := by
      rw [hexDecode, if_neg (not_not.mpr hsize)]
      exact (hexPairs_eq_some_iff hex id.bytes).mpr h
    rw [NodeId.fromHex, hdecode]
    exact dif_pos id.length_bytes

end Tightrope.P2p.Dht
