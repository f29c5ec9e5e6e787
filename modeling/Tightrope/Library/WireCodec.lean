import Mathlib.Data.List.Infix
import Tightrope.Library.Bytes

/-!
Little-endian integers, length-prefixed strings and counted sequences over byte
strings, each reader undoing its writer in front of any further input, and each
accepted input being what the writer puts down for the value read.
Frames read one after another off a byte stream: what has been read stays read when
more bytes arrive, so it is the same wherever the stream is cut.
-/

namespace WireCodec

abbrev Reader (α : Type) := Bytes → Option (α × Bytes)

def Reads {α : Type} (read : Reader α) (bytes : Bytes) (a : α) : Prop := ∀ rest, read (bytes ++ rest) = some (a, rest)

def Reader.andThen {α β : Type} (read : Reader α) (next : α → Reader β) : Reader β := fun bs =>
  (read bs).bind fun r => next r.1 r.2

def Reader.map {α β : Type} (f : α → β) (read : Reader α) : Reader β := fun bs =>
  (read bs).map fun r => (f r.1, r.2)

theorem Reads.andThen {α β : Type} {read : Reader α} {next : α → Reader β} {bytes bytes' : Bytes} {a : α} {b : β}
    (h : Reads read bytes a) (h' : Reads (next a) bytes' b) : Reads (read.andThen next) (bytes ++ bytes') b := by
  intro rest
  rw [Reader.andThen, List.append_assoc, h, Option.bind_some, h']

theorem Reads.map {α β : Type} {read : Reader α} {bytes : Bytes} {a : α} (f : α → β) (h : Reads read bytes a) :
    Reads (Reader.map f read) bytes (f a) := by
  intro rest
  rw [Reader.map, h, Option.map_some]

theorem Reads.append_inj {α : Type} {read : Reader α} {x y r s : Bytes} {a b : α} (hx : Reads read x a)
    (hy : Reads read y b) (h : x ++ r = y ++ s) : a = b ∧ r = s := by
  have heq := hx r
  rw [h, hy s, Option.some_inj, Prod.mk.injEq] at heq
  exact ⟨heq.1.symm, heq.2.symm⟩

def le : ℕ → ℕ → Bytes
  | 0, _ => []
  | n + 1, v => UInt8.ofNat v :: le n (v / 256)

def unLe : Bytes → ℕ
  | [] => 0
  | b :: bs => b.toNat + 256 * unLe bs

def readLe (n : ℕ) : Reader ℕ := fun bs => if n ≤ bs.length then some (unLe (bs.take n), bs.drop n) else none

@[simp] theorem length_le (n v : ℕ) : (le n v).length = n := by
  induction n generalizing v with
  | zero => rfl
  | succ n ih => simp [le, ih]

theorem unLe_le {n v : ℕ} (h : v < 256 ^ n) : unLe (le n v) = v := by
  induction n generalizing v with
  | zero =>
    have hzero : v = 0 := by simpa using h
    simp [le, unLe, hzero]
  | succ n ih =>
    have hdiv : v / 256 < 256 ^ n := by
      rw [Nat.div_lt_iff_lt_mul (by omega)]
      rwa [Nat.pow_succ] at h
    have hbyte : (UInt8.ofNat v).toNat = v % 256 := rfl
    rw [le, unLe, ih hdiv, hbyte]
    omega

theorem reads_le {n v : ℕ} (h : v < 256 ^ n) : Reads (readLe n) (le n v) v := by
  intro rest
  have hle : n ≤ (le n v ++ rest).length := by simp
  have htake : (le n v ++ rest).take n = le n v := List.take_left' (length_le n v)
  have hdrop : (le n v ++ rest).drop n = rest := List.drop_left' (length_le n v)
  rw [readLe, if_pos hle, htake, hdrop, unLe_le h]

def writeU8 (v : UInt8) : Bytes := [v]

def writeU32 (v : UInt32) : Bytes := le 4 v.toNat

def writeU64 (v : UInt64) : Bytes := le 8 v.toNat

def writeI32 (v : Int32) : Bytes := writeU32 v.toUInt32

def writeString (s : Bytes) : Bytes := if s.length > 2 ^ 32 - 1 then [] else writeU32 (UInt32.ofNat s.length) ++ s

def readU8 : Reader UInt8
  | [] => none
  | b :: bs => some (b, bs)

def readU32 : Reader UInt32 := (readLe 4).map UInt32.ofNat

def readU64 : Reader UInt64 := (readLe 8).map UInt64.ofNat

def readI32 : Reader Int32 := readU32.map UInt32.toInt32

def readRaw (n : ℕ) : Reader Bytes := fun bs => if n ≤ bs.length then some (bs.take n, bs.drop n) else none

def readString : Reader Bytes := readU32.andThen fun size => readRaw size.toNat

def readMany {α : Type} (read : Reader α) : ℕ → Reader (List α)
  | 0 => fun bs => some ([], bs)
  | n + 1 => read.andThen fun a => (readMany read n).map (a :: ·)

theorem reads_u8 (v : UInt8) : Reads readU8 (writeU8 v) v := fun _ => rfl

theorem reads_u32 (v : UInt32) : Reads readU32 (writeU32 v) v := by
  have hlt : v.toNat < 256 ^ 4 := by
    have := v.toNat_lt
    omega
  have h := (reads_le hlt).map UInt32.ofNat
  rwa [UInt32.ofNat_toNat] at h

theorem reads_u64 (v : UInt64) : Reads readU64 (writeU64 v) v := by
  have hlt : v.toNat < 256 ^ 8 := by
    have := v.toNat_lt
    omega
  have h := (reads_le hlt).map UInt64.ofNat
  rwa [UInt64.ofNat_toNat] at h

theorem reads_i32 (v : Int32) : Reads readI32 (writeI32 v) v := by
  have h := (reads_u32 v.toUInt32).map UInt32.toInt32
  rwa [Int32.toInt32_toUInt32] at h

theorem reads_raw (s : Bytes) : Reads (readRaw s.length) s s := by
  intro rest
  simp [readRaw]

theorem toNat_ofNat_size {n : ℕ} (h : n < 2 ^ 32) : (UInt32.ofNat n).toNat = n := by
  rw [UInt32.toNat_ofNat']
  exact Nat.mod_eq_of_lt h

theorem reads_string {s : Bytes} (h : s.length < 2 ^ 32) : Reads readString (writeString s) s := by
  have hnot : ¬ s.length > 2 ^ 32 - 1 := by omega
  rw [writeString, if_neg hnot]
  apply (reads_u32 _).andThen
  rw [toNat_ofNat_size h]
  exact reads_raw s

theorem writeString_of_long {s : Bytes} (h : 2 ^ 32 ≤ s.length) : writeString s = [] := by
  rw [writeString, if_pos (by omega)]

theorem writeString_inj {s t : Bytes} (hfits : s.length < 2 ^ 32 ∨ t.length < 2 ^ 32)
    (h : writeString s = writeString t) : s = t := by
  have hprefix : ∀ u : Bytes, u.length < 2 ^ 32 → writeString u ≠ [] := by
    intro u hu hnil
    have hread := reads_string hu []
    rw [hnil] at hread
    cases hread
  have hs : s.length < 2 ^ 32 := by
    by_contra hlong
    rw [writeString_of_long (not_lt.mp hlong)] at h
    exact hprefix t (hfits.resolve_left hlong) h.symm
  have ht : t.length < 2 ^ 32 := by
    by_contra hlong
    rw [writeString_of_long (not_lt.mp hlong)] at h
    exact hprefix s hs h
  exact ((reads_string hs).append_inj (reads_string ht) (congrArg (· ++ []) h)).1

theorem reads_many {α : Type} {read : Reader α} {write : α → Bytes} {xs : List α}
    (h : ∀ x ∈ xs, Reads read (write x) x) : Reads (readMany read xs.length) (xs.flatMap write) xs := by
  induction xs with
  | nil => exact fun _ => rfl
  | cons x xs ih =>
    rw [List.length_cons, List.flatMap_cons]
    apply (h x (by simp)).andThen
    exact (ih fun y hy => h y (by simp [hy])).map (x :: ·)

def Canonical {α : Type} (read : Reader α) (write : α → Bytes) : Prop :=
  ∀ ⦃bytes a rest⦄, read bytes = some (a, rest) → bytes = write a ++ rest

theorem Reader.andThen_eq_some {α β : Type} {read : Reader α} {next : α → Reader β} {bytes rest : Bytes} {b : β} :
    read.andThen next bytes = some (b, rest) ↔ ∃ a mid, read bytes = some (a, mid) ∧ next a mid = some (b, rest) := by
  rw [Reader.andThen, Option.bind_eq_some_iff]
  exact ⟨fun ⟨r, hr, hn⟩ => ⟨r.1, r.2, hr, hn⟩, fun ⟨a, mid, hr, hn⟩ => ⟨(a, mid), hr, hn⟩⟩

theorem Reader.map_eq_some {α β : Type} {f : α → β} {read : Reader α} {bytes rest : Bytes} {b : β} :
    Reader.map f read bytes = some (b, rest) ↔ ∃ a, read bytes = some (a, rest) ∧ f a = b := by
  simp only [Reader.map, Option.map_eq_some_iff, Prod.exists, Prod.mk.injEq]
  constructor
  · rintro ⟨a, mid, hr, hb, rfl⟩
    exact ⟨a, hr, hb⟩
  · rintro ⟨a, hr, hb⟩
    exact ⟨a, rest, hr, hb, rfl⟩

theorem le_unLe (bytes : Bytes) : le bytes.length (unLe bytes) = bytes := by
  induction bytes with
  | nil => rfl
  | cons b bs ih =>
    have hb := b.toNat_lt
    have hdiv : (b.toNat + 256 * unLe bs) / 256 = unLe bs := by omega
    have hbyte : UInt8.ofNat (b.toNat + 256 * unLe bs) = b := by
      apply UInt8.toNat_inj.mp
      rw [UInt8.toNat_ofNat']
      omega
    rw [List.length_cons, unLe, le, hdiv, hbyte, ih]

theorem unLe_lt (bytes : Bytes) : unLe bytes < 256 ^ bytes.length := by
  induction bytes with
  | nil => simp [unLe]
  | cons b bs ih =>
    have hb := b.toNat_lt
    rw [List.length_cons, unLe, Nat.pow_succ]
    omega

theorem canonical_le (n : ℕ) : Canonical (readLe n) (le n) := by
  intro bytes v rest h
  rw [readLe, Option.ite_none_right_eq_some, Option.some_inj, Prod.mk.injEq] at h
  obtain ⟨hsize, rfl, rfl⟩ := h
  have hlength : (bytes.take n).length = n := List.length_take_of_le hsize
  have htake := le_unLe (bytes.take n)
  rw [hlength] at htake
  rw [htake, List.take_append_drop]

theorem readLe_lt {n v : ℕ} {bytes rest : Bytes} (h : readLe n bytes = some (v, rest)) : v < 256 ^ n := by
  rw [readLe, Option.ite_none_right_eq_some, Option.some_inj, Prod.mk.injEq] at h
  obtain ⟨hsize, rfl, rfl⟩ := h
  have hlt := unLe_lt (bytes.take n)
  rwa [List.length_take_of_le hsize] at hlt

theorem canonical_u32 : Canonical readU32 writeU32 := by
  intro bytes v rest h
  obtain ⟨n, hn, rfl⟩ := Reader.map_eq_some.mp h
  have hlt : n < 2 ^ 32 := readLe_lt hn
  rw [writeU32, UInt32.toNat_ofNat', Nat.mod_eq_of_lt hlt]
  exact canonical_le 4 hn

theorem canonical_u64 : Canonical readU64 writeU64 := by
  intro bytes v rest h
  obtain ⟨n, hn, rfl⟩ := Reader.map_eq_some.mp h
  have hlt : n < 2 ^ 64 := readLe_lt hn
  rw [writeU64, UInt64.toNat_ofNat', Nat.mod_eq_of_lt hlt]
  exact canonical_le 8 hn

theorem canonical_i32 : Canonical readI32 writeI32 := by
  intro bytes v rest h
  obtain ⟨n, hn, rfl⟩ := Reader.map_eq_some.mp h
  rw [writeI32, UInt32.toUInt32_toInt32]
  exact canonical_u32 hn

theorem readString_eq_some {bytes s rest : Bytes} (h : readString bytes = some (s, rest)) :
    bytes = writeString s ++ rest ∧ s.length < 2 ^ 32 := by
  obtain ⟨size, mid, hsize, hraw⟩ := Reader.andThen_eq_some.mp h
  rw [readRaw, Option.ite_none_right_eq_some, Option.some_inj, Prod.mk.injEq] at hraw
  obtain ⟨hle, rfl, rfl⟩ := hraw
  have hlength : (mid.take size.toNat).length = size.toNat := List.length_take_of_le hle
  have hlt : (mid.take size.toNat).length < 2 ^ 32 := by
    rw [hlength]
    exact size.toNat_lt
  have hnot : ¬ (mid.take size.toNat).length > 2 ^ 32 - 1 := by omega
  refine ⟨?_, hlt⟩
  rw [writeString, if_neg hnot, hlength, UInt32.ofNat_toNat, List.append_assoc, List.take_append_drop]
  exact canonical_u32 hsize

theorem canonical_many {α : Type} {read : Reader α} {write : α → Bytes} (h : Canonical read write) (n : ℕ) :
    Canonical (readMany read n) (List.flatMap write) := by
  induction n with
  | zero =>
    intro bytes xs rest hread
    simp only [readMany, Option.some_inj, Prod.mk.injEq] at hread
    obtain ⟨rfl, rfl⟩ := hread
    rfl
  | succ n ih =>
    intro bytes xs rest hread
    obtain ⟨x, mid, hx, htail⟩ := Reader.andThen_eq_some.mp hread
    obtain ⟨ys, hys, rfl⟩ := Reader.map_eq_some.mp htail
    rw [List.flatMap_cons, List.append_assoc, ← ih hys]
    exact h hx

theorem readMany_forall {α : Type} {read : Reader α} {P : α → Prop}
    (h : ∀ bytes a rest, read bytes = some (a, rest) → P a) {n : ℕ} {bytes : Bytes} {xs : List α} {rest : Bytes}
    (hread : readMany read n bytes = some (xs, rest)) : xs.length = n ∧ ∀ x ∈ xs, P x := by
  induction n generalizing bytes xs rest with
  | zero =>
    simp only [readMany, Option.some_inj, Prod.mk.injEq] at hread
    obtain ⟨rfl, rfl⟩ := hread
    simp
  | succ n ih =>
    obtain ⟨x, mid, hx, htail⟩ := Reader.andThen_eq_some.mp hread
    obtain ⟨ys, hys, rfl⟩ := Reader.map_eq_some.mp htail
    obtain ⟨hlength, hall⟩ := ih hys
    refine ⟨by rw [List.length_cons, hlength], ?_⟩
    intro y hy
    obtain rfl | hmem := List.mem_cons.mp hy
    · exact h _ _ _ hx
    · exact hall y hmem

end WireCodec

namespace Framing

open WireCodec

variable {α : Type} (read : Reader α)

structure Streaming : Prop where
  extend : ∀ {bytes a rest}, read bytes = some (a, rest) → ∀ more, read (bytes ++ more) = some (a, rest ++ more)
  consume : ∀ {bytes a rest}, read bytes = some (a, rest) → rest.length < bytes.length

inductive Decodes : Bytes → List α → Bytes → Prop
  | nil (bytes : Bytes) : Decodes bytes [] bytes
  | cons {bytes rest end_ : Bytes} {a : α} {as : List α} (h : read bytes = some (a, rest))
      (htail : Decodes rest as end_) : Decodes bytes (a :: as) end_

def readUpTo : ℕ → Bytes → List α × Bytes
  | 0, bytes => ([], bytes)
  | n + 1, bytes =>
    match read bytes with
    | none => ([], bytes)
    | some (a, rest) => (a :: (readUpTo n rest).1, (readUpTo n rest).2)

def readAll (bytes : Bytes) : List α × Bytes := readUpTo read bytes.length bytes

variable {read}

theorem Decodes.trans {bytes mid end_ : Bytes} {as bs : List α} (h : Decodes read bytes as mid)
    (h' : Decodes read mid bs end_) : Decodes read bytes (as ++ bs) end_ := by
  induction h with
  | nil bytes => exact h'
  | cons h htail ih => exact .cons h (ih h')

theorem Decodes.extend {bytes end_ : Bytes} {as : List α} (hread : Streaming read) (h : Decodes read bytes as end_)
    (more : Bytes) : Decodes read (bytes ++ more) as (end_ ++ more) := by
  induction h with
  | nil bytes => exact .nil _
  | cons h htail ih => exact .cons (hread.extend h more) ih

theorem Decodes.readUpTo_eq {bytes end_ : Bytes} {as : List α} (hread : Streaming read) (h : Decodes read bytes as end_)
    {n : ℕ} (hn : bytes.length ≤ n) : ∃ m, end_.length ≤ m ∧
      readUpTo read n bytes = (as ++ (readUpTo read m end_).1, (readUpTo read m end_).2) := by
  induction h generalizing n with
  | nil bytes => exact ⟨n, hn, rfl⟩
  | @cons bytes rest end_ a as h htail ih =>
    have hlt := hread.consume h
    obtain ⟨n, rfl⟩ : ∃ k, n = k + 1 := ⟨n - 1, by omega⟩
    obtain ⟨m, hm, heq⟩ := ih (n := n) (by omega)
    refine ⟨m, hm, ?_⟩
    simp only [readUpTo, h, heq, List.cons_append]

theorem Decodes.isPrefix {bytes end_ : Bytes} {as : List α} (hread : Streaming read) (h : Decodes read bytes as end_) :
    as <+: (readAll read bytes).1 := by
  obtain ⟨m, -, heq⟩ := h.readUpTo_eq hread le_rfl
  rw [readAll, heq]
  exact List.prefix_append _ _

theorem Decodes.forall_mem {P : α → Prop} (hread : ∀ bytes a rest, read bytes = some (a, rest) → P a)
    {bytes end_ : Bytes} {as : List α} (h : Decodes read bytes as end_) : ∀ a ∈ as, P a := by
  induction h with
  | nil bytes => simp
  | cons h htail ih =>
    intro b hb
    obtain rfl | hmem := List.mem_cons.mp hb
    · exact hread _ _ _ h
    · exact ih b hmem

end Framing
