import Mathlib.Tactic.Ring
import Tightrope.Library.WireCodec

/-!
Big-endian integers, and writers that may refuse a value together with readers that
accept exactly what they write.
-/

namespace BigEndian

open WireCodec

section Integers

def be : ℕ → ℕ → Bytes
  | 0, _ => []
  | n + 1, v => UInt8.ofNat (v / 256 ^ n) :: be n v

def unBe (bytes : Bytes) : ℕ := bytes.foldl (fun v b => 256 * v + b.toNat) 0

def readBe (n : ℕ) : Reader ℕ := fun bs => if n ≤ bs.length then some (unBe (bs.take n), bs.drop n) else none

@[simp] theorem length_be (n v : ℕ) : (be n v).length = n := by
  induction n with
  | zero => rfl
  | succ n ih => rw [be, List.length_cons, ih]

theorem foldl_be (n v start : ℕ) :
    (be n v).foldl (fun v b => 256 * v + b.toNat) start = 256 ^ n * start + v % 256 ^ n := by
  induction n generalizing start with
  | zero => simp [be, Nat.mod_one]
  | succ n ih =>
    have hbyte : (UInt8.ofNat (v / 256 ^ n)).toNat = v / 256 ^ n % 256 := rfl
    rw [be, List.foldl_cons, ih, hbyte, Nat.pow_succ, Nat.mod_mul]
    ring

theorem unBe_be {n v : ℕ} (h : v < 256 ^ n) : unBe (be n v) = v := by
  rw [unBe, foldl_be, Nat.mul_zero, Nat.zero_add, Nat.mod_eq_of_lt h]

theorem foldl_unBe (bytes : Bytes) (start : ℕ) :
    bytes.foldl (fun v b => 256 * v + b.toNat) start = 256 ^ bytes.length * start + unBe bytes := by
  induction bytes generalizing start with
  | nil => simp [unBe]
  | cons b bs ih =>
    rw [unBe, List.foldl_cons, List.foldl_cons, ih, ih (256 * 0 + b.toNat), List.length_cons, Nat.pow_succ]
    ring

theorem unBe_cons (b : UInt8) (bs : Bytes) : unBe (b :: bs) = 256 ^ bs.length * b.toNat + unBe bs := by
  rw [unBe, List.foldl_cons, foldl_unBe]
  simp

theorem unBe_lt (bytes : Bytes) : unBe bytes < 256 ^ bytes.length := by
  induction bytes with
  | nil => simp [unBe]
  | cons b bs ih =>
    have hb := b.toNat_lt
    rw [unBe_cons, List.length_cons, Nat.pow_succ]
    nlinarith

theorem be_add_mul (n v k : ℕ) : be n (256 ^ n * k + v) = be n v := by
  induction n generalizing k with
  | zero => rfl
  | succ n ih =>
    have hshift : 256 ^ (n + 1) * k + v = 256 ^ n * (256 * k) + v := by ring
    have hhead : UInt8.ofNat ((256 ^ n * (256 * k) + v) / 256 ^ n) = UInt8.ofNat (v / 256 ^ n) := by
      apply UInt8.toNat_inj.mp
      rw [UInt8.toNat_ofNat', UInt8.toNat_ofNat', Nat.mul_add_div (Nat.pow_pos (by omega))]
      omega
    rw [be, be, hshift, ih, hhead]

theorem be_unBe (bytes : Bytes) : be bytes.length (unBe bytes) = bytes := by
  induction bytes with
  | nil => rfl
  | cons b bs ih =>
    have hdiv : (256 ^ bs.length * b.toNat + unBe bs) / 256 ^ bs.length = b.toNat := by
      rw [Nat.mul_add_div (Nat.pow_pos (by omega)), Nat.div_eq_of_lt (unBe_lt bs), Nat.add_zero]
    rw [List.length_cons, unBe_cons, be, hdiv, UInt8.ofNat_toNat, be_add_mul, ih]

theorem xor_split (k a b c d : ℕ) (hb : b < 2 ^ k) (hd : d < 2 ^ k) :
    (2 ^ k * a + b) ^^^ (2 ^ k * c + d) = 2 ^ k * (a ^^^ c) + (b ^^^ d) := by
  have hdiv : ∀ x y, y < 2 ^ k → (2 ^ k * x + y) / 2 ^ k = x := by
    intro x y hy
    rw [Nat.mul_add_div (Nat.two_pow_pos k), Nat.div_eq_of_lt hy, Nat.add_zero]
  have hmod : ∀ x y, y < 2 ^ k → (2 ^ k * x + y) % 2 ^ k = y := by
    intro x y hy
    rw [Nat.mul_add_mod, Nat.mod_eq_of_lt hy]
  have hsplit := Nat.div_add_mod ((2 ^ k * a + b) ^^^ (2 ^ k * c + d)) (2 ^ k)
  rw [Nat.xor_div_two_pow, Nat.xor_mod_two_pow, hdiv a b hb, hdiv c d hd, hmod a b hb, hmod c d hd] at hsplit
  exact hsplit.symm

theorem unBe_xor {a b : Bytes} (h : a.length = b.length) :
    unBe (List.zipWith (· ^^^ ·) a b) = unBe a ^^^ unBe b := by
  induction a generalizing b with
  | nil =>
    obtain rfl : b = [] := List.length_eq_zero_iff.mp h.symm
    rfl
  | cons x xs ih =>
    cases b with
    | nil => cases h
    | cons y ys =>
      have hlength : xs.length = ys.length := Nat.succ.inj h
      have hpow : 256 ^ xs.length = 2 ^ (8 * xs.length) := by rw [Nat.pow_mul]
      have hx := unBe_lt xs
      have hy := unBe_lt ys
      rw [← hlength] at hy
      rw [hpow] at hx hy
      have hzip : (List.zipWith (· ^^^ ·) xs ys).length = xs.length := by simp [hlength]
      rw [List.zipWith_cons_cons, unBe_cons, unBe_cons, unBe_cons, ih hlength, hzip, ← hlength, hpow,
        UInt8.toNat_xor, xor_split _ _ _ _ _ hx hy]

theorem lt_iff_unBe_lt {a b : Bytes} (h : a.length = b.length) : a < b ↔ unBe a < unBe b := by
  induction a generalizing b with
  | nil =>
    obtain rfl : b = [] := List.length_eq_zero_iff.mp h.symm
    simp
  | cons x xs ih =>
    cases b with
    | nil => cases h
    | cons y ys =>
      have hlength : xs.length = ys.length := Nat.succ.inj h
      have hx := unBe_lt xs
      have hy := unBe_lt ys
      rw [List.cons_lt_cons_iff, ih hlength, unBe_cons, unBe_cons, UInt8.lt_iff_toNat_lt, ← hlength]
      rw [← hlength] at hy
      constructor
      · rintro (hlt | ⟨rfl, hlt⟩)
        · have hstep : 256 ^ xs.length * (x.toNat + 1) ≤ 256 ^ xs.length * y.toNat := Nat.mul_le_mul_left _ hlt
          rw [Nat.mul_succ] at hstep
          omega
        · omega
      · intro hlt
        obtain hxy | hxy | hxy := lt_trichotomy x.toNat y.toNat
        · exact .inl hxy
        · obtain rfl := UInt8.toNat_inj.mp hxy
          exact .inr ⟨rfl, by omega⟩
        · have hstep : 256 ^ xs.length * (y.toNat + 1) ≤ 256 ^ xs.length * x.toNat := Nat.mul_le_mul_left _ hxy
          rw [Nat.mul_succ] at hstep
          omega

theorem unBe_inj {a b : Bytes} (h : a.length = b.length) (heq : unBe a = unBe b) : a = b := by
  rw [← be_unBe a, heq, h, be_unBe]

end Integers

section Exact

structure Exact {α : Type} (write : α → Option Bytes) (read : Reader α) : Prop where
  reads : ∀ {a w}, write a = some w → Reads read w a
  canonical : ∀ {bytes a rest}, read bytes = some (a, rest) → ∃ w, write a = some w ∧ bytes = w ++ rest

variable {α β : Type} {write : α → Option Bytes} {read : Reader α} {write' : β → Option Bytes} {read' : Reader β}

def writePair (write : α → Option Bytes) (write' : β → Option Bytes) (p : α × β) : Option Bytes :=
  (write p.1).bind fun x => (write' p.2).map fun y => x ++ y

def readPair (read : Reader α) (read' : Reader β) : Reader (α × β) := read.andThen fun a => read'.map fun b => (a, b)

def writeIf (ok : α → Bool) (write : α → Option Bytes) (a : α) : Option Bytes := if ok a then write a else none

def Reader.guard (ok : α → Bool) (read : Reader α) : Reader α := fun bs =>
  (read bs).bind fun r => if ok r.1 then some r else none

theorem writePair_eq_some {p : α × β} {w : Bytes} :
    writePair write write' p = some w ↔ ∃ x y, write p.1 = some x ∧ write' p.2 = some y ∧ w = x ++ y := by
  simp only [writePair, Option.bind_eq_some_iff, Option.map_eq_some_iff]
  constructor
  · rintro ⟨x, hx, y, hy, rfl⟩
    exact ⟨x, y, hx, hy, rfl⟩
  · rintro ⟨x, y, hx, hy, rfl⟩
    exact ⟨x, hx, y, hy, rfl⟩

theorem guard_eq_some {ok : α → Bool} {bytes rest : Bytes} {a : α} :
    Reader.guard ok read bytes = some (a, rest) ↔ read bytes = some (a, rest) ∧ ok a = true := by
  rw [Reader.guard, Option.bind_eq_some_iff]
  constructor
  · rintro ⟨⟨a', rest'⟩, hr, hok⟩
    split_ifs at hok with h
    obtain ⟨rfl, rfl⟩ := Prod.mk.inj (Option.some.inj hok)
    exact ⟨hr, h⟩
  · rintro ⟨hr, hok⟩
    exact ⟨(a, rest), hr, by rw [if_pos hok]⟩

theorem exact_total {put : α → Bytes} (hreads : ∀ a, Reads read (put a) a) (hcanonical : Canonical read put) :
    Exact (fun a => some (put a)) read where
  reads := fun {a w} h => by
    obtain rfl := Option.some.inj h
    exact hreads a
  canonical := fun {bytes a rest} h => ⟨put a, rfl, hcanonical h⟩

theorem Exact.pair (h : Exact write read) (h' : Exact write' read') :
    Exact (writePair write write') (readPair read read') where
  reads := fun {p w} hw => by
    obtain ⟨x, y, hx, hy, rfl⟩ := writePair_eq_some.mp hw
    exact (h.reads hx).andThen ((h'.reads hy).map fun b => (p.1, b))
  canonical := fun {bytes p rest} hread => by
    obtain ⟨a, mid, ha, hrest⟩ := Reader.andThen_eq_some.mp hread
    obtain ⟨b, hb, rfl⟩ := Reader.map_eq_some.mp hrest
    obtain ⟨x, hx, rfl⟩ := h.canonical ha
    obtain ⟨y, hy, rfl⟩ := h'.canonical hb
    exact ⟨x ++ y, writePair_eq_some.mpr ⟨x, y, hx, hy, rfl⟩, by rw [List.append_assoc]⟩

theorem Exact.guard (ok : α → Bool) (h : Exact write read) : Exact (writeIf ok write) (Reader.guard ok read) where
  reads := fun {a w} hw rest => by
    rw [writeIf] at hw
    split_ifs at hw with hok
    exact guard_eq_some.mpr ⟨h.reads hw rest, hok⟩
  canonical := fun {bytes a rest} hread => by
    obtain ⟨hr, hok⟩ := guard_eq_some.mp hread
    obtain ⟨w, hw, hbytes⟩ := h.canonical hr
    exact ⟨w, by rw [writeIf, if_pos hok, hw], hbytes⟩

theorem Exact.map {f : α → β} {g : β → α} (hfg : ∀ a, g (f a) = a) (hgf : ∀ b, f (g b) = b) (h : Exact write read) :
    Exact (fun b => write (g b)) (read.map f) where
  reads := fun {b w} hw => by
    have hread := (h.reads hw).map f
    rwa [hgf] at hread
  canonical := fun {bytes b rest} hread => by
    obtain ⟨a, ha, rfl⟩ := Reader.map_eq_some.mp hread
    obtain ⟨w, hw, hbytes⟩ := h.canonical ha
    exact ⟨w, by rw [hfg, hw], hbytes⟩

def writeAll (write : α → Option Bytes) : List α → Option Bytes
  | [] => some []
  | x :: xs => (write x).bind fun w => (writeAll write xs).map fun ws => w ++ ws

def Writes (write : α → Option Bytes) (a : α) (n : ℕ) : Prop := ∃ w, write a = some w ∧ w.length = n

theorem Writes.pair {a : α} {b : β} {m n : ℕ} (h : Writes write a m) (h' : Writes write' b n) :
    Writes (writePair write write') (a, b) (m + n) := by
  obtain ⟨x, hx, rfl⟩ := h
  obtain ⟨y, hy, rfl⟩ := h'
  exact ⟨x ++ y, writePair_eq_some.mpr ⟨x, y, hx, hy, rfl⟩, List.length_append⟩

theorem Writes.guard {ok : α → Bool} {a : α} {n : ℕ} (h : Writes write a n) (hok : ok a = true) :
    Writes (writeIf ok write) a n := by
  rw [Writes, writeIf, if_pos hok]
  exact h

theorem writes_writeAll {size : α → ℕ} {xs : List α} (h : ∀ x ∈ xs, Writes write x (size x)) :
    Writes (writeAll write) xs (xs.map size).sum := by
  induction xs with
  | nil => exact ⟨[], rfl, rfl⟩
  | cons x xs ih =>
    obtain ⟨w, hw, hlength⟩ := h x (by simp)
    obtain ⟨ws, hws, hsum⟩ := ih fun y hy => h y (by simp [hy])
    refine ⟨w ++ ws, ?_, ?_⟩
    · rw [writeAll, hw, Option.bind_some, hws, Option.map_some]
    · rw [List.length_append, hlength, hsum, List.map_cons, List.sum_cons]

theorem reads_writeAll (h : Exact write read) {xs : List α} {w : Bytes} (hw : writeAll write xs = some w) :
    Reads (readMany read xs.length) w xs := by
  induction xs generalizing w with
  | nil =>
    obtain rfl := Option.some.inj hw
    exact fun _ => rfl
  | cons x xs ih =>
    obtain ⟨head, hhead, hrest⟩ := Option.bind_eq_some_iff.mp hw
    obtain ⟨tail, htail, rfl⟩ := Option.map_eq_some_iff.mp hrest
    apply (h.reads hhead).andThen
    exact (ih htail).map (x :: ·)

theorem canonical_writeAll (h : Exact write read) {n : ℕ} {bytes rest : Bytes} {xs : List α}
    (hread : readMany read n bytes = some (xs, rest)) :
    xs.length = n ∧ ∃ w, writeAll write xs = some w ∧ bytes = w ++ rest := by
  induction n generalizing bytes xs with
  | zero =>
    simp only [readMany, Option.some_inj, Prod.mk.injEq] at hread
    obtain ⟨rfl, rfl⟩ := hread
    exact ⟨rfl, [], rfl, rfl⟩
  | succ n ih =>
    obtain ⟨x, mid, hx, htail⟩ := Reader.andThen_eq_some.mp hread
    obtain ⟨ys, hys, rfl⟩ := Reader.map_eq_some.mp htail
    obtain ⟨head, hhead, rfl⟩ := h.canonical hx
    obtain ⟨hlength, tail, htail', rfl⟩ := ih hys
    refine ⟨by rw [List.length_cons, hlength], head ++ tail, ?_, by rw [List.append_assoc]⟩
    rw [writeAll, hhead, Option.bind_some, htail', Option.map_some]

end Exact

section Fields

variable {n : ℕ}

theorem reads_be {v : ℕ} (h : v < 256 ^ n) : Reads (readBe n) (be n v) v := by
  intro rest
  have hle : n ≤ (be n v ++ rest).length := by simp
  have htake : (be n v ++ rest).take n = be n v := List.take_left' (length_be n v)
  have hdrop : (be n v ++ rest).drop n = rest := List.drop_left' (length_be n v)
  rw [readBe, if_pos hle, htake, hdrop, unBe_be h]

theorem readBe_eq_some {bytes rest : Bytes} {v : ℕ} (h : readBe n bytes = some (v, rest)) :
    bytes = be n v ++ rest ∧ v < 256 ^ n := by
  rw [readBe, Option.ite_none_right_eq_some, Option.some_inj, Prod.mk.injEq] at h
  obtain ⟨hsize, rfl, rfl⟩ := h
  have hlength : (bytes.take n).length = n := List.length_take_of_le hsize
  have htake := be_unBe (bytes.take n)
  have hlt := unBe_lt (bytes.take n)
  rw [hlength] at htake hlt
  exact ⟨by rw [htake, List.take_append_drop], hlt⟩

def writeU16 (v : UInt16) : Bytes := be 2 v.toNat

def writeU32 (v : UInt32) : Bytes := be 4 v.toNat

def writeU64 (v : UInt64) : Bytes := be 8 v.toNat

def readU16 : Reader UInt16 := (readBe 2).map UInt16.ofNat

def readU32 : Reader UInt32 := (readBe 4).map UInt32.ofNat

def readU64 : Reader UInt64 := (readBe 8).map UInt64.ofNat

theorem exact_u8 : Exact (fun v => some (writeU8 v)) readU8 := by
  apply exact_total reads_u8
  intro bytes v rest h
  cases bytes with
  | nil => cases h
  | cons b bs =>
    obtain ⟨rfl, rfl⟩ := Prod.mk.inj (Option.some.inj h)
    rfl

theorem exact_be {W : Type} {toNat : W → ℕ} {ofNat : ℕ → W} (hlt : ∀ v, toNat v < 256 ^ n)
    (hleft : ∀ v, ofNat (toNat v) = v) (hright : ∀ m < 256 ^ n, toNat (ofNat m) = m) :
    Exact (fun v => some (be n (toNat v))) ((readBe n).map ofNat) := by
  apply exact_total
  · intro v
    have h := (reads_be (hlt v)).map ofNat
    rwa [hleft] at h
  · intro bytes v rest h
    obtain ⟨m, hm, rfl⟩ := Reader.map_eq_some.mp h
    obtain ⟨hbytes, hm'⟩ := readBe_eq_some hm
    dsimp only
    rw [hright m hm']
    exact hbytes

theorem exact_u16 : Exact (fun v => some (writeU16 v)) readU16 :=
  exact_be UInt16.toNat_lt (fun _ => UInt16.ofNat_toNat) fun _ hm => UInt16.toNat_ofNat_of_lt' hm

theorem exact_u32 : Exact (fun v => some (writeU32 v)) readU32 :=
  exact_be UInt32.toNat_lt (fun _ => UInt32.ofNat_toNat) fun _ hm => UInt32.toNat_ofNat_of_lt' hm

theorem exact_u64 : Exact (fun v => some (writeU64 v)) readU64 :=
  exact_be UInt64.toNat_lt (fun _ => UInt64.ofNat_toNat) fun _ hm => UInt64.toNat_ofNat_of_lt' hm

theorem readRaw_eq_some {bytes s rest : Bytes} (h : readRaw n bytes = some (s, rest)) :
    s.length = n ∧ bytes = s ++ rest := by
  rw [readRaw, Option.ite_none_right_eq_some, Option.some_inj, Prod.mk.injEq] at h
  obtain ⟨hsize, rfl, rfl⟩ := h
  exact ⟨List.length_take_of_le hsize, (List.take_append_drop n bytes).symm⟩

def readConstant (expected : Bytes) : Reader Unit :=
  (Reader.guard (· = expected) (readRaw expected.length)).map fun _ => ()

theorem exact_constant (expected : Bytes) : Exact (fun _ : Unit => some expected) (readConstant expected) where
  reads := fun {u w} h => by
    obtain rfl := Option.some.inj h
    intro rest
    refine Reader.map_eq_some.mpr ⟨expected, guard_eq_some.mpr ⟨reads_raw expected rest, ?_⟩, rfl⟩
    simp
  canonical := fun {bytes u rest} h => by
    obtain ⟨s, hs, -⟩ := Reader.map_eq_some.mp h
    obtain ⟨hraw, heq⟩ := guard_eq_some.mp hs
    obtain rfl : s = expected := by simpa using heq
    exact ⟨s, rfl, (readRaw_eq_some hraw).2⟩

def stringU8 (s : Bytes) : Option Bytes :=
  if s.length > 0xFF then none else some (writeU8 (UInt8.ofNat s.length) ++ s)

def stringU16 (s : Bytes) : Option Bytes :=
  if s.length > 0xFFFF then none else some (writeU16 (UInt16.ofNat s.length) ++ s)

def readStringU8 : Reader Bytes := readU8.andThen fun size => readRaw size.toNat

def readStringU16 : Reader Bytes := readU16.andThen fun size => readRaw size.toNat

theorem exact_prefixed {W : Type} {put : W → Bytes} {get : Reader W} {toNat : W → ℕ} {ofNat : ℕ → W} {limit : ℕ}
    (hsize : Exact (fun v => some (put v)) get) (hle : ∀ v, toNat v ≤ limit) (hleft : ∀ v, ofNat (toNat v) = v)
    (hright : ∀ m ≤ limit, toNat (ofNat m) = m) :
    Exact (fun s : Bytes => if s.length > limit then none else some (put (ofNat s.length) ++ s))
      (get.andThen fun size => readRaw (toNat size)) where
  reads := fun {s w} h => by
    split_ifs at h with hlong
    obtain rfl := Option.some.inj h
    apply (hsize.reads rfl).andThen
    rw [hright s.length (by omega)]
    exact reads_raw s
  canonical := fun {bytes s rest} h => by
    obtain ⟨size, mid, hget, hraw⟩ := Reader.andThen_eq_some.mp h
    obtain ⟨hlength, rfl⟩ := readRaw_eq_some hraw
    obtain ⟨w, hw, rfl⟩ := hsize.canonical hget
    obtain rfl := Option.some.inj hw
    have hshort : ¬ s.length > limit := by
      have := hle size
      omega
    refine ⟨put size ++ s, ?_, by rw [List.append_assoc]⟩
    rw [if_neg hshort, hlength, hleft]

theorem exact_stringU8 : Exact stringU8 readStringU8 :=
  exact_prefixed exact_u8 (fun v => Nat.le_of_lt_succ v.toNat_lt) (fun _ => UInt8.ofNat_toNat)
    fun _ hm => UInt8.toNat_ofNat_of_lt' (Nat.lt_succ_of_le hm)

theorem exact_stringU16 : Exact stringU16 readStringU16 :=
  exact_prefixed exact_u16 (fun v => Nat.le_of_lt_succ v.toNat_lt) (fun _ => UInt16.ofNat_toNat)
    fun _ hm => UInt16.toNat_ofNat_of_lt' (Nat.lt_succ_of_le hm)

theorem writes_stringU8 {s : Bytes} (h : s.length ≤ 0xFF) : Writes stringU8 s (1 + s.length) :=
  ⟨_, if_neg (not_lt.mpr h), by simp [writeU8, Nat.add_comm]⟩

theorem writes_stringU16 {s : Bytes} (h : s.length ≤ 0xFFFF) : Writes stringU16 s (2 + s.length) :=
  ⟨_, if_neg (not_lt.mpr h), by simp [writeU16]⟩

end Fields

section Counted

variable {α : Type} {write : α → Option Bytes} {read : Reader α} {limit : ℕ}

def writeCounted (limit : ℕ) (write : α → Option Bytes) (xs : List α) : Option Bytes :=
  if xs.length > limit then none
  else (writeAll write xs).map fun w => writeU16 (UInt16.ofNat xs.length) ++ w

def readCounted (limit : ℕ) (read : Reader α) : Reader (List α) :=
  readU16.andThen fun count => fun bs => if count.toNat > limit then none else readMany read count.toNat bs

theorem exact_counted (hlimit : limit < 2 ^ 16) (h : Exact write read) :
    Exact (writeCounted limit write) (readCounted limit read) where
  reads := fun {xs w} hw => by
    rw [writeCounted] at hw
    split_ifs at hw with hsize
    obtain ⟨body, hbody, rfl⟩ := Option.map_eq_some_iff.mp hw
    apply (exact_u16.reads rfl).andThen
    have hlength : (UInt16.ofNat xs.length).toNat = xs.length := by
      rw [UInt16.toNat_ofNat', Nat.mod_eq_of_lt (by omega)]
    intro rest
    dsimp only
    rw [hlength, if_neg hsize]
    exact reads_writeAll h hbody rest
  canonical := fun {bytes xs rest} hread => by
    obtain ⟨count, mid, hcount, hmany⟩ := Reader.andThen_eq_some.mp hread
    split_ifs at hmany with hsize
    obtain ⟨hlength, body, hbody, rfl⟩ := canonical_writeAll h hmany
    obtain ⟨w, hw, rfl⟩ := exact_u16.canonical hcount
    obtain rfl := Option.some.inj hw
    refine ⟨writeU16 count ++ body, ?_, by rw [List.append_assoc]⟩
    rw [writeCounted, if_neg (by omega), hbody, Option.map_some, hlength, UInt16.ofNat_toNat]

theorem writes_counted {size : α → ℕ} {xs : List α} (hlimit : xs.length ≤ limit)
    (h : ∀ x ∈ xs, Writes write x (size x)) : Writes (writeCounted limit write) xs (2 + (xs.map size).sum) := by
  obtain ⟨w, hw, hlength⟩ := writes_writeAll h
  refine ⟨writeU16 (UInt16.ofNat xs.length) ++ w, ?_, ?_⟩
  · rw [writeCounted, if_neg (not_lt.mpr hlimit), hw, Option.map_some]
  · rw [List.length_append, writeU16, length_be, hlength]

end Counted

end BigEndian
