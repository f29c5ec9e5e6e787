import Mathlib.Data.List.DropRight
import Tightrope.Library.Bytes

namespace Tightrope.Core

open Bytes

def isSpace (c : UInt8) : Bool := (9 ≤ c && c ≤ 13) || c = 32

def toLower (c : UInt8) : UInt8 := if 65 ≤ c ∧ c ≤ 90 then c + 32 else c

def toLowerAscii (value : Bytes) : Bytes := value.map toLower

def startsWith (value start : Bytes) : Bool := start.isPrefixOf value

-- `find(part) != npos`
def containsText (value part : Bytes) : Bool := value.tails.any fun tail => startsWith tail part

def trimAscii (value : Bytes) : Bytes := (value.dropWhile isSpace).rdropWhile isSpace

-- SQLite's `trim` takes off spaces only.
def sqlTrim (text : Bytes) : Bytes := (text.dropWhile (· = 32)).rdropWhile (· = 32)

-- `std::from_chars`, where a sign could only give a number that is not positive.
def parsePositiveInt64 (value : Bytes) : Option ℤ :=
  if value = [] ∨ !value.all (fun c => 48 ≤ c && c ≤ 57) then none
  else
    let parsed : ℤ := value.foldl (fun n c => n * 10 + (c.toNat - 48)) 0
    if 0 < parsed ∧ parsed < 2 ^ 63 then some parsed else none

def equalsCaseInsensitive (lhs rhs : Bytes) : Bool :=
  lhs.length = rhs.length && (lhs.zip rhs).all fun pair => toLower pair.1 = toLower pair.2

def Trimmed (value : Bytes) : Prop :=
  (∀ c, value.head? = some c → isSpace c = false) ∧ ∀ c, value.getLast? = some c → isSpace c = false

theorem head?_of_isPrefix {b c : Bytes} (h : b <+: c) (hne : b ≠ []) : b.head? = c.head? := by
  obtain ⟨tail, rfl⟩ := h
  cases b with
  | nil => exact absurd rfl hne
  | cons head rest => rfl

theorem trimmed_trimAscii (value : Bytes) : Trimmed (trimAscii value) := by
  constructor
  · intro c hc
    have hne : trimAscii value ≠ [] := by
      intro hnil
      rw [hnil] at hc
      cases hc
    rw [trimAscii, head?_of_isPrefix (List.rdropWhile_prefix isSpace _) hne] at hc
    have hhead := List.head?_dropWhile_not isSpace value
    rw [hc] at hhead
    exact hhead
  · intro c hc
    obtain ⟨hne, hlast⟩ := List.mem_getLast?_eq_getLast hc
    rw [hlast]
    exact Bool.eq_false_iff.mpr (List.rdropWhile_last_not isSpace _ hne)

theorem trimAscii_eq_self {value : Bytes} : trimAscii value = value ↔ Trimmed value := by
  constructor
  · intro h
    exact h ▸ trimmed_trimAscii value
  · rintro ⟨hhead, hlast⟩
    have hdrop : value.dropWhile isSpace = value := by
      cases value with
      | nil => rfl
      | cons c rest => exact List.dropWhile_cons_of_neg (by simp [hhead c rfl])
    rw [trimAscii, hdrop, List.rdropWhile_eq_self_iff]
    intro hne
    simp [hlast _ (List.getLast?_eq_some_getLast hne)]

instance : DecidablePred Trimmed := fun value => decidable_of_iff (trimAscii value = value) trimAscii_eq_self

@[simp] theorem trimAscii_trimAscii (value : Bytes) : trimAscii (trimAscii value) = trimAscii value :=
  trimAscii_eq_self.mpr (trimmed_trimAscii value)

theorem nulFree_trimAscii {value : Bytes} (h : NulFree value) : NulFree (trimAscii value) := by
  intro hmem
  exact h ((List.dropWhile_suffix isSpace).subset ((List.rdropWhile_prefix isSpace _).subset hmem))

theorem equalsCaseInsensitive_iff {lhs rhs : Bytes} :
    equalsCaseInsensitive lhs rhs = true ↔ toLowerAscii lhs = toLowerAscii rhs := by
  simp only [equalsCaseInsensitive, toLowerAscii, Bool.and_eq_true, decide_eq_true_eq]
  induction lhs generalizing rhs with
  | nil =>
    cases rhs with
    | nil => simp
    | cons c rest => simp
  | cons b lhs ih =>
    cases rhs with
    | nil => simp
    | cons c rest =>
      simp only [List.length_cons, Nat.add_right_cancel_iff, List.zip_cons_cons, List.all_cons, Bool.and_eq_true,
        decide_eq_true_eq, List.map_cons, List.cons.injEq]
      rw [← ih]
      tauto

theorem isSpace_toLower (c : UInt8) : isSpace (toLower c) = isSpace c := by
  unfold toLower
  split_ifs with hupper
  · obtain ⟨hge, hle⟩ := hupper
    have hlower : (c + 32).toNat = c.toNat + 32 := by
      rw [UInt8.le_iff_toNat_le] at hge hle
      rw [UInt8.toNat_add]
      simp only [UInt8.reduceToNat] at hge hle ⊢
      omega
    rw [UInt8.le_iff_toNat_le] at hge hle
    simp only [UInt8.reduceToNat] at hge hle
    have hspace : ∀ d : UInt8, 65 ≤ d.toNat → isSpace d = false := by
      intro d hd
      simp only [isSpace, UInt8.le_iff_toNat_le, ← UInt8.toNat_inj, UInt8.reduceToNat, Bool.or_eq_false_iff,
        Bool.and_eq_false_iff, decide_eq_false_iff_not]
      omega
    rw [hspace _ (by omega), hspace _ hge]
  · rfl

theorem trimmed_toLowerAscii {value : Bytes} (h : Trimmed value) : Trimmed (toLowerAscii value) := by
  constructor
  · intro c hc
    rw [toLowerAscii, List.head?_map] at hc
    obtain ⟨b, hb, rfl⟩ := Option.map_eq_some_iff.mp hc
    rw [isSpace_toLower]
    exact h.1 b hb
  · intro c hc
    rw [toLowerAscii, List.getLast?_map] at hc
    obtain ⟨b, hb, rfl⟩ := Option.map_eq_some_iff.mp hc
    rw [isSpace_toLower]
    exact h.2 b hb

theorem toLower_toLower (c : UInt8) : toLower (toLower c) = toLower c := by
  unfold toLower
  split_ifs with hupper hlower
  · obtain ⟨hge, hle⟩ := hupper
    obtain ⟨-, hle'⟩ := hlower
    rw [UInt8.le_iff_toNat_le] at hge hle hle'
    rw [UInt8.toNat_add] at hle'
    simp only [UInt8.reduceToNat] at hge hle hle'
    omega
  · rfl
  · rfl

@[simp] theorem toLowerAscii_toLowerAscii (value : Bytes) : toLowerAscii (toLowerAscii value) = toLowerAscii value := by
  simp [toLowerAscii, Function.comp_def, toLower_toLower]

end Tightrope.Core
