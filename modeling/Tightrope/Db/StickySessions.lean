import Mathlib.Data.List.Sort
import Tightrope.Core.Ascii
import Tightrope.Library.FlatMap

namespace Tightrope.Db

open Bytes Tightrope.Core

structure StickySession where
  accountId : Bytes
  kind : Bytes
  updatedAtMs : ℤ
  expiresAtMs : ℤ
  deriving DecidableEq, Repr

structure ProxyStickySessionRecord where
  sessionKey : Bytes
  accountId : Bytes
  kind : Bytes
  updatedAtMs : ℤ
  expiresAtMs : ℤ
  deriving DecidableEq, Repr

abbrev StickySessionTable := FlatMap Bytes StickySession

def normalizeStickySessionKind (kind : Bytes) : Bytes :=
  let normalized := toLowerAscii (trimAscii kind)
  if normalized = ofString "prompt_cache" ∨ normalized = ofString "codex_session" ∨
    normalized = ofString "sticky_thread" then normalized
  else ofString "sticky_thread"

namespace StickySessionTable

def upsert (rows : StickySessionTable) (sessionKey accountId : Bytes) (nowMs ttlMs : ℤ) (kind : Bytes) :
    StickySessionTable :=
  if sessionKey = [] ∨ accountId = [] then rows
  else rows.insert sessionKey ⟨accountId, normalizeStickySessionKind kind, nowMs, nowMs + max 1 ttlMs⟩

def findAccount (rows : StickySessionTable) (sessionKey : Bytes) (nowMs : ℤ) : Option Bytes :=
  if sessionKey = [] then none
  else (((rows.find? sessionKey).filter fun row => nowMs < row.expiresAtMs).map (·.accountId)).filter (· ≠ [])

def purgeExpired (rows : StickySessionTable) (nowMs : ℤ) : StickySessionTable :=
  rows.filter fun _ row => nowMs < row.expiresAtMs

def purgeForAccount (rows : StickySessionTable) (accountId : Bytes) : StickySessionTable :=
  if accountId = [] then rows else rows.filter fun _ row => row.accountId ≠ accountId

def toRecord (entry : Bytes × StickySession) : ProxyStickySessionRecord :=
  ⟨entry.1, entry.2.accountId, normalizeStickySessionKind entry.2.kind, entry.2.updatedAtMs, entry.2.expiresAtMs⟩

def listedBefore (a b : Bytes × StickySession) : Bool :=
  b.2.updatedAtMs < a.2.updatedAtMs || (a.2.updatedAtMs = b.2.updatedAtMs && a.1 ≤ b.1)

def inListOrder (rows : StickySessionTable) : List (Bytes × StickySession) := rows.entries.mergeSort listedBefore

-- `LIMIT` and `OFFSET` with the casts to `std::int64_t`: a negative limit is none, a negative offset is zero.
def window {α : Type} (limit offset : Int64) (l : List α) : List α :=
  if limit < 0 then l.drop offset.toInt.toNat else (l.drop offset.toInt.toNat).take limit.toInt.toNat

def list (rows : StickySessionTable) (limit offset : UInt64) : List ProxyStickySessionRecord :=
  if limit = 0 then []
  else ((window limit.toInt64 offset.toInt64 rows.inListOrder).map toRecord).filter fun record =>
    record.sessionKey ≠ [] && record.accountId ≠ []

def Filled (rows : StickySessionTable) : Prop := ∀ key row, rows.find? key = some row → key ≠ [] ∧ row.accountId ≠ []

variable {rows : StickySessionTable} {key accountId : Bytes} {now : ℤ} {row : StickySession}

theorem filled_empty : Filled .empty := fun _ _ h => by cases h

theorem Filled.upsert (h : rows.Filled) (sessionKey accountId : Bytes) (nowMs ttlMs : ℤ) (kind : Bytes) :
    (rows.upsert sessionKey accountId nowMs ttlMs kind).Filled := by
  unfold StickySessionTable.upsert
  split_ifs with hempty
  · exact h
  · rw [not_or] at hempty
    intro key row hrow
    rw [FlatMap.find?_insert] at hrow
    split_ifs at hrow with hkey
    · obtain rfl := Option.some.inj hrow
      rw [hkey]
      exact hempty
    · exact h key row hrow

theorem Filled.filter (h : rows.Filled) (p : Bytes → StickySession → Bool) : Filled (rows.filter p) := by
  intro key row hrow
  rw [FlatMap.find?_filter] at hrow
  exact h key row (Option.filter_eq_some_iff.mp hrow).1

theorem Filled.purgeExpired (h : rows.Filled) (nowMs : ℤ) : (rows.purgeExpired nowMs).Filled := h.filter _

theorem Filled.purgeForAccount (h : rows.Filled) (accountId : Bytes) : (rows.purgeForAccount accountId).Filled := by
  unfold StickySessionTable.purgeForAccount
  split_ifs
  · exact h
  · exact h.filter _

section Pages

theorem listedBefore_iff {a b : Bytes × StickySession} : listedBefore a b = true ↔
    b.2.updatedAtMs < a.2.updatedAtMs ∨ a.2.updatedAtMs = b.2.updatedAtMs ∧ a.1 ≤ b.1 := by
  simp [listedBefore]

theorem listedBefore_trans (a b c : Bytes × StickySession) (hab : listedBefore a b = true)
    (hbc : listedBefore b c = true) : listedBefore a c = true := by
  rw [listedBefore_iff] at hab hbc ⊢
  obtain hab | ⟨hab, hkab⟩ := hab
  · exact .inl (by omega)
  · obtain hbc | ⟨hbc, hkbc⟩ := hbc
    · exact .inl (by omega)
    · exact .inr ⟨hab.trans hbc, hkab.trans hkbc⟩

theorem listedBefore_total (a b : Bytes × StickySession) : (listedBefore a b || listedBefore b a) = true := by
  rw [Bool.or_eq_true, listedBefore_iff, listedBefore_iff]
  obtain hkey | hkey := le_total a.1 b.1 <;> obtain h | h | h := lt_trichotomy a.2.updatedAtMs b.2.updatedAtMs
  · exact .inr (.inl h)
  · exact .inl (.inr ⟨h, hkey⟩)
  · exact .inl (.inl h)
  · exact .inr (.inl h)
  · exact .inr (.inr ⟨h.symm, hkey⟩)
  · exact .inl (.inl h)

theorem perm_inListOrder (rows : StickySessionTable) : rows.inListOrder.Perm rows.entries :=
  List.mergeSort_perm rows.entries listedBefore

theorem pairwise_inListOrder (rows : StickySessionTable) : rows.inListOrder.Pairwise fun a b =>
    b.2.updatedAtMs < a.2.updatedAtMs ∨ a.2.updatedAtMs = b.2.updatedAtMs ∧ a.1 < b.1 := by
  have hkeys : rows.inListOrder.Pairwise fun a b => a.1 ≠ b.1 := by
    rw [(perm_inListOrder rows).pairwise_iff fun h => h.symm]
    exact rows.sorted.imp ne_of_lt
  have hsorted := List.pairwise_mergeSort listedBefore_trans listedBefore_total rows.entries
  refine hsorted.imp₂ ?_ hkeys
  intro a b hbefore hne
  obtain h | ⟨h, hle⟩ := listedBefore_iff.mp hbefore
  · exact .inl h
  · exact .inr ⟨h, lt_of_le_of_ne hle hne⟩

theorem window_of_lt {α : Type} {limit offset : UInt64} (hlimit : limit.toNat < 2 ^ 63)
    (hoffset : offset.toNat < 2 ^ 63)
    (l : List α) : window limit.toInt64 offset.toInt64 l = (l.drop offset.toNat).take limit.toNat := by
  have hread (x : UInt64) (hx : x.toNat < 2 ^ 63) : x.toInt64.toInt = x.toNat := by
    rw [MachineWords.toInt_toInt64, if_pos hx]
  have hsigned : ¬ limit.toInt64 < 0 := by
    rw [Int64.lt_iff_toInt_lt, hread limit hlimit, Int64.toInt_zero]
    omega
  rw [window, if_neg hsigned, hread limit hlimit, hread offset hoffset, Int.toNat_natCast, Int.toNat_natCast]

theorem list_of_filled (h : rows.Filled) {limit offset : UInt64} (hpos : limit ≠ 0) (hlimit : limit.toNat < 2 ^ 63)
    (hoffset : offset.toNat < 2 ^ 63) :
    rows.list limit offset = ((rows.inListOrder.drop offset.toNat).take limit.toNat).map toRecord := by
  rw [list, if_neg hpos, window_of_lt hlimit hoffset, List.filter_eq_self]
  intro record hrecord
  obtain ⟨entry, hentry, rfl⟩ := List.mem_map.mp hrecord
  have hmem := (perm_inListOrder rows).mem_iff.mp (List.mem_of_mem_drop (List.mem_of_mem_take hentry))
  obtain ⟨hkey, haccount⟩ := h entry.1 entry.2 (FlatMap.mem_entries.mp hmem)
  simp [toRecord, hkey, haccount]

end Pages

end StickySessionTable

end Tightrope.Db
