import Mathlib.Data.List.Basic
import Tightrope.Library.Bytes

namespace Tightrope.Db

structure ProxyResponseContinuityRecord where
  continuityKey : Bytes
  apiKeyScope : Bytes := []
  responseId : Bytes
  accountId : Bytes := []
  recoveryInputJson : Bytes := []
  updatedAtMs : ℤ := 0
  expiresAtMs : ℤ := 0
  deriving DecidableEq

abbrev ResponseContinuityTable := List ProxyResponseContinuityRecord

namespace ProxyResponseContinuityRecord

def SamePrimaryKey (a b : ProxyResponseContinuityRecord) : Prop :=
  a.responseId = b.responseId ∧ a.apiKeyScope = b.apiKeyScope

instance : DecidableRel SamePrimaryKey := fun _ _ => inferInstanceAs (Decidable (_ ∧ _))

def update (row excluded : ProxyResponseContinuityRecord) : ProxyResponseContinuityRecord :=
  { row with
    continuityKey := excluded.continuityKey
    accountId := excluded.accountId
    recoveryInputJson := if excluded.recoveryInputJson ≠ [] then excluded.recoveryInputJson else row.recoveryInputJson
    updatedAtMs := excluded.updatedAtMs
    expiresAtMs := excluded.expiresAtMs }

end ProxyResponseContinuityRecord

namespace ResponseContinuityTable

open ProxyResponseContinuityRecord

def insertOrUpdate : ResponseContinuityTable → ProxyResponseContinuityRecord → ResponseContinuityTable
  | [], excluded => [excluded]
  | row :: rows, excluded =>
    if SamePrimaryKey row excluded then row.update excluded :: rows else row :: insertOrUpdate rows excluded

def upsert (rows : ResponseContinuityTable) (continuityKey apiKeyScope responseId accountId : Bytes) (nowMs ttlMs : ℤ)
    (recoveryInputJson : Bytes) : ResponseContinuityTable :=
  if continuityKey = [] ∨ responseId = [] then rows
  else rows.insertOrUpdate
    ⟨continuityKey, apiKeyScope, responseId, accountId, recoveryInputJson, nowMs, nowMs + max 1 ttlMs⟩

def latest : ResponseContinuityTable → Option ProxyResponseContinuityRecord
  | [] => none
  | row :: rows =>
    match latest rows with
    | none => some row
    | some best => if best.updatedAtMs < row.updatedAtMs then some row else some best

def wellFormed (record : ProxyResponseContinuityRecord) : Bool := record.continuityKey ≠ [] && record.responseId ≠ []

def find (rows : ResponseContinuityTable) (continuityKey apiKeyScope : Bytes) (nowMs : ℤ) :
    Option ProxyResponseContinuityRecord :=
  if continuityKey = [] then none
  else (latest (rows.filter fun row =>
    row.continuityKey = continuityKey && row.apiKeyScope = apiKeyScope && row.expiresAtMs > nowMs)).filter wellFormed

def findByResponseId (rows : ResponseContinuityTable) (responseId apiKeyScope : Bytes) (nowMs : ℤ) :
    Option ProxyResponseContinuityRecord :=
  if responseId = [] then none
  else (rows.find? fun row =>
    row.responseId = responseId && row.apiKeyScope = apiKeyScope && row.expiresAtMs > nowMs).filter wellFormed

def purgeExpired (rows : ResponseContinuityTable) (nowMs : ℤ) : ResponseContinuityTable :=
  rows.filter fun row => row.expiresAtMs > nowMs

def purgeForAccount (rows : ResponseContinuityTable) (accountId : Bytes) : ResponseContinuityTable :=
  if accountId = [] then rows else rows.filter fun row => row.accountId ≠ accountId

variable {rows : ResponseContinuityTable} {row excluded record : ProxyResponseContinuityRecord}
  {key scope response : Bytes} {now : ℤ}

theorem mem_insertOrUpdate (h : row ∈ rows.insertOrUpdate excluded) :
    row ∈ rows ∨ row = excluded ∨ ∃ old ∈ rows, SamePrimaryKey old excluded ∧ row = old.update excluded := by
  induction rows with
  | nil => exact .inr (.inl (List.mem_singleton.mp h))
  | cons head rows ih =>
    rw [insertOrUpdate] at h
    split_ifs at h with hsame
    · obtain rfl | hmem := List.mem_cons.mp h
      · exact .inr (.inr ⟨head, List.mem_cons_self, hsame, rfl⟩)
      · exact .inl (List.mem_cons_of_mem _ hmem)
    · obtain rfl | hmem := List.mem_cons.mp h
      · exact .inl List.mem_cons_self
      · obtain hold | hnew | ⟨old, hold, hupdate⟩ := ih hmem
        · exact .inl (List.mem_cons_of_mem _ hold)
        · exact .inr (.inl hnew)
        · exact .inr (.inr ⟨old, List.mem_cons_of_mem _ hold, hupdate⟩)

theorem mem_of_latest (h : latest rows = some record) : record ∈ rows := by
  induction rows generalizing record with
  | nil => cases h
  | cons row rows ih =>
    rw [latest] at h
    split at h
    · obtain rfl := Option.some.inj h
      exact List.mem_cons_self
    · rename_i best hbest
      split_ifs at h
      · obtain rfl := Option.some.inj h
        exact List.mem_cons_self
      · obtain rfl := Option.some.inj h
        exact List.mem_cons_of_mem _ (ih hbest)

theorem mem_of_find (h : rows.find key scope now = some record) :
    record ∈ rows ∧ record.continuityKey = key ∧ record.apiKeyScope = scope := by
  unfold find at h
  split_ifs at h
  have hmem := mem_of_latest (Option.filter_eq_some_iff.mp h).1
  simp only [List.mem_filter, Bool.and_eq_true, decide_eq_true_eq] at hmem
  obtain ⟨hrow, ⟨hkey, hscope⟩, -⟩ := hmem
  exact ⟨hrow, hkey, hscope⟩

theorem mem_of_findByResponseId (h : rows.findByResponseId response scope now = some record) :
    record ∈ rows ∧ record.responseId = response ∧ record.apiKeyScope = scope := by
  unfold findByResponseId at h
  split_ifs at h
  have hfound := (Option.filter_eq_some_iff.mp h).1
  have hsome := List.find?_some hfound
  simp only [Bool.and_eq_true, decide_eq_true_eq] at hsome
  obtain ⟨⟨hresponse, hscope⟩, -⟩ := hsome
  exact ⟨List.mem_of_find?_eq_some hfound, hresponse, hscope⟩

theorem mem_of_purgeExpired (h : row ∈ rows.purgeExpired now) : row ∈ rows := (List.mem_filter.mp h).1

theorem mem_of_purgeForAccount {account : Bytes} (h : row ∈ rows.purgeForAccount account) : row ∈ rows := by
  unfold purgeForAccount at h
  split_ifs at h
  · exact h
  · exact (List.mem_filter.mp h).1

end ResponseContinuityTable

end Tightrope.Db
