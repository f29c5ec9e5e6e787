import Mathlib.Data.List.Destutter
import Mathlib.Data.List.Sort
import Tightrope.Core.Ascii

namespace Tightrope.Auth.ApiKeys

open Bytes Tightrope.Core

structure StringListJson where
  read : Bytes → Option (List Bytes)
  write : List Bytes → Option Bytes

def isSupportedLimitType (limitType : Bytes) : Bool :=
  limitType = ofString "total_tokens" || limitType = ofString "input_tokens" || limitType = ofString "output_tokens" ||
    limitType = ofString "cost_usd"

def windowToPeriodSeconds (limitWindow : Bytes) : Option ℤ :=
  if limitWindow = ofString "daily" then some 86400
  else if limitWindow = ofString "weekly" then some 604800
  else if limitWindow = ofString "monthly" then some 2592000
  else none

def periodSecondsToWindow (periodSeconds : ℤ) : Option Bytes :=
  if periodSeconds = 86400 then some (ofString "daily")
  else if periodSeconds = 604800 then some (ofString "weekly")
  else if periodSeconds = 2592000 then some (ofString "monthly")
  else none

def reasoningEfforts : List Bytes := ["none", "minimal", "low", "medium", "high", "xhigh"].map ofString

def normalizeReasoningEffort (value : Bytes) : Option Bytes :=
  let normalized := toLowerAscii (trimAscii value)
  if normalized = [] then some []
  else if reasoningEfforts.contains normalized then some normalized
  else none

-- `std::unique` on the sorted names.
def normalizeAllowedModels (models : Option (List Bytes)) : List Bytes :=
  ((((models.getD []).map trimAscii).filter (· ≠ [])).insertionSort (· ≤ ·)).destutter (· ≠ ·)

def serializeAllowedModels (json : StringListJson) (models : List Bytes) : Option Bytes :=
  if models = [] then none else json.write models

def deserializeAllowedModels (json : StringListJson) (encoded : Option Bytes) : List Bytes :=
  match encoded with
  | none => []
  | some text => if text = [] then [] else (json.read text).getD []

def validateModelEnforcement (enforcedModel : Option Bytes) (allowedModels : List Bytes) : Bool :=
  match enforcedModel with
  | none => true
  | some model => model = [] || allowedModels = [] || allowedModels.contains model

section Lemmas

variable {json : StringListJson} {models : Option (List Bytes)} {model : Bytes}

theorem mem_destutter' {a b : Bytes} {names : List Bytes} :
    b ∈ names.destutter' (· ≠ ·) a ↔ b = a ∨ b ∈ names := by
  induction names generalizing a with
  | nil => simp
  | cons c names ih =>
    by_cases hne : a ≠ c
    · rw [List.destutter'_cons_pos _ hne, List.mem_cons, ih, List.mem_cons]
    · rw [List.destutter'_cons_neg _ hne, ih, List.mem_cons, not_not.mp hne]
      tauto

theorem mem_destutter {names : List Bytes} : model ∈ names.destutter (· ≠ ·) ↔ model ∈ names := by
  cases names with
  | nil => simp
  | cons name names => rw [List.destutter_cons', mem_destutter', List.mem_cons]

theorem mem_normalizeAllowedModels :
    model ∈ normalizeAllowedModels models ↔ model ≠ [] ∧ ∃ name ∈ models.getD [], trimAscii name = model := by
  rw [normalizeAllowedModels, mem_destutter, List.mem_insertionSort, List.mem_filter, List.mem_map]
  simp only [decide_eq_true_eq]
  exact and_comm

theorem sorted_normalizeAllowedModels (models : Option (List Bytes)) :
    (normalizeAllowedModels models).Pairwise (· < ·) := by
  unfold normalizeAllowedModels
  generalize ((models.getD []).map trimAscii).filter (· ≠ []) = names
  have hsorted := (List.pairwise_insertionSort (· ≤ ·) names).sublist (List.destutter_sublist (· ≠ ·) _)
  have hdistinct := List.isChain_destutter (· ≠ ·) (names.insertionSort (· ≤ ·))
  rw [← List.isChain_iff_pairwise] at hsorted ⊢
  rw [List.isChain_iff_getElem] at hsorted hdistinct ⊢
  intro i hi
  exact lt_of_le_of_ne (hsorted i hi) (hdistinct i hi)

end Lemmas

end Tightrope.Auth.ApiKeys
