import Tightrope.Library.Fallible
import Tightrope.Proxy.Openai.PayloadNormalizer

namespace Tightrope.Proxy.Openai

open Bytes Tightrope.Core Fallible

variable {payload payload' : JsonObject} {key : Bytes}

def SameModel (payload payload' : JsonObject) : Prop := payload'.find? modelKey = payload.find? modelKey

theorem SameModel.refl (payload : JsonObject) : SameModel payload payload := rfl

theorem SameModel.trans {payload'' : JsonObject} (h : SameModel payload payload') (h' : SameModel payload' payload'') :
    SameModel payload payload'' := Eq.trans h' h

theorem SameModel.string? (h : SameModel payload payload') : payload'.string? modelKey = payload.string? modelKey := by
  rw [JsonObject.string?, JsonObject.string?, h]

theorem sameModel_set (hkey : modelKey ≠ key) (value : Json) : SameModel payload (payload.set key value) := by
  rw [SameModel, JsonObject.find?_set, if_neg hkey]

theorem sameModel_erase (hkey : modelKey ≠ key) : SameModel payload (payload.erase key) := by
  rw [SameModel, JsonObject.find?_erase, if_neg hkey]

theorem sameModel_setDefault (hkey : modelKey ≠ key) (value : Json) :
    SameModel payload (setDefault key value payload) := by
  unfold setDefault
  split_ifs
  · exact .refl payload
  · exact sameModel_set hkey value

theorem sameModel_setAlias (hkey : modelKey ≠ key) (value : Option Bytes) :
    SameModel payload (setAlias key value payload) := by
  cases value with
  | none => exact .refl payload
  | some value => exact sameModel_setDefault hkey _

theorem sameModel_setNonempty (hkey : modelKey ≠ key) (fields : JsonObject) :
    SameModel payload (setNonempty key fields payload) := by
  unfold setNonempty
  split_ifs
  · exact .refl payload
  · exact sameModel_set hkey _

theorem sameModel_foldl_erase {keys : List Bytes} (hkeys : modelKey ∉ keys) :
    SameModel payload (keys.foldl JsonObject.erase payload) := by
  induction keys generalizing payload with
  | nil => exact .refl payload
  | cons key keys ih =>
    rw [List.mem_cons, not_or] at hkeys
    obtain ⟨hkey, hkeys⟩ := hkeys
    exact (sameModel_erase hkey).trans (ih hkeys)

theorem sameModel_booleanField {default : Bool} (hkey : modelKey ≠ key)
    (h : booleanField key default payload = .ok payload') : SameModel payload payload' := by
  unfold booleanField at h
  split at h <;> cases h
  · exact sameModel_set hkey _
  · exact sameModel_set hkey _
  · exact .refl payload

theorem sameModel_normalizeInputField (h : normalizeInputField payload = .ok payload') :
    SameModel payload payload' := by
  obtain ⟨items, -, h⟩ := bind_eq_ok.mp h
  split_ifs at h
  obtain ⟨sanitized, -, h⟩ := bind_eq_ok.mp h
  cases h
  exact sameModel_set (by decide) _

theorem sameModel_normalizeInstructions : SameModel payload (normalizeInstructions payload) := by
  unfold normalizeInstructions
  split_ifs
  · exact .refl payload
  · exact sameModel_set (by decide) _

theorem normalizeRequestBaseFields_ok {compactMode : Bool}
    (h : normalizeRequestBaseFields compactMode payload = .ok payload') :
    (∃ model, model ≠ [] ∧ payload.string? modelKey = some model) ∧ SameModel payload payload' := by
  unfold normalizeRequestBaseFields at h
  split at h
  · cases h
  · cases h
  · next c rest hmodel =>
    refine ⟨⟨c :: rest, by simp, hmodel⟩, ?_⟩
    obtain ⟨first, hfirst, h⟩ := bind_eq_ok.mp h
    have hstart : SameModel payload (normalizeInstructions first) :=
      (sameModel_normalizeInputField hfirst).trans sameModel_normalizeInstructions
    split_ifs at h
    · cases h
      exact hstart.trans (sameModel_setDefault (by decide) _)
    · obtain ⟨second, hsecond, h⟩ := bind_eq_ok.mp h
      obtain ⟨third, hthird, h⟩ := bind_eq_ok.mp h
      cases h
      have htools := hstart.trans (sameModel_setDefault (by decide : modelKey ≠ ofString "tools") (.array []))
      have hinclude := htools.trans (sameModel_setDefault (by decide : modelKey ≠ ofString "include") (.array []))
      have hstore := hinclude.trans (sameModel_setDefault (by decide : modelKey ≠ ofString "store") (.boolean false))
      have hstream := hstore.trans (sameModel_booleanField (by decide) hsecond)
      have hparallel := hstream.trans (sameModel_booleanField (by decide) hthird)
      exact hparallel.trans (sameModel_setDefault (by decide) _)

theorem sameModel_normalizeOpenaiCompatibleAliases : SameModel payload (normalizeOpenaiCompatibleAliases payload) := by
  unfold normalizeOpenaiCompatibleAliases popStringField
  apply SameModel.trans _ (sameModel_setNonempty (by decide) _)
  apply SameModel.trans _ (sameModel_setNonempty (by decide) _)
  apply SameModel.trans _ (sameModel_setAlias (by decide) _)
  apply SameModel.trans _ (sameModel_setAlias (by decide) _)
  apply SameModel.trans _ (sameModel_erase (by decide))
  apply SameModel.trans _ (sameModel_erase (by decide))
  apply SameModel.trans _ (sameModel_erase (by decide))
  apply SameModel.trans _ (sameModel_erase (by decide))
  apply SameModel.trans _ (sameModel_erase (by decide))
  exact sameModel_erase (by decide)

theorem sameModel_validateAndNormalizeInclude (h : validateAndNormalizeInclude payload = .ok payload') :
    SameModel payload payload' := by
  unfold validateAndNormalizeInclude at h
  split at h
  · cases h
    exact .refl payload
  · cases h
    exact sameModel_set (by decide) _
  · split_ifs at h
    cases h
    exact .refl payload
  · cases h

theorem sameModel_validateAndNormalizeTools (h : validateAndNormalizeTools payload = .ok payload') :
    SameModel payload payload' := by
  unfold validateAndNormalizeTools at h
  split at h
  · cases h
    exact .refl payload
  · cases h
    exact sameModel_set (by decide) _
  · dsimp only at h
    split at h
    · cases h
      exact (sameModel_set (by decide) _).trans (sameModel_set (by decide) _)
    · cases h
      exact sameModel_set (by decide) _
  · cases h

theorem sameModel_normalizeTruncation : SameModel payload (normalizeTruncation payload) := by
  unfold normalizeTruncation
  split
  · exact sameModel_erase (by decide)
  · exact .refl payload

theorem sameModel_normalizePreviousResponseId (h : normalizePreviousResponseId payload = .ok payload') :
    SameModel payload payload' := by
  unfold normalizePreviousResponseId at h
  split at h
  · cases h
    exact .refl payload
  · cases h
    exact sameModel_erase (by decide)
  · split_ifs at h
    · cases h
      exact sameModel_erase (by decide)
    · cases h
      exact sameModel_set (by decide) _
  · cases h

theorem sameModel_validateAndNormalizeResponsesFields (h : validateAndNormalizeResponsesFields payload = .ok payload') :
    SameModel payload payload' := by
  obtain ⟨first, hfirst, h⟩ := bind_eq_ok.mp h
  split_ifs at h
  cases h
  exact sameModel_normalizeTruncation.trans (sameModel_normalizePreviousResponseId hfirst)

theorem sameModel_normalizeServiceTier : SameModel payload (normalizeServiceTier payload) := by
  unfold normalizeServiceTier
  split
  · exact .refl payload
  · exact sameModel_set (by decide) _

theorem normalizeFields_ok (h : normalizeFields false payload = .ok payload') :
    (∃ model, model ≠ [] ∧ payload.string? modelKey = some model) ∧ SameModel payload payload' := by
  obtain ⟨base, hbase, h⟩ := bind_eq_ok.mp h
  obtain ⟨hmodel, hsame⟩ := normalizeRequestBaseFields_ok hbase
  refine ⟨hmodel, ?_⟩
  rw [if_neg Bool.false_ne_true] at h
  obtain ⟨store, hstore, h⟩ := bind_eq_ok.mp h
  obtain ⟨included, hinclude, h⟩ := bind_eq_ok.mp h
  obtain ⟨tools, htools, h⟩ := bind_eq_ok.mp h
  obtain ⟨fields, hfields, h⟩ := bind_eq_ok.mp h
  cases h
  have haliases := hsame.trans sameModel_normalizeOpenaiCompatibleAliases
  have hstored := haliases.trans (sameModel_booleanField (by decide) hstore)
  have hincluded := hstored.trans (sameModel_validateAndNormalizeInclude hinclude)
  have htooled := hincluded.trans (sameModel_validateAndNormalizeTools htools)
  have hchecked := htooled.trans (sameModel_validateAndNormalizeResponsesFields hfields)
  exact (hchecked.trans sameModel_normalizeServiceTier).trans (sameModel_foldl_erase (by decide))

end Tightrope.Proxy.Openai
