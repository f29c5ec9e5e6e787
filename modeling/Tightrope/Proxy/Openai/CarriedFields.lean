import Tightrope.Proxy.Openai.NormalForm

namespace Tightrope.Proxy.Openai

open Bytes Tightrope.Core Fallible

variable {payload payload' : JsonObject}

def baseDefaultKeys : List Bytes :=
  [ofString "tools", ofString "include", ofString "store", ofString "stream", ofString "parallel_tool_calls",
    ofString "tool_choice"]

theorem normalizeRequestBaseFields_steps (h : normalizeRequestBaseFields false payload = .ok payload') :
    ∃ read, normalizeInputField payload = .ok read ∧ Touches baseDefaultKeys (normalizeInstructions read) payload' := by
  have hempty : Sound (.array []) := .array (by simp)
  have hauto : Sound (.string (ofString "auto")) := .string (Utf8.valid_of_all (by decide))
  unfold normalizeRequestBaseFields at h
  split at h
  · cases h
  · cases h
  · obtain ⟨read, hread, h⟩ := bind_eq_ok.mp h
    simp only [Bool.false_eq_true, if_false] at h
    obtain ⟨p₆, h₆, h⟩ := bind_eq_ok.mp h
    obtain ⟨p₇, h₇, h⟩ := bind_eq_ok.mp h
    cases h
    have t₃ : Touches [ofString "tools"] (normalizeInstructions read) _ :=
      touches_setDefault (Utf8.valid_of_all (by decide)) hempty
    have t₄ : Touches [ofString "include"] (setDefault (ofString "tools") (.array []) (normalizeInstructions read)) _ :=
      touches_setDefault (Utf8.valid_of_all (by decide)) hempty
    have t₅ : Touches [ofString "store"] (setDefault (ofString "include") (.array [])
        (setDefault (ofString "tools") (.array []) (normalizeInstructions read))) _ :=
      touches_setDefault (Utf8.valid_of_all (by decide)) (.boolean false)
    obtain ⟨t₆, -⟩ := booleanField_ok (Utf8.valid_of_all (by decide)) h₆
    obtain ⟨t₇, -⟩ := booleanField_ok (Utf8.valid_of_all (by decide)) h₇
    have t₈ : Touches [ofString "tool_choice"] p₇ _ :=
      touches_setDefault (Utf8.valid_of_all (by decide)) hauto
    exact ⟨read, hread, (((((t₃.trans t₄).trans t₅).trans t₆).trans t₇).trans t₈).mono (by decide)⟩

theorem find?_validateAndNormalizeTools {tools : List Json}
    (hfind : payload.find? (ofString "tools") = some (.array tools))
    (h : validateAndNormalizeTools payload = .ok payload') :
    payload'.find? (ofString "tools") = some (.array (tools.map normalizeTypeAlias)) := by
  rw [validateAndNormalizeTools, hfind] at h
  dsimp only at h
  split at h
  · cases h
    rw [JsonObject.find?_set, if_neg (by decide), JsonObject.find?_set, if_pos rfl]
  · cases h
    rw [JsonObject.find?_set, if_pos rfl]

structure Carried (payload' : JsonObject) (items : List Json) (instructions : Bytes) (tools : List Json) : Prop where
  input : ∃ sanitized, sanitizeInputItems items = .ok sanitized ∧
    payload'.find? (ofString "input") = some (.array sanitized)
  instructions : payload'.string? (ofString "instructions") = some instructions
  tools : payload'.find? (ofString "tools") = some (.array (tools.map normalizeTypeAlias))

theorem carried_normalizeFields {items tools : List Json} {instructions : Bytes} (hsound : SoundObject payload)
    (hinput : payload.find? (ofString "input") = some (.array items))
    (hinstructions : payload.string? (ofString "instructions") = some instructions)
    (htools : (payload.find? (ofString "tools")).getD (.array []) = .array tools)
    (h : normalizeFields false payload = .ok payload') : Carried payload' items instructions tools := by
  obtain ⟨p₁, h₁, h⟩ := bind_eq_ok.mp h
  have base := baseFields_of_ok hsound h₁
  have hsound₁ := base.touches.sound hsound
  obtain ⟨read, hread, t₁⟩ := normalizeRequestBaseFields_steps h₁
  obtain ⟨t₂, -⟩ := normalizeOpenaiCompatibleAliases_ok hsound₁
  simp only [Bool.false_eq_true, if_false] at h
  obtain ⟨p₃, h₃, h⟩ := bind_eq_ok.mp h
  obtain ⟨t₃, -⟩ := booleanField_ok (Utf8.valid_of_all (by decide)) h₃
  obtain ⟨p₄, h₄, h⟩ := bind_eq_ok.mp h
  obtain ⟨p₅, h₅, h⟩ := bind_eq_ok.mp h
  obtain ⟨p₆, h₆, h⟩ := bind_eq_ok.mp h
  cases h
  obtain ⟨t₄, -⟩ := validateAndNormalizeInclude_ok (by rw [(t₂.trans t₃).kept _ (by decide)]; exact base.include') h₄
  have early := (t₂.trans t₃).trans t₄
  have hsound₄ := early.sound hsound₁
  have htools₄ : p₄.find? (ofString "tools") = some (.array tools) := by
    rw [early.kept _ (by decide), base.tools, htools]
  have hchoice₄ : (p₄.find? (ofString "tool_choice")).isSome := by
    rw [early.kept _ (by decide), base.choice]
    rfl
  have hnull : ¬ ChoosesWithoutTools p₄ := by
    rintro ⟨hnull, -⟩
    rw [htools₄] at hnull
    cases hnull
  obtain ⟨t₅, -, -⟩ := validateAndNormalizeTools_ok hsound₄ (by rw [htools₄]; rfl) hchoice₄ hnull h₅
  have hsound₅ := t₅.sound hsound₄
  obtain ⟨t₆, -, -, -⟩ := validateAndNormalizeResponsesFields_ok hsound₅ h₆
  obtain ⟨t₇, -⟩ := normalizeServiceTier_ok (t₆.sound hsound₅)
  have t₈ : Touches _ (normalizeServiceTier p₆) _ := touches_foldl_erase kUnsupportedUpstreamFields
  have late := (t₆.trans t₇).trans t₈
  have all := (t₁.trans (early.trans t₅)).trans late
  obtain ⟨found, hfound, hread⟩ := bind_eq_ok.mp hread
  rw [inputItems, hinput] at hfound
  cases hfound
  split_ifs at hread with hfile
  obtain ⟨sanitized, hsanitized, hread⟩ := bind_eq_ok.mp hread
  cases hread
  have hheld : (payload.set (ofString "input") (.array sanitized)).string? (ofString "instructions") =
      some instructions := by
    rw [JsonObject.string?, JsonObject.find?_set, if_neg (by decide)]
    exact hinstructions
  have hkept : normalizeInstructions (payload.set (ofString "input") (.array sanitized)) =
      payload.set (ofString "input") (.array sanitized) := by
    rw [normalizeInstructions, hheld]
    rfl
  rw [hkept] at all
  refine ⟨⟨sanitized, hsanitized, ?_⟩, ?_, ?_⟩
  · rw [all.kept _ (by decide), JsonObject.find?_set, if_pos rfl]
  · rw [all.string? (by decide), hheld]
  · rw [late.kept _ (by decide)]
    exact find?_validateAndNormalizeTools htools₄ h₅

end Tightrope.Proxy.Openai
