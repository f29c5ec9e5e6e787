import Tightrope.Proxy.Openai.InputNormalForm

namespace Tightrope.Proxy.Openai

open Bytes Tightrope.Core Fallible

section Touches

structure TouchesOver (P : Bytes → Prop) (keys : List Bytes) (payload payload' : JsonObject) : Prop where
  kept : ∀ key ∉ keys, payload'.find? key = payload.find? key
  sound : SoundObjectOver P payload → SoundObjectOver P payload'

abbrev Touches : List Bytes → JsonObject → JsonObject → Prop := TouchesOver Utf8.Valid

variable {P : Bytes → Prop} {payload payload' payload'' : JsonObject} {keys keys' : List Bytes} {key : Bytes}
  {value : Json}

theorem TouchesOver.refl (payload : JsonObject) : TouchesOver P [] payload payload := ⟨fun _ _ => rfl, id⟩

theorem TouchesOver.trans (h : TouchesOver P keys payload payload') (h' : TouchesOver P keys' payload' payload'') :
    TouchesOver P (keys ++ keys') payload payload'' := by
  refine ⟨fun key hkey => ?_, fun hsound => h'.sound (h.sound hsound)⟩
  rw [List.mem_append, not_or] at hkey
  rw [h'.kept key hkey.2, h.kept key hkey.1]

theorem TouchesOver.mono (h : TouchesOver P keys payload payload') (hsub : ∀ key ∈ keys, key ∈ keys') :
    TouchesOver P keys' payload payload' :=
  ⟨fun key hkey => h.kept key fun hmem => hkey (hsub key hmem), h.sound⟩

theorem TouchesOver.string? (h : TouchesOver P keys payload payload') (hkey : key ∉ keys) :
    payload'.string? key = payload.string? key := by
  rw [JsonObject.string?, JsonObject.string?, h.kept key hkey]

theorem touches_set (hkey : P key) (hvalue : SoundObjectOver P payload → SoundOver P value) :
    TouchesOver P [key] payload (payload.set key value) := by
  refine ⟨fun other hother => ?_, fun hsound => hsound.set hkey (hvalue hsound)⟩
  rw [JsonObject.find?_set, if_neg (by simpa using hother)]

theorem touches_erase (key : Bytes) : TouchesOver P [key] payload (payload.erase key) := by
  refine ⟨fun other hother => ?_, fun hsound => hsound.erase key⟩
  rw [JsonObject.find?_erase, if_neg (by simpa using hother)]

theorem touches_foldl_erase (keys : List Bytes) : TouchesOver P keys payload (keys.foldl JsonObject.erase payload) := by
  refine ⟨fun key hkey => ?_, fun hsound => hsound.foldl_erase keys⟩
  rw [find?_foldl_erase, if_neg hkey]

theorem touches_setDefault (hkey : P key) (hvalue : SoundOver P value) :
    TouchesOver P [key] payload (setDefault key value payload) := by
  unfold setDefault
  split_ifs
  · exact (TouchesOver.refl payload).mono (by simp)
  · exact touches_set hkey fun _ => hvalue

theorem hasField_setDefault (key : Bytes) (value : Json) (payload : JsonObject) :
    (setDefault key value payload).find? key = some ((payload.find? key).getD value) := by
  unfold setDefault JsonObject.hasField
  cases hfind : payload.find? key with
  | none => simp
  | some found => simp [hfind]

theorem setDefault_of_find? (h : payload.find? key = some value) (default : Json) :
    setDefault key default payload = payload := by
  rw [setDefault, if_pos (by rw [JsonObject.hasField, h]; rfl)]

def IsBoolean (key : Bytes) (payload : JsonObject) : Prop := ∃ value, payload.find? key = some (.boolean value)

theorem booleanField_ok {default : Bool} (hkey : Utf8.Valid key) (h : booleanField key default payload = .ok payload') :
    Touches [key] payload payload' ∧ IsBoolean key payload' := by
  unfold booleanField at h
  split at h
  · cases h
    exact ⟨touches_set hkey fun _ => .boolean default, default, by simp⟩
  · cases h
    exact ⟨touches_set hkey fun _ => .boolean default, default, by simp⟩
  · next value hfind =>
    cases h
    exact ⟨(TouchesOver.refl payload).mono (by simp), value, hfind⟩
  · cases h

theorem booleanField_of_boolean (h : IsBoolean key payload) (default : Bool) :
    booleanField key default payload = .ok payload := by
  obtain ⟨value, hfind⟩ := h
  rw [booleanField, hfind]

theorem IsBoolean.of_touches (h : IsBoolean key payload) (htouches : Touches keys payload payload')
    (hkey : key ∉ keys) :
    IsBoolean key payload' := by
  obtain ⟨value, hfind⟩ := h
  exact ⟨value, (htouches.kept key hkey).trans hfind⟩

end Touches

section Aliases

variable {payload : JsonObject} {key : Bytes}

def aliasKeys : List Bytes :=
  [ofString "reasoningEffort", ofString "reasoningSummary", ofString "textVerbosity", ofString "verbosity",
    ofString "promptCacheKey", ofString "promptCacheRetention"]

def applyAliases (reasoningEffort reasoningSummary textVerbosity topLevelVerbosity promptCacheKey promptCacheRetention :
    Option Bytes) (payload : JsonObject) : JsonObject :=
  let payload := setAlias (ofString "prompt_cache_key") promptCacheKey payload
  let payload := setAlias (ofString "prompt_cache_retention") promptCacheRetention payload
  let reasoning := setAlias (ofString "summary") reasoningSummary
    (setAlias (ofString "effort") reasoningEffort (objectField payload (ofString "reasoning")))
  let payload := setNonempty (ofString "reasoning") reasoning payload
  let text := setAlias (ofString "verbosity") topLevelVerbosity
    (setAlias (ofString "verbosity") textVerbosity (objectField payload (ofString "text")))
  setNonempty (ofString "text") text payload

theorem normalizeOpenaiCompatibleAliases_eq (payload : JsonObject) :
    ∃ a b c d e f : Option Bytes, (SoundObject payload → ∀ value ∈ [a, b, c, d, e, f], ∀ text, value = some text →
        Utf8.Valid text) ∧
      ((∀ key ∈ aliasKeys, payload.find? key = none) →
        a = none ∧ b = none ∧ c = none ∧ d = none ∧ e = none ∧ f = none) ∧
      normalizeOpenaiCompatibleAliases payload =
        applyAliases a b c d e f (aliasKeys.foldl JsonObject.erase payload) := by
  refine ⟨_, _, _, _, _, _, fun hsound => ?_, fun hnone => ?_, rfl⟩
  · simp only [List.mem_cons, List.not_mem_nil, or_false, forall_eq_or_imp, forall_eq]
    refine ⟨?_, ?_, ?_, ?_, ?_, ?_⟩ <;> intro text htext
    · exact hsound.string? htext
    · exact (hsound.erase _).string? htext
    · exact ((hsound.erase _).erase _).string? htext
    · exact (((hsound.erase _).erase _).erase _).string? htext
    · exact ((((hsound.erase _).erase _).erase _).erase _).string? htext
    · exact (((((hsound.erase _).erase _).erase _).erase _).erase _).string? htext
  · have habsent : ∀ key ∈ aliasKeys, payload.erase key = payload := fun key hkey => erase_absent (hnone key hkey)
    have hstring : ∀ key ∈ aliasKeys, payload.string? key = none := by
      intro key hkey
      rw [JsonObject.string?, hnone key hkey, Option.bind_none]
    simp only [aliasKeys, List.mem_cons, List.not_mem_nil, or_false, forall_eq_or_imp, forall_eq] at habsent hstring
    simp only [habsent, hstring, and_self]

theorem touches_setAlias {value : Option Bytes} (hkey : Utf8.Valid key)
    (hvalue : ∀ text, value = some text → Utf8.Valid text) :
    Touches [key] payload (setAlias key value payload) := by
  cases value with
  | none => exact (TouchesOver.refl payload).mono (by simp)
  | some text =>
    rw [setAlias, setDefault]
    split_ifs
    · exact (TouchesOver.refl payload).mono (by simp)
    · exact touches_set hkey fun _ => .string (hvalue text rfl)

theorem touches_setNonempty {fields : JsonObject} (hkey : Utf8.Valid key)
    (hfields : SoundObject payload → SoundObject fields) : Touches [key] payload (setNonempty key fields payload) := by
  unfold setNonempty
  split_ifs
  · exact (TouchesOver.refl payload).mono (by simp)
  · exact touches_set hkey fun hsound => sound_object_iff.mpr (hfields hsound)

theorem sound_objectField {P : Bytes → Prop} (h : SoundObjectOver P payload) (key : Bytes) :
    SoundObjectOver P (objectField payload key) := by
  unfold objectField
  cases hfind : payload.find? key with
  | none => exact .nil
  | some value =>
    cases value with
    | object fields => exact sound_object_iff.mp (h.find? hfind)
    | _ => exact .nil

theorem setNonempty_objectField (h : SoundObject payload) (key : Bytes) :
    setNonempty key (objectField payload key) payload = payload := by
  unfold setNonempty objectField
  cases hfind : payload.find? key with
  | none => rfl
  | some value =>
    cases value with
    | object fields =>
      split_ifs
      · rfl
      · exact h.set_self hfind
    | _ => rfl

theorem applyAliases_none (h : SoundObject payload) : applyAliases none none none none none none payload = payload := by
  simp only [applyAliases, setAlias, setNonempty_objectField h]

theorem normalizeOpenaiCompatibleAliases_of_absent (h : SoundObject payload)
    (hnone : ∀ key ∈ aliasKeys, payload.find? key = none) : normalizeOpenaiCompatibleAliases payload = payload := by
  obtain ⟨a, b, c, d, e, f, -, habsent, heq⟩ := normalizeOpenaiCompatibleAliases_eq payload
  obtain ⟨rfl, rfl, rfl, rfl, rfl, rfl⟩ := habsent hnone
  rw [heq, foldl_erase_absent hnone, applyAliases_none h]

def aliasTargets : List Bytes :=
  [ofString "prompt_cache_key", ofString "prompt_cache_retention", ofString "reasoning", ofString "text"]

theorem touches_applyAliases {a b c d e f : Option Bytes}
    (hvalid : ∀ value ∈ [a, b, c, d, e, f], ∀ text, value = some text → Utf8.Valid text) :
    Touches aliasTargets payload (applyAliases a b c d e f payload) := by
  simp only [List.mem_cons, List.not_mem_nil, or_false, forall_eq_or_imp, forall_eq] at hvalid
  obtain ⟨ha, hb, hc, hd, he, hf⟩ := hvalid
  have hmerge : ∀ {payload first second x y} (key : Bytes), Utf8.Valid first → Utf8.Valid second →
      (∀ text, x = some text → Utf8.Valid text) → (∀ text, y = some text → Utf8.Valid text) →
      SoundObject payload → SoundObject (setAlias second y (setAlias first x (objectField payload key))) := by
    intro payload first second x y key hfirst hsecond hx hy hsound
    exact (touches_setAlias hsecond hy).sound ((touches_setAlias hfirst hx).sound (sound_objectField hsound key))
  have hkeys : ∀ key ∈ aliasTargets ++ [ofString "effort", ofString "summary", ofString "verbosity"],
      Utf8.Valid key := by
    intro key hkey
    exact Utf8.valid_of_all ((by decide : ∀ key ∈ aliasTargets ++ [ofString "effort", ofString "summary",
      ofString "verbosity"], key.all (fun b => b.toNat ≤ 0x7F) = true) key hkey)
  simp only [aliasTargets, List.cons_append, List.nil_append, List.mem_cons, List.not_mem_nil, or_false,
    forall_eq_or_imp, forall_eq] at hkeys
  obtain ⟨hcache, hretention, hreasoning, htext, heffort, hsummary, hverbosity⟩ := hkeys
  have hfirst : Touches _ payload _ := touches_setAlias hcache he
  have hsecond := hfirst.trans (touches_setAlias hretention hf)
  have hthird := hsecond.trans (touches_setNonempty hreasoning (hmerge (ofString "reasoning") heffort hsummary ha hb))
  exact hthird.trans (touches_setNonempty htext (hmerge (ofString "text") hverbosity hverbosity hc hd))

theorem normalizeOpenaiCompatibleAliases_ok (hsound : SoundObject payload) :
    Touches (aliasKeys ++ aliasTargets) payload (normalizeOpenaiCompatibleAliases payload) ∧
      ∀ key ∈ aliasKeys, (normalizeOpenaiCompatibleAliases payload).find? key = none := by
  obtain ⟨a, b, c, d, e, f, hvalid, -, heq⟩ := normalizeOpenaiCompatibleAliases_eq payload
  have happlied : Touches _ (aliasKeys.foldl JsonObject.erase payload) _ := touches_applyAliases (hvalid hsound)
  rw [heq]
  refine ⟨(touches_foldl_erase aliasKeys).trans happlied, fun key hkey => ?_⟩
  have htarget : key ∉ aliasTargets := (by decide : ∀ key ∈ aliasKeys, key ∉ aliasTargets) key hkey
  rw [happlied.kept key htarget, find?_foldl_erase, if_pos hkey]

end Aliases

section Fields

variable {payload payload' : JsonObject} {key : Bytes} {value : Json}

theorem touches_normalizeInstructions (payload : JsonObject) :
    Touches [ofString "instructions"] payload (normalizeInstructions payload) ∧
      ((normalizeInstructions payload).string? (ofString "instructions")).isSome := by
  unfold normalizeInstructions
  split_ifs with h
  · exact ⟨(TouchesOver.refl payload).mono (by simp), h⟩
  · refine ⟨touches_set (Utf8.valid_of_all (by decide)) fun _ => .string Utf8.valid_nil, ?_⟩
    rw [JsonObject.string?, JsonObject.find?_set, if_pos rfl]
    rfl

def StringList (key : Bytes) (payload : JsonObject) : Prop :=
  ∃ values, payload.find? key = some (.array values) ∧ (values.all fun value => value.string?.isSome) = true

theorem validateAndNormalizeInclude_ok (hfield : (payload.find? (ofString "include")).isSome)
    (h : validateAndNormalizeInclude payload = .ok payload') :
    Touches [ofString "include"] payload payload' ∧ StringList (ofString "include") payload' := by
  unfold validateAndNormalizeInclude at h
  split at h
  · next hnone =>
    rw [hnone] at hfield
    cases hfield
  · cases h
    exact ⟨touches_set (Utf8.valid_of_all (by decide)) fun _ => .array (by simp), [], by simp, rfl⟩
  · next values hfind =>
    split_ifs at h with hall
    cases h
    exact ⟨(TouchesOver.refl payload).mono (by simp), values, hfind, hall⟩
  · cases h

theorem validateAndNormalizeInclude_of_strings (h : StringList (ofString "include") payload) :
    validateAndNormalizeInclude payload = .ok payload := by
  obtain ⟨values, hfind, hall⟩ := h
  rw [validateAndNormalizeInclude, hfind]
  dsimp only
  rw [if_pos hall]

theorem sound_normalizeTypeAlias (h : Sound value) : Sound (normalizeTypeAlias value) := by
  cases value with
  | object tool =>
    rw [normalizeTypeAlias]
    have htool := sound_object_iff.mp h
    cases htype : JsonObject.string? tool (ofString "type") with
    | none => exact h
    | some type =>
      refine sound_object_iff.mpr (htool.set (Utf8.valid_of_all (by decide)) (.string ?_))
      unfold normalizeToolTypeAlias
      split_ifs
      · exact Utf8.valid_of_all (by decide)
      · exact htool.string? htype
  | _ => exact h

theorem find?_of_string? {object : JsonObject} {text : Bytes} (h : object.string? key = some text) :
    object.find? key = some (.string text) := by
  obtain ⟨value, hfind, hvalue⟩ := Option.bind_eq_some_iff.mp h
  cases value with
  | string text' =>
    cases hvalue
    exact hfind
  | _ => cases hvalue

theorem normalizeTypeAlias_of_ordinary {tool : JsonObject} (h : SoundObject tool)
    (htype : tool.string? (ofString "type") ≠ some (ofString "web_search_preview")) :
    normalizeTypeAlias (.object tool) = .object tool := by
  rw [normalizeTypeAlias]
  cases hstring : JsonObject.string? tool (ofString "type") with
  | none => rfl
  | some type =>
    have hne : type ≠ ofString "web_search_preview" := fun heq => htype (hstring.trans (congrArg some heq))
    dsimp only
    rw [normalizeToolTypeAlias, if_neg hne, h.set_self (find?_of_string? hstring)]

theorem normalizeTypeAlias_again (h : Sound value) :
    normalizeTypeAlias (normalizeTypeAlias value) = normalizeTypeAlias value := by
  have hsound := sound_normalizeTypeAlias h
  cases value with
  | object tool =>
    rw [normalizeTypeAlias] at hsound ⊢
    cases hstring : JsonObject.string? tool (ofString "type") with
    | none =>
      dsimp only
      rw [normalizeTypeAlias, hstring]
    | some type =>
      rw [hstring] at hsound
      refine normalizeTypeAlias_of_ordinary (sound_object_iff.mp hsound) ?_
      rw [JsonObject.string?, JsonObject.find?_set, if_pos rfl]
      unfold normalizeToolTypeAlias
      split_ifs with hpreview
      · decide
      · exact fun heq => hpreview (Option.some.inj heq)
  | _ => rfl

def NormalTools (payload : JsonObject) : Prop :=
  ∃ tools, payload.find? (ofString "tools") = some (.array tools) ∧ tools.map normalizeTypeAlias = tools

def NormalToolChoice (payload : JsonObject) : Prop :=
  ∃ choice, payload.find? (ofString "tool_choice") = some choice ∧ normalizeTypeAlias choice = choice

def ChoosesWithoutTools (payload : JsonObject) : Prop :=
  payload.find? (ofString "tools") = some .null ∧ ∃ choice,
    payload.find? (ofString "tool_choice") = some (.object choice) ∧
      JsonObject.string? choice (ofString "type") = some (ofString "web_search_preview")

theorem validateAndNormalizeTools_ok (hsound : SoundObject payload) (htools : (payload.find? (ofString "tools")).isSome)
    (hchoice : (payload.find? (ofString "tool_choice")).isSome) (hslip : ¬ ChoosesWithoutTools payload)
    (h : validateAndNormalizeTools payload = .ok payload') :
    Touches [ofString "tools", ofString "tool_choice"] payload payload' ∧ NormalTools payload' ∧
      NormalToolChoice payload' := by
  obtain ⟨choice, hfindChoice⟩ := Option.isSome_iff_exists.mp hchoice
  have htoolsKey : Utf8.Valid (ofString "tools") := Utf8.valid_of_all (by decide)
  have hchoiceKey : Utf8.Valid (ofString "tool_choice") := Utf8.valid_of_all (by decide)
  unfold validateAndNormalizeTools at h
  split at h
  · next hnone =>
    rw [hnone] at htools
    cases htools
  · next hnull =>
    cases h
    refine ⟨(touches_set htoolsKey fun _ => .array (by simp)).mono (by simp), ⟨[], by simp, rfl⟩, choice, ?_, ?_⟩
    · rw [JsonObject.find?_set, if_neg (by decide), hfindChoice]
    · cases choice with
      | object fields =>
        exact normalizeTypeAlias_of_ordinary (sound_object_iff.mp (hsound.find? hfindChoice))
          fun htype => hslip ⟨hnull, fields, hfindChoice, htype⟩
      | _ => rfl
  · next tools hfind =>
    have hitems := (hsound.find? hfind).items
    have hsoundTools : Sound (.array (tools.map normalizeTypeAlias)) := by
      refine .array fun tool htool => ?_
      obtain ⟨original, horiginal, rfl⟩ := List.mem_map.mp htool
      exact sound_normalizeTypeAlias (hitems original horiginal)
    have hagain : (tools.map normalizeTypeAlias).map normalizeTypeAlias = tools.map normalizeTypeAlias := by
      rw [List.map_map]
      exact List.map_congr_left fun tool htool => normalizeTypeAlias_again (hitems tool htool)
    have htouches : Touches [ofString "tools"] payload
        (payload.set (ofString "tools") (.array (tools.map normalizeTypeAlias))) :=
      touches_set htoolsKey fun _ => hsoundTools
    have hkept := (htouches.kept (ofString "tool_choice") (by decide)).trans hfindChoice
    dsimp only at h
    split at h
    · next fields hobject =>
      cases h
      have hfields : Sound (.object fields) := (htouches.sound hsound).find? hobject
      refine ⟨htouches.trans (touches_set hchoiceKey fun _ => sound_normalizeTypeAlias hfields), ⟨_, ?_, hagain⟩,
        normalizeTypeAlias (.object fields), by simp, normalizeTypeAlias_again hfields⟩
      rw [JsonObject.find?_set, if_neg (by decide), JsonObject.find?_set, if_pos rfl]
    · next hother =>
      cases h
      refine ⟨htouches.mono (by simp), ⟨_, by simp, hagain⟩, choice, hkept, ?_⟩
      cases choice with
      | object fields => exact absurd hkept (hother fields)
      | _ => rfl
  · cases h

theorem validateAndNormalizeTools_of_normal (hsound : SoundObject payload) (htools : NormalTools payload)
    (hchoice : NormalToolChoice payload) : validateAndNormalizeTools payload = .ok payload := by
  obtain ⟨tools, hfind, hmap⟩ := htools
  obtain ⟨choice, hfindChoice, hagain⟩ := hchoice
  have hset : payload.set (ofString "tools") (.array tools) = payload := hsound.set_self hfind
  rw [validateAndNormalizeTools, hfind]
  dsimp only
  rw [hmap, hset, hfindChoice]
  cases choice with
  | object fields =>
    dsimp only
    rw [hagain, hsound.set_self hfindChoice]
  | _ => rfl

theorem touches_normalizeTruncation (payload : JsonObject) :
    Touches [ofString "truncation"] payload (normalizeTruncation payload) ∧
      (normalizeTruncation payload).find? (ofString "truncation") ≠ some .null := by
  unfold normalizeTruncation
  split
  · refine ⟨touches_erase _, ?_⟩
    rw [JsonObject.find?_erase, if_pos rfl]
    nofun
  · next hother => exact ⟨(TouchesOver.refl payload).mono (by simp), hother⟩

theorem normalizeTruncation_of_not_null (h : payload.find? (ofString "truncation") ≠ some .null) :
    normalizeTruncation payload = payload := by
  unfold normalizeTruncation
  split
  · next hnull => exact absurd hnull h
  · rfl

def NormalPreviousResponse (payload : JsonObject) : Prop :=
  payload.find? (ofString "previous_response_id") = none ∨
    ∃ id, payload.find? (ofString "previous_response_id") = some (.string id) ∧ id ≠ [] ∧ trimAscii id = id

theorem valid_trimAscii {value : Bytes} (h : Utf8.Valid value) : Utf8.Valid (trimAscii value) := by
  have hspace : ∀ b, isSpace b = true → b.toNat ≤ 0x7F := by
    intro b hb
    simp only [isSpace, Bool.or_eq_true, Bool.and_eq_true, decide_eq_true_eq, UInt8.le_iff_toNat_le,
      ← UInt8.toNat_inj, UInt8.reduceToNat] at hb
    omega
  exact (h.dropWhile hspace).rdropWhile hspace

theorem normalizePreviousResponseId_ok (hsound : SoundObject payload)
    (h : normalizePreviousResponseId payload = .ok payload') :
    Touches [ofString "previous_response_id"] payload payload' ∧ NormalPreviousResponse payload' := by
  unfold normalizePreviousResponseId at h
  split at h
  · next hnone =>
    cases h
    exact ⟨(TouchesOver.refl payload).mono (by simp), .inl hnone⟩
  · cases h
    exact ⟨touches_erase _, .inl (by simp)⟩
  · next id hfind =>
    split_ifs at h with hempty
    · cases h
      exact ⟨touches_erase _, .inl (by simp)⟩
    · cases h
      refine ⟨touches_set (Utf8.valid_of_all (by decide)) fun _ => .string ?_, .inr ⟨trimAscii id, by simp, hempty, ?_⟩⟩
      · exact valid_trimAscii (hsound.find? hfind).valid
      · exact trimAscii_trimAscii id
  · cases h

theorem normalizePreviousResponseId_of_normal (hsound : SoundObject payload) (h : NormalPreviousResponse payload) :
    normalizePreviousResponseId payload = .ok payload := by
  obtain hnone | ⟨id, hfind, hne, htrim⟩ := h
  · rw [normalizePreviousResponseId, hnone]
  · rw [normalizePreviousResponseId, hfind]
    dsimp only
    rw [htrim, if_neg hne, hsound.set_self hfind]

def OneContext (payload : JsonObject) : Prop :=
  ((nonemptyString? payload (ofString "conversation")).isSome &&
    (nonemptyString? payload (ofString "previous_response_id")).isSome) = false

theorem validateAndNormalizeResponsesFields_ok (hsound : SoundObject payload)
    (h : validateAndNormalizeResponsesFields payload = .ok payload') :
    Touches [ofString "truncation", ofString "previous_response_id"] payload payload' ∧
      payload'.find? (ofString "truncation") ≠ some .null ∧ NormalPreviousResponse payload' ∧ OneContext payload' := by
  obtain ⟨htouches, htruncation⟩ := touches_normalizeTruncation payload
  obtain ⟨checked, hchecked, h⟩ := bind_eq_ok.mp h
  obtain ⟨htouches', hprevious⟩ := normalizePreviousResponseId_ok (htouches.sound hsound) hchecked
  split_ifs at h with hboth
  cases h
  refine ⟨htouches.trans htouches', ?_, hprevious, Bool.eq_false_iff.mpr hboth⟩
  rwa [htouches'.kept _ (by decide)]

theorem validateAndNormalizeResponsesFields_of_normal (hsound : SoundObject payload)
    (htruncation : payload.find? (ofString "truncation") ≠ some .null) (hprevious : NormalPreviousResponse payload)
    (hcontext : OneContext payload) : validateAndNormalizeResponsesFields payload = .ok payload := by
  refine bind_eq_ok.mpr ⟨payload, ?_, ?_⟩
  · rw [normalizeTruncation_of_not_null htruncation, normalizePreviousResponseId_of_normal hsound hprevious]
  · rw [if_neg (by rw [hcontext]; decide)]
    rfl

theorem normalizeServiceTierAlias_again (tier : Bytes) :
    normalizeServiceTierAlias (normalizeServiceTierAlias tier) = normalizeServiceTierAlias tier := by
  unfold normalizeServiceTierAlias
  split_ifs <;> rfl

def NormalServiceTier (payload : JsonObject) : Prop :=
  ∀ tier, payload.string? (ofString "service_tier") = some tier → normalizeServiceTierAlias tier = tier

theorem normalizeServiceTier_ok (hsound : SoundObject payload) :
    Touches [ofString "service_tier"] payload (normalizeServiceTier payload) ∧
      NormalServiceTier (normalizeServiceTier payload) := by
  unfold normalizeServiceTier
  cases htier : payload.string? (ofString "service_tier") with
  | none =>
    refine ⟨(TouchesOver.refl payload).mono (by simp), fun tier heq => ?_⟩
    rw [htier] at heq
    cases heq
  | some tier =>
    refine ⟨touches_set (Utf8.valid_of_all (by decide)) fun _ => .string ?_, fun tier' heq => ?_⟩
    · unfold normalizeServiceTierAlias
      split_ifs
      · exact Utf8.valid_of_all (by decide)
      · exact hsound.string? htier
    · rw [JsonObject.string?, JsonObject.find?_set, if_pos rfl] at heq
      cases heq
      exact normalizeServiceTierAlias_again tier

theorem normalizeServiceTier_of_normal (hsound : SoundObject payload) (h : NormalServiceTier payload) :
    normalizeServiceTier payload = payload := by
  unfold normalizeServiceTier
  cases htier : payload.string? (ofString "service_tier") with
  | none => rfl
  | some tier =>
    dsimp only
    rw [h tier htier, hsound.set_self (find?_of_string? htier)]

end Fields

section Full

variable {payload payload' : JsonObject}

def NamesModel (payload : JsonObject) : Prop := ∃ c rest, payload.string? modelKey = some (c :: rest)

structure BaseForm (payload : JsonObject) : Prop where
  model : NamesModel payload
  input : NormalInput payload
  instructions : (payload.string? (ofString "instructions")).isSome
  aliases : ∀ key ∈ aliasKeys, payload.find? key = none
  parallel : IsBoolean (ofString "parallel_tool_calls") payload
  supported : ∀ key ∈ kUnsupportedUpstreamFields, payload.find? key = none

structure NormalForm (payload : JsonObject) : Prop extends BaseForm payload where
  tools : NormalTools payload
  choice : NormalToolChoice payload
  include' : StringList (ofString "include") payload
  store : IsBoolean (ofString "store") payload
  stream : IsBoolean (ofString "stream") payload
  truncation : payload.find? (ofString "truncation") ≠ some .null
  previous : NormalPreviousResponse payload
  context : OneContext payload
  tier : NormalServiceTier payload

theorem normalizeRequestBaseFields_of_normal (hsound : SoundObject payload) (h : NormalForm payload) :
    normalizeRequestBaseFields false payload = .ok payload := by
  obtain ⟨c, rest, hmodel⟩ := h.model
  obtain ⟨tools, htools, -⟩ := h.tools
  obtain ⟨values, hinclude, -⟩ := h.include'
  obtain ⟨store, hstore⟩ := h.store
  obtain ⟨choice, hchoice, -⟩ := h.choice
  have hinstructions : normalizeInstructions payload = payload := by
    rw [normalizeInstructions, if_pos h.instructions]
  rw [normalizeRequestBaseFields, hmodel]
  refine bind_eq_ok.mpr ⟨payload, normalizeInputField_of_normal hsound h.input, ?_⟩
  simp only [hinstructions, Bool.false_eq_true, if_false, setDefault_of_find? htools, setDefault_of_find? hinclude,
    setDefault_of_find? hstore]
  refine bind_eq_ok.mpr ⟨payload, booleanField_of_boolean h.stream true, ?_⟩
  refine bind_eq_ok.mpr ⟨payload, booleanField_of_boolean h.parallel false, ?_⟩
  rw [setDefault_of_find? hchoice]
  rfl

theorem normalizeFields_of_normalForm (hsound : SoundObject payload) (h : NormalForm payload) :
    normalizeFields false payload = .ok payload := by
  refine bind_eq_ok.mpr ⟨payload, normalizeRequestBaseFields_of_normal hsound h, ?_⟩
  simp only [normalizeOpenaiCompatibleAliases_of_absent hsound h.aliases, Bool.false_eq_true, if_false]
  refine bind_eq_ok.mpr ⟨payload, booleanField_of_boolean h.store false, ?_⟩
  refine bind_eq_ok.mpr ⟨payload, validateAndNormalizeInclude_of_strings h.include', ?_⟩
  refine bind_eq_ok.mpr ⟨payload, validateAndNormalizeTools_of_normal hsound h.tools h.choice, ?_⟩
  refine bind_eq_ok.mpr ⟨payload,
    validateAndNormalizeResponsesFields_of_normal hsound h.truncation h.previous h.context, ?_⟩
  rw [normalizeServiceTier_of_normal hsound h.tier, foldl_erase_absent h.supported]
  rfl

theorem touches_normalizeInputField (hsound : SoundObject payload) (h : normalizeInputField payload = .ok payload') :
    Touches [ofString "input"] payload payload' ∧ NormalInput payload' := by
  obtain ⟨hinput, items, hitems, rfl⟩ := normalizeInputField_ok hsound h
  exact ⟨touches_set (Utf8.valid_of_all (by decide)) fun _ => hitems, hinput⟩

structure BaseFields (payload payload' : JsonObject) : Prop where
  touches : Touches [ofString "input", ofString "instructions", ofString "tools", ofString "include", ofString "store",
    ofString "stream", ofString "parallel_tool_calls", ofString "tool_choice"] payload payload'
  model : NamesModel payload'
  input : NormalInput payload'
  instructions : (payload'.string? (ofString "instructions")).isSome
  tools : payload'.find? (ofString "tools") = some ((payload.find? (ofString "tools")).getD (.array []))
  include' : (payload'.find? (ofString "include")).isSome
  stream : IsBoolean (ofString "stream") payload'
  parallel : IsBoolean (ofString "parallel_tool_calls") payload'
  choice : payload'.find? (ofString "tool_choice") =
    some ((payload.find? (ofString "tool_choice")).getD (.string (ofString "auto")))

theorem baseFields_of_ok (hsound : SoundObject payload) (h : normalizeRequestBaseFields false payload = .ok payload') :
    BaseFields payload payload' := by
  have hempty : Sound (.array []) := .array (by simp)
  have hkeys : ∀ key ∈ [ofString "tools", ofString "include", ofString "store", ofString "stream",
      ofString "parallel_tool_calls", ofString "tool_choice", ofString "auto"], Utf8.Valid key := by
    intro key hkey
    exact Utf8.valid_of_all ((by decide : ∀ key ∈ [ofString "tools", ofString "include", ofString "store",
      ofString "stream", ofString "parallel_tool_calls", ofString "tool_choice", ofString "auto"],
      key.all (fun b => b.toNat ≤ 0x7F) = true) key hkey)
  simp only [List.mem_cons, List.not_mem_nil, or_false, forall_eq_or_imp, forall_eq] at hkeys
  obtain ⟨htools, hinclude, hstore, hstream, hparallel, hchoice, hauto⟩ := hkeys
  unfold normalizeRequestBaseFields at h
  split at h
  · cases h
  · cases h
  · next c rest hmodel =>
    obtain ⟨p₁, h₁, h⟩ := bind_eq_ok.mp h
    obtain ⟨t₁, hinput⟩ := touches_normalizeInputField hsound h₁
    obtain ⟨t₂, hinstructions⟩ := touches_normalizeInstructions p₁
    simp only [Bool.false_eq_true, if_false] at h
    obtain ⟨p₆, h₆, h⟩ := bind_eq_ok.mp h
    obtain ⟨p₇, h₇, h⟩ := bind_eq_ok.mp h
    cases h
    obtain ⟨t₆, hstreamed⟩ := booleanField_ok hstream h₆
    obtain ⟨t₇, hparallels⟩ := booleanField_ok hparallel h₇
    have t₃ : Touches _ (normalizeInstructions p₁) _ := touches_setDefault htools hempty
    have t₄ : Touches _ (setDefault (ofString "tools") (.array []) (normalizeInstructions p₁)) _ :=
      touches_setDefault hinclude hempty
    have t₅ : Touches _ (setDefault (ofString "include") (.array [])
        (setDefault (ofString "tools") (.array []) (normalizeInstructions p₁))) _ :=
      touches_setDefault hstore (.boolean false)
    have t₈ : Touches _ p₇ _ := touches_setDefault hchoice (.string hauto)
    have first := t₁.trans t₂
    have last := (t₆.trans t₇).trans t₈
    have middle := (t₃.trans t₄).trans t₅
    have all := (first.trans middle).trans last
    refine ⟨all.mono (by decide), ⟨c, rest, ?_⟩, ?_, ?_, ?_, ?_, ?_, ?_, ?_⟩
    · rw [all.string? (by decide), hmodel]
    · rw [NormalInput, ((t₂.trans middle).trans last).kept _ (by decide)]
      exact hinput
    · rw [(middle.trans last).string? (by decide)]
      exact hinstructions
    · rw [((t₄.trans t₅).trans last).kept _ (by decide), hasField_setDefault, first.kept _ (by decide)]
    · rw [(t₅.trans last).kept _ (by decide), hasField_setDefault]
      rfl
    · exact hstreamed.of_touches (t₇.trans t₈) (by decide)
    · exact hparallels.of_touches t₈ (by decide)
    · rw [hasField_setDefault, ((first.trans middle).trans (t₆.trans t₇)).kept _ (by decide)]

theorem choosesWithoutTools_of_defaults
    (htools : payload'.find? (ofString "tools") = some ((payload.find? (ofString "tools")).getD (.array [])))
    (hchoice : payload'.find? (ofString "tool_choice") =
      some ((payload.find? (ofString "tool_choice")).getD (.string (ofString "auto"))))
    (h : ChoosesWithoutTools payload') : ChoosesWithoutTools payload := by
  obtain ⟨hnull, choice, hobject, htype⟩ := h
  rw [htools, Option.some_inj] at hnull
  rw [hchoice, Option.some_inj] at hobject
  refine ⟨?_, choice, ?_, htype⟩
  · cases hfind : payload.find? (ofString "tools") with
    | none =>
      rw [hfind] at hnull
      cases hnull
    | some value =>
      rw [hfind] at hnull
      exact congrArg some hnull
  · cases hfind : payload.find? (ofString "tool_choice") with
    | none =>
      rw [hfind] at hobject
      cases hobject
    | some value =>
      rw [hfind] at hobject
      exact congrArg some hobject

structure CheckedFields (payload payload' : JsonObject) : Prop where
  touches : Touches ([ofString "tools", ofString "tool_choice"] ++ [ofString "truncation",
    ofString "previous_response_id"] ++ ([ofString "service_tier"] ++ kUnsupportedUpstreamFields)) payload payload'
  tools : NormalTools payload'
  choice : NormalToolChoice payload'
  truncation : payload'.find? (ofString "truncation") ≠ some .null
  previous : NormalPreviousResponse payload'
  context : OneContext payload'
  tier : NormalServiceTier payload'
  supported : ∀ key ∈ kUnsupportedUpstreamFields, payload'.find? key = none

theorem checkedFields_of_ok {p₁ p₂ : JsonObject} (hsound : SoundObject payload)
    (htools : (payload.find? (ofString "tools")).isSome) (hchoice : (payload.find? (ofString "tool_choice")).isSome)
    (hslip : ¬ ChoosesWithoutTools payload) (h₁ : validateAndNormalizeTools payload = .ok p₁)
    (h₂ : validateAndNormalizeResponsesFields p₁ = .ok p₂) :
    CheckedFields payload (kUnsupportedUpstreamFields.foldl JsonObject.erase (normalizeServiceTier p₂)) := by
  obtain ⟨t₁, htools₁, hchoice₁⟩ := validateAndNormalizeTools_ok hsound htools hchoice hslip h₁
  have hsound₁ := t₁.sound hsound
  obtain ⟨t₂, htruncation, hprevious, hcontext⟩ := validateAndNormalizeResponsesFields_ok hsound₁ h₂
  obtain ⟨t₃, htier⟩ := normalizeServiceTier_ok (t₂.sound hsound₁)
  have t₄ : Touches _ (normalizeServiceTier p₂) _ := touches_foldl_erase kUnsupportedUpstreamFields
  have last := t₃.trans t₄
  refine ⟨(t₁.trans t₂).trans last, ?_, ?_, ?_, ?_, ?_, ?_, ?_⟩
  · rw [NormalTools, (t₂.trans last).kept _ (by decide)]
    exact htools₁
  · rw [NormalToolChoice, (t₂.trans last).kept _ (by decide)]
    exact hchoice₁
  · rw [last.kept _ (by decide)]
    exact htruncation
  · rw [NormalPreviousResponse, last.kept _ (by decide)]
    exact hprevious
  · rw [OneContext, nonemptyString?, nonemptyString?, last.string? (by decide), last.string? (by decide)]
    exact hcontext
  · intro tier heq
    rw [t₄.string? (by decide)] at heq
    exact htier tier heq
  · intro key hkey
    rw [find?_foldl_erase, if_pos hkey]

theorem normalForm_of_normalizeFields (hsound : SoundObject payload) (hslip : ¬ ChoosesWithoutTools payload)
    (h : normalizeFields false payload = .ok payload') : NormalForm payload' ∧ SoundObject payload' := by
  obtain ⟨p₁, h₁, h⟩ := bind_eq_ok.mp h
  have base := baseFields_of_ok hsound h₁
  have hsound₁ := base.touches.sound hsound
  obtain ⟨t₂, haliases⟩ := normalizeOpenaiCompatibleAliases_ok hsound₁
  simp only [Bool.false_eq_true, if_false] at h
  obtain ⟨p₃, h₃, h⟩ := bind_eq_ok.mp h
  obtain ⟨t₃, hstore⟩ := booleanField_ok (Utf8.valid_of_all (by decide)) h₃
  obtain ⟨p₄, h₄, h⟩ := bind_eq_ok.mp h
  obtain ⟨p₅, h₅, h⟩ := bind_eq_ok.mp h
  obtain ⟨p₆, h₆, h⟩ := bind_eq_ok.mp h
  cases h
  obtain ⟨t₄, hinclude⟩ := validateAndNormalizeInclude_ok
    (by rw [(t₂.trans t₃).kept _ (by decide)]; exact base.include') h₄
  have early := (t₂.trans t₃).trans t₄
  have hsound₄ := early.sound hsound₁
  have htools := (early.kept (ofString "tools") (by decide)).trans base.tools
  have hchoice := (early.kept (ofString "tool_choice") (by decide)).trans base.choice
  have checked := checkedFields_of_ok hsound₄ (by rw [htools]; rfl) (by rw [hchoice]; rfl)
    (fun hchooses => hslip (choosesWithoutTools_of_defaults htools hchoice hchooses)) h₅ h₆
  have late := checked.touches
  have all := early.trans late
  refine ⟨⟨⟨?_, ?_, ?_, ?_, ?_, checked.supported⟩, checked.tools, checked.choice, ?_, ?_, ?_, checked.truncation,
    checked.previous, checked.context, checked.tier⟩, late.sound hsound₄⟩
  · obtain ⟨c, rest, hmodel⟩ := base.model
    exact ⟨c, rest, (all.string? (by decide)).trans hmodel⟩
  · rw [NormalInput, all.kept _ (by decide)]
    exact base.input
  · rw [all.string? (by decide)]
    exact base.instructions
  · intro key hkey
    have hrest := (t₃.trans t₄).trans late
    have hnot : ∀ key ∈ aliasKeys, key ∉ [ofString "store"] ++ [ofString "include"] ++
        ([ofString "tools", ofString "tool_choice"] ++ [ofString "truncation", ofString "previous_response_id"] ++
          ([ofString "service_tier"] ++ kUnsupportedUpstreamFields)) := by decide
    rw [hrest.kept key (hnot key hkey), haliases key hkey]
  · exact base.parallel.of_touches all (by decide)
  · rw [StringList, late.kept _ (by decide)]
    exact hinclude
  · exact hstore.of_touches (t₄.trans late) (by decide)
  · exact base.stream.of_touches all (by decide)

end Full

section Compact

variable {payload payload' : JsonObject} {key : Bytes}

def IsArray (key : Bytes) (payload : JsonObject) : Prop := ∃ items, payload.find? key = some (.array items)

def AtMostObject (key : Bytes) (payload : JsonObject) : Prop :=
  payload.find? key = none ∨ ∃ fields, payload.find? key = some (.object fields)

structure CompactForm (payload : JsonObject) : Prop extends BaseForm payload where
  tools : IsArray (ofString "tools") payload
  reasoning : AtMostObject (ofString "reasoning") payload
  text : AtMostObject (ofString "text") payload
  allowed : ∀ key, kAllowedCompactFields.contains key = false → payload.find? key = none

theorem compactTools_ok (h : compactTools payload = .ok payload') :
    Touches [ofString "tools"] payload payload' ∧ IsArray (ofString "tools") payload' := by
  unfold compactTools at h
  split at h
  · cases h
    exact ⟨touches_set (Utf8.valid_of_all (by decide)) fun _ => .array (by simp), [], by simp⟩
  · next items hfind =>
    cases h
    exact ⟨(TouchesOver.refl payload).mono (by simp), items, hfind⟩
  · cases h

theorem compactTools_of_array (h : IsArray (ofString "tools") payload) : compactTools payload = .ok payload := by
  obtain ⟨items, hfind⟩ := h
  rw [compactTools, hfind]

theorem compactObjectField_ok (h : compactObjectField key payload = .ok payload') :
    Touches [key] payload payload' ∧ AtMostObject key payload' := by
  unfold compactObjectField at h
  split at h
  · next hfind =>
    cases h
    exact ⟨(TouchesOver.refl payload).mono (by simp), .inl hfind⟩
  · next fields hfind =>
    cases h
    exact ⟨(TouchesOver.refl payload).mono (by simp), .inr ⟨fields, hfind⟩⟩
  · cases h
    exact ⟨touches_erase key, .inl (by simp)⟩
  · cases h

theorem compactObjectField_of_object (h : AtMostObject key payload) : compactObjectField key payload = .ok payload := by
  obtain hnone | ⟨fields, hfind⟩ := h
  · rw [compactObjectField, hnone]
  · rw [compactObjectField, hfind]

theorem find?_filter_allowed (hsound : SoundObject payload) (key : Bytes) :
    JsonObject.find? (payload.filter fun field => kAllowedCompactFields.contains field.1) key =
      if kAllowedCompactFields.contains key then payload.find? key else none := by
  have hfilter := FlatMap.find?_filter ⟨payload, hsound.sorted⟩ (fun key _ => kAllowedCompactFields.contains key) key
  refine Eq.trans hfilter ?_
  change (payload.find? key).filter _ = _
  cases payload.find? key with
  | none => simp
  | some value => rw [Option.filter_some]

theorem normalizeFields_of_compactForm (hsound : SoundObject payload) (h : CompactForm payload) :
    normalizeFields true payload = .ok payload := by
  obtain ⟨c, rest, hmodel⟩ := h.model
  have hstoreKey : Utf8.Valid (ofString "store") := Utf8.valid_of_all (by decide)
  have hstore : payload.find? (ofString "store") = none := h.allowed _ (by decide)
  have hinstructions : normalizeInstructions payload = payload := by
    rw [normalizeInstructions, if_pos h.instructions]
  have hdefault : setDefault (ofString "store") (.boolean false) payload =
      payload.set (ofString "store") (.boolean false) := by
    rw [setDefault, JsonObject.hasField, hstore]
    rfl
  have haliases : normalizeOpenaiCompatibleAliases (payload.set (ofString "store") (.boolean false)) =
      payload.set (ofString "store") (.boolean false) := by
    refine normalizeOpenaiCompatibleAliases_of_absent (hsound.set hstoreKey (.boolean false)) fun key hkey => ?_
    have hne : key ≠ ofString "store" := (by decide : ∀ key ∈ aliasKeys, key ≠ ofString "store") key hkey
    rw [JsonObject.find?_set, if_neg hne, h.aliases key hkey]
  have hallowed : payload.filter (fun field => kAllowedCompactFields.contains field.1) = payload := by
    refine (hsound.filter _).ext hsound fun key => ?_
    rw [find?_filter_allowed hsound]
    split_ifs with hkey
    · rfl
    · rw [h.allowed key (by simpa using hkey)]
  refine bind_eq_ok.mpr ⟨payload.set (ofString "store") (.boolean false), ?_, ?_⟩
  · rw [normalizeRequestBaseFields, hmodel]
    refine bind_eq_ok.mpr ⟨payload, normalizeInputField_of_normal hsound h.input, ?_⟩
    simp only [hinstructions, if_true, hdefault]
    rfl
  · simp only [haliases, if_true, hsound.erase_set hstoreKey (.boolean false) hstore, foldl_erase_absent h.supported]
    refine bind_eq_ok.mpr ⟨payload, compactTools_of_array h.tools, ?_⟩
    refine bind_eq_ok.mpr ⟨payload, booleanField_of_boolean h.parallel false, ?_⟩
    refine bind_eq_ok.mpr ⟨payload, compactObjectField_of_object h.reasoning, ?_⟩
    refine bind_eq_ok.mpr ⟨payload, compactObjectField_of_object h.text, ?_⟩
    rw [hallowed]
    rfl

theorem compactForm_of_normalizeFields (hsound : SoundObject payload)
    (h : normalizeFields true payload = .ok payload') :
    CompactForm payload' ∧ SoundObject payload' := by
  obtain ⟨p₃, h₃, h⟩ := bind_eq_ok.mp h
  unfold normalizeRequestBaseFields at h₃
  split at h₃
  · cases h₃
  · cases h₃
  · next c rest hmodel =>
    obtain ⟨p₁, h₁, h₃⟩ := bind_eq_ok.mp h₃
    obtain ⟨t₁, hinput⟩ := touches_normalizeInputField hsound h₁
    obtain ⟨t₂, hinstructions⟩ := touches_normalizeInstructions p₁
    simp only [if_true] at h₃ h
    cases h₃
    have t₃ : Touches _ (normalizeInstructions p₁) _ :=
      touches_setDefault (Utf8.valid_of_all (by decide) : Utf8.Valid (ofString "store")) (.boolean false)
    have hsound₃ := t₃.sound (t₂.sound (t₁.sound hsound))
    obtain ⟨t₄, -⟩ := normalizeOpenaiCompatibleAliases_ok hsound₃
    have t₅ : Touches _ (normalizeOpenaiCompatibleAliases
        (setDefault (ofString "store") (.boolean false) (normalizeInstructions p₁))) _ :=
      touches_erase (ofString "store")
    have t₆ := t₅.trans (touches_foldl_erase kUnsupportedUpstreamFields)
    obtain ⟨p₇, h₇, h⟩ := bind_eq_ok.mp h
    obtain ⟨p₈, h₈, h⟩ := bind_eq_ok.mp h
    obtain ⟨p₉, h₉, h⟩ := bind_eq_ok.mp h
    obtain ⟨p₁₀, h₁₀, h⟩ := bind_eq_ok.mp h
    cases h
    obtain ⟨t₇, htools⟩ := compactTools_ok h₇
    obtain ⟨t₈, hparallel⟩ := booleanField_ok (Utf8.valid_of_all (by decide)) h₈
    obtain ⟨t₉, hreasoning⟩ := compactObjectField_ok h₉
    obtain ⟨t₁₀, htext⟩ := compactObjectField_ok h₁₀
    have early := (t₃.trans t₄).trans t₆
    have late := ((t₇.trans t₈).trans t₉).trans t₁₀
    have all := (t₁.trans t₂).trans (early.trans late)
    have hsound₁₀ := all.sound hsound
    have hfilter := find?_filter_allowed hsound₁₀
    -- Every key that is asked about is one of those that may stay.
    have hstays : ∀ {key}, kAllowedCompactFields.contains key = true →
        JsonObject.find? (p₁₀.filter fun field => kAllowedCompactFields.contains field.1) key = p₁₀.find? key := by
      intro key hkey
      rw [hfilter, if_pos hkey]
    have hgoes : ∀ {key}, kAllowedCompactFields.contains key = false →
        JsonObject.find? (p₁₀.filter fun field => kAllowedCompactFields.contains field.1) key = none := by
      intro key hkey
      rw [hfilter, if_neg (by rw [hkey]; decide)]
    refine ⟨⟨⟨⟨c, rest, ?_⟩, ?_, ?_, ?_, ?_, ?_⟩, ?_, ?_, ?_, fun key => hgoes⟩, hsound₁₀.filter _⟩
    · rw [JsonObject.string?, hstays (by decide), all.kept _ (by decide)]
      exact hmodel
    · rw [NormalInput, hstays (by decide), ((t₂.trans early).trans late).kept _ (by decide)]
      exact hinput
    · rw [JsonObject.string?, hstays (by decide), (early.trans late).kept _ (by decide)]
      exact hinstructions
    · intro key hkey
      exact hgoes ((by decide : ∀ key ∈ aliasKeys, kAllowedCompactFields.contains key = false) key hkey)
    · rw [IsBoolean, hstays (by decide), (t₉.trans t₁₀).kept _ (by decide)]
      exact hparallel
    · intro key hkey
      exact hgoes ((by decide : ∀ key ∈ kUnsupportedUpstreamFields, kAllowedCompactFields.contains key = false) key
        hkey)
    · rw [IsArray, hstays (by decide), ((t₈.trans t₉).trans t₁₀).kept _ (by decide)]
      exact htools
    · rw [AtMostObject, hstays (by decide), t₁₀.kept _ (by decide)]
      exact hreasoning
    · rw [AtMostObject, hstays (by decide)]
      exact htext

end Compact

end Tightrope.Proxy.Openai
