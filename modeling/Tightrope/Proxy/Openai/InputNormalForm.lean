import Tightrope.Core.SoundJson
import Tightrope.Library.Fallible
import Tightrope.Proxy.Openai.PayloadNormalizer

namespace Tightrope.Proxy.Openai

open Bytes Tightrope.Core Fallible

section Parts

variable {part content value : Json} {role text : Bytes} {object : JsonObject}

theorem valid_textPartTypeForRole (role : Bytes) : Utf8.Valid (textPartTypeForRole role) := by
  unfold textPartTypeForRole
  split_ifs <;> exact Utf8.valid_of_all (by decide)

theorem sound_textPart {P : Bytes → Prop} [TextProperty P] {type : Bytes} (htype : P type) (htext : P text) :
    SoundOver P (textPart type text) := by
  have hkey : P (ofString "type") := TextProperty.plain (by decide)
  have hkey' : P (ofString "text") := TextProperty.plain (by decide)
  exact sound_object_iff.mpr ((SoundObjectOver.nil.set hkey (.string htype)).set hkey' (.string htext))

def CleanPart (part : Json) : Prop := sanitizeInterleavedReasoningContentPart part = some part

def CleanContent : Json → Prop
  | .array parts => ∀ part ∈ parts, CleanPart part
  | .object content => CleanPart (.object content)
  | _ => True

theorem find?_foldl_erase (keys : List Bytes) (object : JsonObject) (key : Bytes) :
    JsonObject.find? (keys.foldl JsonObject.erase object) key = if key ∈ keys then none else object.find? key := by
  induction keys generalizing object with
  | nil => rfl
  | cons first keys ih =>
    rw [List.foldl_cons, ih, JsonObject.find?_erase]
    by_cases hfirst : key = first
    · simp [hfirst]
    · simp [hfirst]

theorem foldl_erase_absent {keys : List Bytes} (h : ∀ key ∈ keys, object.find? key = none) :
    keys.foldl JsonObject.erase object = object := by
  induction keys with
  | nil => rfl
  | cons key keys ih =>
    rw [List.foldl_cons, erase_absent (h key List.mem_cons_self)]
    exact ih fun other hother => h other (List.mem_cons_of_mem _ hother)

theorem string?_foldl_erase {keys : List Bytes} {key : Bytes} (h : key ∉ keys) (object : JsonObject) :
    JsonObject.string? (keys.foldl JsonObject.erase object) key = object.string? key := by
  rw [JsonObject.string?, JsonObject.string?, find?_foldl_erase, if_neg h]

theorem cleanPart_of_sanitized {part' : Json} (h : sanitizeInterleavedReasoningContentPart part = some part') :
    CleanPart part' := by
  unfold sanitizeInterleavedReasoningContentPart at h
  split at h
  · next object =>
    split_ifs at h with htype
    cases h
    have hkeys : ∀ key ∈ kInterleavedReasoningKeys,
        JsonObject.find? (kInterleavedReasoningKeys.foldl JsonObject.erase object) key = none := by
      intro key hkey
      rw [find?_foldl_erase, if_pos hkey]
    rw [CleanPart, sanitizeInterleavedReasoningContentPart, string?_foldl_erase (by decide), if_neg htype,
      foldl_erase_absent hkeys]
  · next hobject =>
    cases h
    rw [CleanPart, sanitizeInterleavedReasoningContentPart]
    exact hobject

theorem sanitizeInterleavedReasoningContent_of_clean (h : CleanContent content) :
    sanitizeInterleavedReasoningContent content = some content := by
  cases content with
  | array parts => rw [sanitizeInterleavedReasoningContent, List.filterMap_congr h, List.filterMap_some]
  | object content => exact h
  | _ => rfl

theorem cleanContent_of_sanitized {content' : Json} (h : sanitizeInterleavedReasoningContent content = some content') :
    CleanContent content' := by
  cases content with
  | array parts =>
    cases h
    intro part' hpart'
    obtain ⟨part, -, hpart⟩ := List.mem_filterMap.mp hpart'
    exact cleanPart_of_sanitized hpart
  | object content =>
    have hpart : sanitizeInterleavedReasoningContentPart (.object content) = some content' := h
    have hclean := cleanPart_of_sanitized hpart
    simp only [sanitizeInterleavedReasoningContent, sanitizeInterleavedReasoningContentPart] at h
    split_ifs at h
    cases h
    exact hclean
  | _ =>
    cases h
    trivial

theorem sound_sanitizedPart {part' : Json} (hpart : Sound part)
    (h : sanitizeInterleavedReasoningContentPart part = some part') : Sound part' := by
  unfold sanitizeInterleavedReasoningContentPart at h
  split at h
  · split_ifs at h
    cases h
    exact sound_object_iff.mpr ((sound_object_iff.mp hpart).foldl_erase _)
  · cases h
    exact hpart

theorem sound_sanitizedContent {content' : Json} (hcontent : Sound content)
    (h : sanitizeInterleavedReasoningContent content = some content') : Sound content' := by
  unfold sanitizeInterleavedReasoningContent at h
  split at h
  · cases h
    refine .array fun part' hpart' => ?_
    obtain ⟨part, hpart, hsanitized⟩ := List.mem_filterMap.mp hpart'
    exact sound_sanitizedPart (hcontent.items part hpart) hsanitized
  · exact sound_sanitizedPart hcontent h
  · cases h
    exact hcontent

theorem cleanPart_textPart (role text : Bytes) : CleanPart (textPart (textPartTypeForRole role) text) := by
  unfold CleanPart textPartTypeForRole textPart
  split_ifs <;> rfl

theorem normalizedPart_textPart (role text : Bytes) :
    normalizedPart role (textPart (textPartTypeForRole role) text) = textPart (textPartTypeForRole role) text := by
  have hextract : extractTextContentPart kAssistantTextPartTypes false (textPart (textPartTypeForRole role) text) =
      some text := by
    unfold textPartTypeForRole textPart
    split_ifs <;> rfl
  rw [normalizedPart, hextract]

theorem normalizedPart_cases (role : Bytes) (part : Json) :
    (∃ text, extractTextContentPart kAssistantTextPartTypes false part = some text ∧
      normalizedPart role part = textPart (textPartTypeForRole role) text) ∨
    extractTextContentPart kAssistantTextPartTypes false part = none ∧ normalizedPart role part = part := by
  unfold normalizedPart
  cases extractTextContentPart kAssistantTextPartTypes false part with
  | none => exact .inr ⟨rfl, rfl⟩
  | some text => exact .inl ⟨text, rfl, rfl⟩

theorem normalizedPart_normalizedPart (role : Bytes) (part : Json) :
    normalizedPart role (normalizedPart role part) = normalizedPart role part := by
  obtain ⟨text, -, heq⟩ | ⟨-, heq⟩ := normalizedPart_cases role part
  · rw [heq, normalizedPart_textPart]
  · rw [heq, heq]

theorem cleanPart_normalizedPart (h : CleanPart part) : CleanPart (normalizedPart role part) := by
  obtain ⟨text, -, heq⟩ | ⟨-, heq⟩ := normalizedPart_cases role part
  · rw [heq]
    exact cleanPart_textPart role text
  · rwa [heq]

theorem valid_extractTextContentPart (hpart : Sound part)
    (h : extractTextContentPart kAssistantTextPartTypes false part = some text) : Utf8.Valid text := by
  unfold extractTextContentPart at h
  split at h
  · next object =>
    simp only [Bool.false_and, Bool.false_eq_true, if_false] at h
    split_ifs at h
    exact (sound_object_iff.mp hpart).string? h
  · cases h

theorem sound_normalizedPart (h : Sound part) : Sound (normalizedPart role part) := by
  obtain ⟨text, htext, heq⟩ | ⟨-, heq⟩ := normalizedPart_cases role part
  · rw [heq]
    exact sound_textPart (valid_textPartTypeForRole role) (valid_extractTextContentPart h htext)
  · rwa [heq]

def normalizedListPart (role : Bytes) : Json → Json
  | .string text => textPart (textPartTypeForRole role) text
  | part => normalizedPart role part

theorem normalizeMessageContentForRole_array (role : Bytes) (parts : List Json) :
    normalizeMessageContentForRole role (.array parts) = .array (parts.map (normalizedListPart role)) := rfl

theorem normalizedListPart_cases (role : Bytes) (part : Json) :
    (∃ text, part = .string text ∧ normalizedListPart role part = textPart (textPartTypeForRole role) text) ∨
    normalizedListPart role part = normalizedPart role part := by
  cases part with
  | string text => exact .inl ⟨text, rfl, rfl⟩
  | _ => exact .inr rfl

theorem normalizedListPart_textPart (role text : Bytes) :
    normalizedListPart role (textPart (textPartTypeForRole role) text) = textPart (textPartTypeForRole role) text :=
  normalizedPart_textPart role text

theorem normalizedListPart_of_not_string (h : ∀ text, part ≠ .string text) :
    normalizedListPart role part = normalizedPart role part := by
  obtain ⟨text, heq, -⟩ | heq := normalizedListPart_cases role part
  · exact absurd heq (h text)
  · exact heq

theorem normalizedPart_not_string (h : ∀ text, part ≠ .string text) (text : Bytes) :
    normalizedPart role part ≠ .string text := by
  obtain ⟨text', -, heq⟩ | ⟨-, heq⟩ := normalizedPart_cases role part
  · rw [heq, textPart]
    nofun
  · rw [heq]
    exact h text

theorem normalizedListPart_normalizedListPart (role : Bytes) (part : Json) :
    normalizedListPart role (normalizedListPart role part) = normalizedListPart role part := by
  by_cases hstring : ∃ text, part = .string text
  · obtain ⟨text, rfl⟩ := hstring
    exact normalizedListPart_textPart role text
  · have hpart : ∀ text, part ≠ .string text := fun text heq => hstring ⟨text, heq⟩
    rw [normalizedListPart_of_not_string hpart, normalizedListPart_of_not_string (normalizedPart_not_string hpart),
      normalizedPart_normalizedPart]

theorem cleanPart_normalizedListPart (h : CleanPart part) : CleanPart (normalizedListPart role part) := by
  obtain ⟨text, -, heq⟩ | heq := normalizedListPart_cases role part
  · rw [heq]
    exact cleanPart_textPart role text
  · rw [heq]
    exact cleanPart_normalizedPart h

theorem sound_normalizedListPart (h : Sound part) : Sound (normalizedListPart role part) := by
  obtain ⟨text, rfl, heq⟩ | heq := normalizedListPart_cases role part
  · rw [heq]
    exact sound_textPart (valid_textPartTypeForRole role) h.valid
  · rw [heq]
    exact sound_normalizedPart h

theorem normalizeMessageContentForRole_again (role : Bytes) (content : Json) :
    normalizeMessageContentForRole role (normalizeMessageContentForRole role content) =
      normalizeMessageContentForRole role content := by
  cases content with
  | string text =>
    rw [normalizeMessageContentForRole, normalizeMessageContentForRole_array, List.map_singleton,
      normalizedListPart_textPart]
  | array parts =>
    rw [normalizeMessageContentForRole_array, normalizeMessageContentForRole_array, List.map_map]
    congr 1
    exact List.map_congr_left fun part _ => normalizedListPart_normalizedListPart role part
  | object content =>
    have hpart : ∀ text, Json.object content ≠ .string text := by nofun
    rw [normalizeMessageContentForRole, normalizeMessageContentForRole_array, List.map_singleton,
      normalizedListPart_of_not_string (normalizedPart_not_string hpart), normalizedPart_normalizedPart]
  | _ => rfl

theorem cleanContent_normalized (role : Bytes) (h : CleanContent content) :
    CleanContent (normalizeMessageContentForRole role content) := by
  cases content with
  | string text =>
    intro part hpart
    rw [List.mem_singleton.mp hpart]
    exact cleanPart_textPart role text
  | array parts =>
    intro part' hpart'
    obtain ⟨part, hpart, rfl⟩ := List.mem_map.mp hpart'
    exact cleanPart_normalizedListPart (h part hpart)
  | object content =>
    intro part hpart
    rw [List.mem_singleton.mp hpart]
    exact cleanPart_normalizedPart h
  | _ => exact h

theorem sound_normalizeMessageContentForRole (role : Bytes) (h : Sound content) :
    Sound (normalizeMessageContentForRole role content) := by
  cases content with
  | string text =>
    refine .array fun part hpart => ?_
    rw [List.mem_singleton.mp hpart]
    exact sound_textPart (valid_textPartTypeForRole role) h.valid
  | array parts =>
    rw [normalizeMessageContentForRole_array]
    refine .array fun part' hpart' => ?_
    obtain ⟨part, hpart, rfl⟩ := List.mem_map.mp hpart'
    exact sound_normalizedListPart (h.items part hpart)
  | object content =>
    refine .array fun part hpart => ?_
    rw [List.mem_singleton.mp hpart]
    exact sound_normalizedPart h
  | _ => exact h

end Parts

section Items

variable {item : JsonObject} {key role : Bytes}

def sanitizedItem (item : JsonObject) : JsonObject := item.foldl sanitizeItemField []

def sanitizedField (key : Bytes) (value : Json) : Option Json :=
  if kInterleavedReasoningKeys.contains key then none
  else if key = ofString "content" then sanitizeInterleavedReasoningContent value
  else some value

theorem sanitizeItemField_eq (sanitized : JsonObject) (field : Bytes × Json) : sanitizeItemField sanitized field =
    (sanitizedField field.1 field.2).elim sanitized fun value => sanitized.set field.1 value := by
  unfold sanitizeItemField sanitizedField
  split_ifs
  · rfl
  · cases sanitizeInterleavedReasoningContent field.2 <;> rfl
  · rfl

theorem sound_sanitizedField {value value' : Json} (hvalue : Sound value) (h : sanitizedField key value = some value') :
    Sound value' := by
  unfold sanitizedField at h
  split_ifs at h
  · exact sound_sanitizedContent hvalue h
  · cases h
    exact hvalue

theorem sound_foldl_sanitizeItemField {fields sanitized : JsonObject}
    (hfields : ∀ field ∈ fields, Utf8.Valid field.1 ∧ Sound field.2) (hsanitized : SoundObject sanitized) :
    SoundObject (fields.foldl sanitizeItemField sanitized) := by
  induction fields generalizing sanitized with
  | nil => exact hsanitized
  | cons field fields ih =>
    rw [List.foldl_cons, sanitizeItemField_eq]
    refine ih (fun other hother => hfields other (List.mem_cons_of_mem _ hother)) ?_
    obtain ⟨hkey, hvalue⟩ := hfields field List.mem_cons_self
    cases hfield : sanitizedField field.1 field.2 with
    | none => exact hsanitized
    | some value => exact hsanitized.set hkey (sound_sanitizedField hvalue hfield)

theorem sound_sanitizedItem (h : SoundObject item) : SoundObject (sanitizedItem item) :=
  sound_foldl_sanitizeItemField (fun field hfield => ⟨h.keys field hfield, h.values field hfield⟩) .nil

theorem find?_foldl_sanitizeItemField {fields : JsonObject} (sorted : fields.Pairwise fun a b => a.1 < b.1)
    (sanitized : JsonObject) (key : Bytes) : JsonObject.find? (fields.foldl sanitizeItemField sanitized) key =
      ((fields.find? key).bind (sanitizedField key)).or (sanitized.find? key) := by
  induction fields generalizing sanitized with
  | nil => rfl
  | cons field fields ih =>
    obtain ⟨hfirst, hrest⟩ := List.pairwise_cons.mp sorted
    rw [List.foldl_cons, ih hrest, sanitizeItemField_eq]
    have hfind : JsonObject.find? (field :: fields) key =
        if field.1 = key then some field.2 else JsonObject.find? fields key := by
      rw [JsonObject.find?, JsonObject.find?]
      conv_lhs => rw [FlatMap.findEntry]
      split_ifs <;> rfl
    by_cases hkey : field.1 = key
    · subst hkey
      have hnone : JsonObject.find? fields field.1 = none :=
        FlatMap.findEntry_eq_none fun other hother heq => absurd (hfirst other hother) (by simp [heq])
      rw [hfind, if_pos rfl, hnone, Option.bind_none, Option.none_or, Option.bind_some]
      cases sanitizedField field.1 field.2 with
      | none => rfl
      | some value => simp
    · rw [hfind, if_neg hkey]
      cases sanitizedField field.1 field.2 with
      | none => rfl
      | some value => simp [Ne.symm hkey]

theorem find?_sanitizedItem (h : SoundObject item) (key : Bytes) :
    JsonObject.find? (sanitizedItem item) key = (item.find? key).bind (sanitizedField key) := by
  rw [sanitizedItem, find?_foldl_sanitizeItemField h.sorted]
  exact Option.or_none

def CleanItem (item : JsonObject) : Prop :=
  ∀ key value, item.find? key = some value → sanitizedField key value = some value

theorem sanitizedItem_of_clean (h : SoundObject item) (hclean : CleanItem item) : sanitizedItem item = item := by
  refine (sound_sanitizedItem h).ext h fun key => ?_
  rw [find?_sanitizedItem h]
  cases hfind : item.find? key with
  | none => rfl
  | some value => exact hclean key value hfind

theorem sanitizedField_again {value value' : Json} (h : sanitizedField key value = some value') :
    sanitizedField key value' = some value' := by
  unfold sanitizedField at h ⊢
  split_ifs at h ⊢ with hreasoning hcontent
  · exact sanitizeInterleavedReasoningContent_of_clean (cleanContent_of_sanitized h)
  · rfl

theorem cleanItem_sanitizedItem (h : SoundObject item) : CleanItem (sanitizedItem item) := by
  intro key value' hfind
  rw [find?_sanitizedItem h] at hfind
  obtain ⟨value, -, hvalue⟩ := Option.bind_eq_some_iff.mp hfind
  exact sanitizedField_again hvalue

theorem cleanContent_of_cleanItem {content : Json} (h : CleanItem item)
    (hcontent : item.find? (ofString "content") = some content) : CleanContent content := by
  have hfield := h _ _ hcontent
  rw [sanitizedField, if_neg (by decide), if_pos rfl] at hfield
  exact cleanContent_of_sanitized hfield

theorem cleanItem_set {content : Json} (h : CleanItem item) (hcontent : CleanContent content) :
    CleanItem (JsonObject.set item (ofString "content") content) := by
  intro key value hfind
  rw [JsonObject.find?_set] at hfind
  split_ifs at hfind with hkey
  · cases hfind
    rw [hkey, sanitizedField, if_neg (by decide), if_pos rfl]
    exact sanitizeInterleavedReasoningContent_of_clean hcontent
  · exact h key value hfind

theorem sanitizeInputItem_object (item : JsonObject) :
    sanitizeInputItem (.object item) = normalizeRoleInputItem (.object (sanitizedItem item)) := rfl

theorem normalizeRoleInputItem_cases {item' : Json} (h : normalizeRoleInputItem (.object item) = .ok item') :
    item' = .object item ∨
    (∃ role content, item.string? (ofString "role") = some role ∧
      (isAssistantRole role || isInputTextRole role) = true ∧
      item.find? (ofString "content") = some content ∧
      item' = .object (JsonObject.set item (ofString "content") (normalizeMessageContentForRole role content))) ∨
    ∃ callId, resolveToolCallId item = some callId ∧ item' = functionCallOutput item callId := by
  unfold normalizeRoleInputItem at h
  dsimp only at h
  cases hrole : JsonObject.string? item (ofString "role") with
  | none =>
    rw [hrole] at h
    cases h
    exact .inl rfl
  | some role =>
    rw [hrole] at h
    dsimp only at h
    split_ifs at h with htext htool
    · cases hcontent : JsonObject.find? item (ofString "content") with
      | none =>
        rw [hcontent] at h
        cases h
        exact .inl rfl
      | some content =>
        rw [hcontent] at h
        cases h
        exact .inr (.inl ⟨role, content, rfl, htext, rfl, rfl⟩)
    · cases h
      exact .inl rfl
    · cases hcall : resolveToolCallId item with
      | none =>
        rw [hcall] at h
        cases h
      | some callId =>
        rw [hcall] at h
        cases h
        exact .inr (.inr ⟨callId, rfl, rfl⟩)

theorem valid_resolveToolCallId {callId : Bytes} (h : SoundObject item) (hcall : resolveToolCallId item = some callId) :
    Utf8.Valid callId := by
  have hvalid : ∀ {key}, nonemptyString? item key = some callId → Utf8.Valid callId :=
    fun hkey => h.string? (Option.filter_eq_some_iff.mp hkey).1
  unfold resolveToolCallId at hcall
  rw [Option.or_eq_some_iff, Option.or_eq_some_iff] at hcall
  obtain hfirst | ⟨-, hsecond | ⟨-, hthird⟩⟩ := hcall
  · exact hvalid hfirst
  · exact hvalid hsecond
  · exact hvalid hthird

theorem functionCallOutput_eq (item : JsonObject) (callId : Bytes) : ∃ output,
    functionCallOutput item callId = .object [(ofString "call_id", .string callId), (ofString "output", output),
      (ofString "type", .string (ofString "function_call_output"))] ∧ (SoundObject item → Sound output) := by
  have hempty : Sound (.string []) := .string Utf8.valid_nil
  refine ⟨_, rfl, fun h => ?_⟩
  split
  · next output houtput =>
    split_ifs
    · exact hempty
    · split at houtput
      · split_ifs at houtput
        · exact h.find? houtput
        · cases houtput
          exact h.find? ‹_›
      · exact h.find? houtput
  · exact hempty

theorem sound_functionCallOutput {callId : Bytes} {output : Json} (hcall : Utf8.Valid callId) (houtput : Sound output) :
    SoundObject [(ofString "call_id", .string callId), (ofString "output", output),
      (ofString "type", .string (ofString "function_call_output"))] := by
  have hkeys : Utf8.Valid (ofString "call_id") ∧ Utf8.Valid (ofString "output") ∧ Utf8.Valid (ofString "type") :=
    ⟨Utf8.valid_of_all (by decide), Utf8.valid_of_all (by decide), Utf8.valid_of_all (by decide)⟩
  have htype : Utf8.Valid (ofString "function_call_output") := Utf8.valid_of_all (by decide)
  refine ⟨?_, ?_, ?_⟩
  · simp only [List.pairwise_cons, List.mem_cons, List.not_mem_nil, or_false, forall_eq_or_imp, forall_eq,
      false_imp_iff, implies_true, List.Pairwise.nil, and_true]
    decide
  · simpa using hkeys
  · simpa using ⟨.string hcall, houtput, .string htype⟩

theorem sound_sanitizeInputItem {item item' : Json} (hitem : Sound item) (h : sanitizeInputItem item = .ok item') :
    Sound item' := by
  cases item with
  | object item =>
    have hs := sound_sanitizedItem (sound_object_iff.mp hitem)
    rw [sanitizeInputItem_object] at h
    obtain rfl | ⟨role, content, -, -, hcontent, rfl⟩ | ⟨callId, hcall, rfl⟩ := normalizeRoleInputItem_cases h
    · exact sound_object_iff.mpr hs
    · have hkey : Utf8.Valid (ofString "content") := Utf8.valid_of_all (by decide)
      exact sound_object_iff.mpr (hs.set hkey (sound_normalizeMessageContentForRole role (hs.find? hcontent)))
    · obtain ⟨output, heq, houtput⟩ := functionCallOutput_eq (sanitizedItem item) callId
      rw [heq]
      exact sound_object_iff.mpr (sound_functionCallOutput (valid_resolveToolCallId hs hcall) (houtput hs))
  | _ =>
    cases h
    exact hitem

theorem sanitizeInputItem_again {item item' : Json} (hitem : Sound item) (h : sanitizeInputItem item = .ok item') :
    sanitizeInputItem item' = .ok item' := by
  cases item with
  | object item =>
    have hobject := sound_object_iff.mp hitem
    have hs := sound_sanitizedItem hobject
    have hclean := cleanItem_sanitizedItem hobject
    rw [sanitizeInputItem_object] at h
    obtain rfl | ⟨role, content, hrole, htext, hcontent, rfl⟩ | ⟨callId, hcall, rfl⟩ := normalizeRoleInputItem_cases h
    · rw [sanitizeInputItem_object, sanitizedItem_of_clean hs hclean, h]
    · have hnormal := cleanContent_normalized role (cleanContent_of_cleanItem hclean hcontent)
      have hsound := sound_normalizeMessageContentForRole role (hs.find? hcontent)
      have hset := hs.set (Utf8.valid_of_all (by decide) : Utf8.Valid (ofString "content")) hsound
      rw [sanitizeInputItem_object, sanitizedItem_of_clean hset (cleanItem_set hclean hnormal)]
      have hrole' : JsonObject.string? (JsonObject.set (sanitizedItem item) (ofString "content")
          (normalizeMessageContentForRole role content)) (ofString "role") = some role := by
        rw [JsonObject.string?, JsonObject.find?_set, if_neg (by decide)]
        exact hrole
      have hfind : JsonObject.find? (JsonObject.set (sanitizedItem item) (ofString "content")
          (normalizeMessageContentForRole role content)) (ofString "content") =
            some (normalizeMessageContentForRole role content) := by
        rw [JsonObject.find?_set, if_pos rfl]
      rw [normalizeRoleInputItem, hrole']
      dsimp only
      rw [if_pos htext, hfind]
      dsimp only
      rw [normalizeMessageContentForRole_again, hset.set_self hfind]
    · obtain ⟨output, heq, houtput⟩ := functionCallOutput_eq (sanitizedItem item) callId
      have hsound := sound_functionCallOutput (valid_resolveToolCallId hs hcall) (houtput hs)
      have hcleaned : CleanItem [(ofString "call_id", .string callId), (ofString "output", output),
          (ofString "type", .string (ofString "function_call_output"))] := by
        intro key value hfind
        have hmem := hsound.mem_iff.mpr hfind
        simp only [List.mem_cons, Prod.mk.injEq, List.not_mem_nil, or_false] at hmem
        obtain ⟨rfl, rfl⟩ | ⟨rfl, rfl⟩ | ⟨rfl, rfl⟩ := hmem <;> rfl
      rw [heq, sanitizeInputItem_object, sanitizedItem_of_clean hsound hcleaned]
      rfl
  | _ =>
    cases h
    rfl

end Items

section InputFiles

variable {item : JsonObject} {part content : Json}

def isFilePart : Json → Bool
  | .object part => isInputFileWithId part
  | _ => false

def contentHasFile : Json → Bool
  | .array parts => parts.any isFilePart
  | .object content => isInputFileWithId content
  | _ => false

def itemHasFile : Json → Bool
  | .object item => isInputFileWithId item || (JsonObject.find? item (ofString "content")).any contentHasFile
  | _ => false

theorem hasInputFileId_eq (items : List Json) : hasInputFileId items = items.any itemHasFile := by
  unfold hasInputFileId
  congr 1
  funext item
  cases item with
  | object item =>
    dsimp only [itemHasFile]
    cases JsonObject.find? item (ofString "content") with
    | none => rfl
    | some content => cases content <;> rfl
  | _ => rfl

theorem isInputFileWithId_congr {object object' : JsonObject}
    (htype : object'.string? (ofString "type") = object.string? (ofString "type"))
    (hid : object'.string? (ofString "file_id") = object.string? (ofString "file_id")) :
    isInputFileWithId object' = isInputFileWithId object := by
  rw [isInputFileWithId, isInputFileWithId, htype, hid]

theorem isFilePart_sanitized {part' : Json} (h : sanitizeInterleavedReasoningContentPart part = some part') :
    isFilePart part' = isFilePart part := by
  unfold sanitizeInterleavedReasoningContentPart at h
  split at h
  · split_ifs at h
    cases h
    exact isInputFileWithId_congr (string?_foldl_erase (by decide) _) (string?_foldl_erase (by decide) _)
  · cases h
    rfl

theorem isFilePart_textPart (role text : Bytes) : isFilePart (textPart (textPartTypeForRole role) text) = false := by
  unfold textPartTypeForRole textPart
  split_ifs <;> rfl

theorem isFilePart_normalizedPart {role : Bytes} (h : isFilePart part = false) :
    isFilePart (normalizedPart role part) = false := by
  obtain ⟨text, -, heq⟩ | ⟨-, heq⟩ := normalizedPart_cases role part
  · rw [heq, isFilePart_textPart]
  · rw [heq, h]

theorem isFilePart_normalizedListPart {role : Bytes} (h : isFilePart part = false) :
    isFilePart (normalizedListPart role part) = false := by
  obtain ⟨text, -, heq⟩ | heq := normalizedListPart_cases role part
  · rw [heq, isFilePart_textPart]
  · rw [heq, isFilePart_normalizedPart h]

theorem contentHasFile_array {parts : List Json} :
    contentHasFile (.array parts) = false ↔ ∀ part ∈ parts, isFilePart part = false := by
  rw [contentHasFile, List.any_eq_false]
  simp

theorem contentHasFile_sanitized {content' : Json} (h : sanitizeInterleavedReasoningContent content = some content')
    (hcontent : contentHasFile content = false) : contentHasFile content' = false := by
  cases content with
  | array parts =>
    cases h
    rw [contentHasFile_array] at hcontent ⊢
    intro part' hpart'
    obtain ⟨part, hpart, hsanitized⟩ := List.mem_filterMap.mp hpart'
    rw [isFilePart_sanitized hsanitized]
    exact hcontent part hpart
  | object content =>
    have hpart : sanitizeInterleavedReasoningContentPart (.object content) = some content' := h
    have hfile := isFilePart_sanitized hpart
    simp only [sanitizeInterleavedReasoningContent, sanitizeInterleavedReasoningContentPart] at h
    split_ifs at h
    cases h
    exact hfile.trans hcontent
  | _ =>
    cases h
    rfl

theorem contentHasFile_normalized {role : Bytes} (h : contentHasFile content = false) :
    contentHasFile (normalizeMessageContentForRole role content) = false := by
  cases content with
  | string text =>
    rw [normalizeMessageContentForRole, contentHasFile_array]
    intro part hpart
    rw [List.mem_singleton.mp hpart, isFilePart_textPart]
  | array parts =>
    rw [normalizeMessageContentForRole_array, contentHasFile_array]
    rw [contentHasFile_array] at h
    intro part' hpart'
    obtain ⟨part, hpart, rfl⟩ := List.mem_map.mp hpart'
    exact isFilePart_normalizedListPart (h part hpart)
  | object content =>
    rw [normalizeMessageContentForRole, contentHasFile_array]
    intro part hpart
    rw [List.mem_singleton.mp hpart]
    exact isFilePart_normalizedPart h
  | _ => rfl

theorem string?_sanitizedItem (h : SoundObject item) {key : Bytes} (hkey : key ∉ kInterleavedReasoningKeys)
    (hcontent : key ≠ ofString "content") : JsonObject.string? (sanitizedItem item) key = item.string? key := by
  rw [JsonObject.string?, find?_sanitizedItem h, JsonObject.string?]
  cases item.find? key with
  | none => rfl
  | some value =>
    rw [Option.bind_some, sanitizedField, if_neg (by simpa using hkey), if_neg hcontent]

theorem itemHasFile_sanitized {item item' : Json} (hitem : Sound item) (h : sanitizeInputItem item = .ok item')
    (hfile : itemHasFile item = false) : itemHasFile item' = false := by
  cases item with
  | object item =>
    have hobject := sound_object_iff.mp hitem
    rw [itemHasFile, Bool.or_eq_false_iff] at hfile
    have hself : isInputFileWithId (sanitizedItem item) = false := by
      rw [isInputFileWithId_congr (string?_sanitizedItem hobject (by decide) (by decide))
        (string?_sanitizedItem hobject (by decide) (by decide)), hfile.1]
    have hcontents : ∀ content, JsonObject.find? (sanitizedItem item) (ofString "content") = some content →
        contentHasFile content = false := by
      intro content hcontent
      rw [find?_sanitizedItem hobject] at hcontent
      obtain ⟨original, horiginal, hsanitized⟩ := Option.bind_eq_some_iff.mp hcontent
      rw [sanitizedField, if_neg (by decide), if_pos rfl] at hsanitized
      refine contentHasFile_sanitized hsanitized ?_
      have hany := hfile.2
      rw [horiginal, Option.any_some] at hany
      exact hany
    rw [sanitizeInputItem_object] at h
    obtain rfl | ⟨role, content, -, -, hcontent, rfl⟩ | ⟨callId, -, rfl⟩ := normalizeRoleInputItem_cases h
    · rw [itemHasFile, hself, Bool.false_or]
      cases hcontent : JsonObject.find? (sanitizedItem item) (ofString "content") with
      | none => rfl
      | some content => exact hcontents content hcontent
    · have hset : isInputFileWithId (JsonObject.set (sanitizedItem item) (ofString "content")
          (normalizeMessageContentForRole role content)) = isInputFileWithId (sanitizedItem item) := by
        apply isInputFileWithId_congr
        · rw [JsonObject.string?, JsonObject.find?_set, if_neg (by decide), JsonObject.string?]
        · rw [JsonObject.string?, JsonObject.find?_set, if_neg (by decide), JsonObject.string?]
      rw [itemHasFile, hset, hself, Bool.false_or, JsonObject.find?_set, if_pos rfl, Option.any_some]
      exact contentHasFile_normalized (hcontents content hcontent)
    · obtain ⟨output, heq, -⟩ := functionCallOutput_eq (sanitizedItem item) callId
      rw [heq]
      rfl
  | _ =>
    cases h
    rfl

end InputFiles

section Input

theorem mapM_again {items items' : List Json} (hitems : ∀ item ∈ items, Sound item)
    (h : items.mapM sanitizeInputItem = .ok items') :
    items'.mapM sanitizeInputItem = .ok items' ∧ (∀ item ∈ items', Sound item) ∧
      (items.any itemHasFile = false → items'.any itemHasFile = false) := by
  induction items generalizing items' with
  | nil =>
    cases h
    exact ⟨rfl, by simp, id⟩
  | cons item items ih =>
    rw [List.mapM_cons] at h
    obtain ⟨item', hitem', h⟩ := bind_eq_ok.mp h
    obtain ⟨rest, hrest, h⟩ := bind_eq_ok.mp h
    cases h
    have hitem := hitems item List.mem_cons_self
    obtain ⟨hagain, hsound, hfile⟩ := ih (fun other hother => hitems other (List.mem_cons_of_mem _ hother)) hrest
    refine ⟨?_, ?_, fun hany => ?_⟩
    · rw [List.mapM_cons, sanitizeInputItem_again hitem hitem', hagain]
      rfl
    · rw [List.forall_mem_cons]
      exact ⟨sound_sanitizeInputItem hitem hitem', hsound⟩
    · rw [List.any_cons, Bool.or_eq_false_iff] at hany ⊢
      exact ⟨itemHasFile_sanitized hitem hitem' hany.1, hfile hany.2⟩

def NormalInput (payload : JsonObject) : Prop :=
  ∃ items, payload.find? (ofString "input") = some (.array items) ∧ hasInputFileId items = false ∧
    sanitizeInputItems items = .ok items

theorem sound_inputItems {payload : JsonObject} (h : SoundObject payload) {items : List Json}
    (hitems : inputItems payload = .ok items) : ∀ item ∈ items, Sound item := by
  unfold inputItems at hitems
  split at hitems
  · cases hitems
  · next text htext =>
    cases hitems
    have hvalid := (h.find? htext).valid
    have hkeys : Utf8.Valid (ofString "role") ∧ Utf8.Valid (ofString "content") ∧ Utf8.Valid (ofString "user") ∧
        Utf8.Valid (ofString "input_text") :=
      ⟨Utf8.valid_of_all (by decide), Utf8.valid_of_all (by decide), Utf8.valid_of_all (by decide),
        Utf8.valid_of_all (by decide)⟩
    have hpart : Sound (.array [textPart (ofString "input_text") text]) := by
      refine .array fun part hpart => ?_
      rw [List.mem_singleton.mp hpart]
      exact sound_textPart hkeys.2.2.2 hvalid
    intro item hitem
    rw [List.mem_singleton.mp hitem]
    exact sound_object_iff.mpr ((SoundObjectOver.nil.set hkeys.1 (.string hkeys.2.2.1)).set hkeys.2.1 hpart)
  · next items' hfind =>
    cases hitems
    exact (h.find? hfind).items
  · cases hitems

theorem normalizeInputField_ok {payload payload' : JsonObject} (hsound : SoundObject payload)
    (h : normalizeInputField payload = .ok payload') : NormalInput payload' ∧
      ∃ items, Sound (.array items) ∧ payload' = payload.set (ofString "input") (.array items) := by
  obtain ⟨items, hitems, h⟩ := bind_eq_ok.mp h
  split_ifs at h with hfile
  obtain ⟨sanitized, hsanitized, h⟩ := bind_eq_ok.mp h
  cases h
  obtain ⟨hagain, hsounds, hnofile⟩ := mapM_again (sound_inputItems hsound hitems) hsanitized
  rw [Bool.not_eq_true, hasInputFileId_eq] at hfile
  refine ⟨⟨sanitized, ?_, ?_, hagain⟩, sanitized, .array hsounds, rfl⟩
  · rw [JsonObject.find?_set, if_pos rfl]
  · rw [hasInputFileId_eq]
    exact hnofile hfile

theorem normalizeInputField_of_normal {payload : JsonObject} (hsound : SoundObject payload) (h : NormalInput payload) :
    normalizeInputField payload = .ok payload := by
  obtain ⟨items, hfind, hfile, hsanitized⟩ := h
  have hitems : inputItems payload = .ok items := by
    rw [inputItems, hfind]
  have hset := hsound.set_self hfind
  rw [normalizeInputField, hitems]
  change (if hasInputFileId items = true then _ else _) = _
  rw [if_neg (by rw [hfile]; decide), hsanitized]
  exact congrArg Except.ok hset

end Input

end Tightrope.Proxy.Openai
