import Tightrope.Core.RenderedTexts
import Tightrope.Proxy.Openai.NormalForm
import Tightrope.Proxy.Openai.RequestSanitizing

namespace Tightrope.Proxy.Openai

open Bytes Tightrope.Core Fallible JsonGrammar

/-- A library that reads back what it has written, reads UTF-8 text into sound values and writes these as JSON texts,
apart from control characters, which are escaped afterwards. -/
structure FaithfulLibrary (lib : JsonLibrary) : Prop where
  readsBack : ∀ json text, Sound json → lib.write json = some text →
    lib.read (sanitizeSerializedJson text) = some json
  readsSound : ∀ text json, Utf8.Valid text → lib.read text = some json → Sound json
  writesText : ∀ json written, Sound json → lib.write json = some written →
    ∃ text, IsText text ∧ sanitizeSerializedJson written = Utf8.encode text

section Reading

variable {lib : JsonLibrary} {body text : Bytes} {payload : JsonObject}

theorem valid_repairedByte {state : TextState} {b : UInt8} (h : b ≤ 0x7F) : Utf8.Valid (repairedByte state b) := by
  have hself := Utf8.valid_singleton h
  unfold repairedByte
  cases state with
  | outside =>
    dsimp only
    split_ifs
    · exact Utf8.valid_nil
    · exact hself
  | escaped => exact hself
  | inString =>
    dsimp only
    split_ifs <;> first | exact Utf8.valid_of_all (by decide) | exact Utf8.valid_nil | exact hself

theorem repairText_encodeChar (state : TextState) (c : Char) : ∃ piece state', Utf8.Valid piece ∧
    ∀ rest, repairText state (String.utf8EncodeChar c ++ rest) = piece ++ repairText state' rest := by
  by_cases hc : c.val.toNat ≤ 0x7F
  · have hle : UInt8.ofNat c.val.toNat ≤ 0x7F := by
      rw [UInt8.le_iff_toNat_le, UInt8.toNat_ofNat']
      change _ ≤ 127
      omega
    refine ⟨repairedByte state (UInt8.ofNat c.val.toNat), state.next (UInt8.ofNat c.val.toNat), valid_repairedByte hle,
      fun rest => ?_⟩
    rw [Utf8.encodeChar_ascii hc, List.singleton_append, repairText]
  · have hhigh : ∀ b ∈ String.utf8EncodeChar c, 0x80 ≤ b.toNat := fun b hb => Utf8.encodeChar_high (not_le.mp hc) hb
    cases state with
    | escaped =>
      cases hencode : String.utf8EncodeChar c with
      | nil => exact absurd hencode String.utf8EncodeChar_ne_nil
      | cons lead tail =>
        rw [hencode] at hhigh
        refine ⟨lead :: tail, .inString, ⟨[c], by simp [hencode]⟩, fun rest => ?_⟩
        rw [List.cons_append, repairText, TextState.next,
          repairText_high (by decide) fun b hb => hhigh b (List.mem_cons_of_mem _ hb)]
        rfl
    | outside => exact ⟨_, _, Utf8.valid_encodeChar c, repairText_high (by decide) hhigh⟩
    | inString => exact ⟨_, _, Utf8.valid_encodeChar c, repairText_high (by decide) hhigh⟩

theorem valid_repairText (state : TextState) {s : Bytes} (h : Utf8.Valid s) : Utf8.Valid (repairText state s) := by
  obtain ⟨text, rfl⟩ := h
  induction text generalizing state with
  | nil => exact Utf8.valid_nil
  | cons c text ih =>
    obtain ⟨piece, state', hpiece, heq⟩ := repairText_encodeChar state c
    rw [Utf8.encode_cons, heq]
    exact hpiece.append (ih state')

theorem valid_sanitizeRequestJsonBytes (s : Bytes) : Utf8.Valid (sanitizeRequestJsonBytes s) :=
  valid_repairText _ (valid_stripInvalidUtf8Bytes s)

theorem sound_requestJson (hlib : FaithfulLibrary lib) {json : Json} (h : requestJson lib body = some json) :
    Sound json := by
  unfold requestJson at h
  dsimp only at h
  split at h
  · next found hread =>
    cases h
    exact hlib.readsSound _ _ (valid_sanitizeRequestJsonBytes body) hread
  · refine hlib.readsSound _ _ ?_ h
    cases tryExtractJsonObjectSlice (sanitizeRequestJsonBytes body) with
    | none => exact valid_sanitizeRequestJsonBytes body
    | some slice => exact valid_sanitizeRequestJsonBytes slice

theorem requestObject_ok (h : requestObject lib body = .ok payload) :
    requestJson lib body = some (.object payload) := by
  unfold requestObject at h
  split at h
  · cases h
  · next object hobject =>
    cases h
    exact hobject
  · cases h

theorem requestObject_of_sanitized (hread : lib.read (sanitizeRequestJsonBytes body) = some (.object payload)) :
    requestObject lib body = .ok payload := by
  have hjson : requestJson lib body = some (.object payload) := by
    rw [requestJson, hread]
  rw [requestObject, hjson]

theorem requestObject_of_read (hsame : sanitizeRequestJsonBytes body = body)
    (hread : lib.read body = some (.object payload)) : requestObject lib body = .ok payload :=
  requestObject_of_sanitized (hsame.symm ▸ hread)

theorem serializeNormalized_ok (h : serializeNormalized lib payload = .ok text) :
    ∃ written, lib.write (.object payload) = some written ∧ text = sanitizeSerializedJson written := by
  unfold serializeNormalized at h
  split at h
  · cases h
  · next written hwrite =>
    cases h
    exact ⟨written, hwrite, rfl⟩

end Reading

section Again

variable {lib : JsonLibrary} {raw body : Bytes} {compactMode : Bool}

theorem normalizeWithStrategy_of_fixed (hlib : FaithfulLibrary lib) {payload : JsonObject}
    (hsound : SoundObject payload)
    (hfixed : normalizeFields compactMode payload = .ok payload) (hbody : serializeNormalized lib payload = .ok body)
    (hdel : 0x7F ∉ body) : normalizeWithStrategy lib body compactMode = .ok body := by
  obtain ⟨written, hwrite, heq⟩ := serializeNormalized_ok hbody
  have hjson := sound_object_iff.mpr hsound
  obtain ⟨text, htext, hencode⟩ := hlib.writesText _ _ hjson hwrite
  have hread : lib.read body = some (.object payload) := heq ▸ hlib.readsBack _ _ hjson hwrite
  have hsame : sanitizeRequestJsonBytes body = body := by
    rw [heq, hencode] at hdel ⊢
    rw [sanitizeRequestJsonBytes_text htext, dropDel_eq_self.mpr hdel]
  refine bind_eq_ok.mpr ⟨payload, requestObject_of_read hsame hread, ?_⟩
  exact bind_eq_ok.mpr ⟨payload, hfixed, hbody⟩

def RequestChoosesWithoutTools (lib : JsonLibrary) (raw : Bytes) : Prop :=
  ∃ payload, requestObject lib raw = .ok payload ∧ ChoosesWithoutTools payload

theorem normalize_again (hlib : FaithfulLibrary lib) :
    (∀ raw body, normalizeRequest lib raw = .ok body → 0x7F ∉ body → ¬ RequestChoosesWithoutTools lib raw →
      normalizeRequest lib body = .ok body) ∧
    ∀ raw body, normalizeCompactRequest lib raw = .ok body → 0x7F ∉ body →
      normalizeCompactRequest lib body = .ok body := by
  refine ⟨fun raw body h hdel hslip => ?_, fun raw body h hdel => ?_⟩
  · obtain ⟨payload, hpayload, h⟩ := bind_eq_ok.mp h
    obtain ⟨normalized, hnormalized, hbody⟩ := bind_eq_ok.mp h
    have hsound := sound_object_iff.mp (sound_requestJson hlib (requestObject_ok hpayload))
    obtain ⟨hform, hsound'⟩ := normalForm_of_normalizeFields hsound (fun hchoice => hslip ⟨payload, hpayload, hchoice⟩)
      hnormalized
    exact normalizeWithStrategy_of_fixed hlib hsound' (normalizeFields_of_normalForm hsound' hform) hbody hdel
  · obtain ⟨payload, hpayload, h⟩ := bind_eq_ok.mp h
    obtain ⟨normalized, hnormalized, hbody⟩ := bind_eq_ok.mp h
    have hsound := sound_object_iff.mp (sound_requestJson hlib (requestObject_ok hpayload))
    obtain ⟨hform, hsound'⟩ := compactForm_of_normalizeFields hsound hnormalized
    exact normalizeWithStrategy_of_fixed hlib hsound' (normalizeFields_of_compactForm hsound' hform) hbody hdel

end Again

section Rendered

theorem faithful_renderingLibrary : FaithfulLibrary renderingLibrary :=
  ⟨fun _ _ _ => renderingLibrary_readsBack, fun _ _ _ => renderingLibrary_readsSound,
    fun _ _ _ => renderingLibrary_writesText⟩

variable {object normalized : JsonObject} {raw : Bytes} {compactMode : Bool}

theorem requestObject_of_rendered {kept : JsonObject} (h : isAsciiJson (.object object) = true)
    (hdrop : dropDel (rendered (.object object)) = rendered (.object kept))
    (hkept : isAsciiJson (.object kept) = true) :
    requestObject renderingLibrary (rendered (.object object)) = .ok kept := by
  obtain ⟨text, htext, hencode⟩ := renderingLibrary_writesText (renderingLibrary_write h)
  rw [sanitizeSerializedJson_rendered] at hencode
  apply requestObject_of_sanitized
  rw [hencode, sanitizeRequestJsonBytes_text htext, ← hencode, hdrop, renderingLibrary_read hkept]

theorem requestObject_rendered_self (h : isAsciiJson (.object object) = true)
    (hdel : 0x7F ∉ rendered (.object object)) :
    requestObject renderingLibrary (rendered (.object object)) = .ok object :=
  requestObject_of_rendered h (dropDel_eq_self.mpr hdel) h

theorem normalizeWithStrategy_rendered (hobject : requestObject renderingLibrary raw = .ok object)
    (hfields : normalizeFields compactMode object = .ok normalized) (h : isAsciiJson (.object normalized) = true) :
    normalizeWithStrategy renderingLibrary raw compactMode = .ok (rendered (.object normalized)) := by
  refine bind_eq_ok.mpr ⟨object, hobject, bind_eq_ok.mpr ⟨normalized, hfields, ?_⟩⟩
  rw [serializeNormalized, renderingLibrary_write h]
  exact congrArg Except.ok (sanitizeSerializedJson_rendered _)

end Rendered

section Samples

def givenItem (content role : Json) : Json := .object (fieldsJson [("content", content), ("role", role)])

def partsOf (type s : String) : Json := .array [.object (fieldsJson [("text", textJson s), ("type", textJson type)])]

def sampleRequest : JsonObject :=
  fieldsJson [("input", .array [givenItem (partsOf "text" "hi") (textJson "user"),
    givenItem (textJson "ok") (textJson "assistant")]),
    ("model", textJson "m"), ("promptCacheKey", textJson "k"),
    ("tools", .array [.object (fieldsJson [("type", textJson "web_search_preview")])])]

def sampleNormal : JsonObject :=
  fieldsJson [("include", .array []),
    ("input", .array [givenItem (partsOf "input_text" "hi") (textJson "user"),
      givenItem (partsOf "output_text" "ok") (textJson "assistant")]),
    ("instructions", textJson ""), ("model", textJson "m"), ("parallel_tool_calls", .boolean false),
    ("prompt_cache_key", textJson "k"), ("store", .boolean false), ("stream", .boolean true),
      ("tool_choice", textJson "auto"),
    ("tools", .array [.object (fieldsJson [("type", textJson "web_search")])])]

theorem requestObject_sampleRequest :
    requestObject renderingLibrary (rendered (.object sampleRequest)) = .ok sampleRequest :=
  requestObject_rendered_self (by decide +kernel) (by decide +kernel)

theorem normalize_again_sampleRequest :
    normalizeRequest renderingLibrary (rendered (.object sampleNormal)) = .ok (rendered (.object sampleNormal)) := by
  have hnormalized : normalizeRequest renderingLibrary (rendered (.object sampleRequest)) =
      .ok (rendered (.object sampleNormal)) :=
    normalizeWithStrategy_rendered requestObject_sampleRequest (by decide +kernel) (by decide +kernel)
  refine (normalize_again faithful_renderingLibrary).1 _ _ hnormalized (by decide +kernel) ?_
  rintro ⟨payload, hpayload, htools, -⟩
  obtain rfl := Except.ok.inj (requestObject_sampleRequest.symm.trans hpayload)
  exact absurd htools (by decide +kernel)

def fullPayload (model : Bytes) (toolType : String) : JsonObject :=
  [(ofString "include", .array []), (ofString "input", .array []), (ofString "instructions", .string []),
    (ofString "model", .string model), (ofString "parallel_tool_calls", .boolean false),
    (ofString "store", .boolean false), (ofString "stream", .boolean true),
    (ofString "tool_choice", .object [(ofString "type", textJson toolType)]), (ofString "tools", .array [])]

def fullBody (model : Bytes) (toolType : String) : Bytes := rendered (.object (fullPayload model toolType))

def delModel : Bytes := [109, 0x7F]

def delRequest : Bytes :=
  ofString "\x7b\"model\":\"m\\u007f\",\"input\":[],\"tool_choice\":\x7b\"type\":\"none\"\x7d\x7d"

def nullRequest : JsonObject :=
  fieldsJson [("input", .array []), ("model", textJson "m"),
    ("tool_choice", .object (fieldsJson [("type", textJson "web_search_preview")])), ("tools", .null)]

def delObject (model : Bytes) : JsonObject :=
  [(ofString "input", .array []), (ofString "model", .string model),
    (ofString "tool_choice", .object [(ofString "type", textJson "none")])]

theorem second_pass_changes_body :
    FaithfulLibrary renderingLibrary ∧
    normalizeRequest renderingLibrary delRequest = .ok (fullBody delModel "none") ∧
    normalizeRequest renderingLibrary (fullBody delModel "none") = .ok (fullBody (ofString "m") "none") ∧
    normalizeRequest renderingLibrary (rendered (.object nullRequest)) =
      .ok (fullBody (ofString "m") "web_search_preview") ∧
    normalizeRequest renderingLibrary (fullBody (ofString "m") "web_search_preview") =
      .ok (fullBody (ofString "m") "web_search") := by
  have hdel : requestObject renderingLibrary delRequest = .ok (delObject delModel) := by decide +kernel
  have hdropped : requestObject renderingLibrary (fullBody delModel "none") =
      .ok (fullPayload (ofString "m") "none") :=
    requestObject_of_rendered (by decide +kernel) (by decide +kernel) (by decide +kernel)
  have hnull : requestObject renderingLibrary (rendered (.object nullRequest)) = .ok nullRequest :=
    requestObject_rendered_self (by decide +kernel) (by decide +kernel)
  have hpreview : requestObject renderingLibrary (fullBody (ofString "m") "web_search_preview") =
      .ok (fullPayload (ofString "m") "web_search_preview") :=
    requestObject_rendered_self (by decide +kernel) (by decide +kernel)
  refine ⟨faithful_renderingLibrary, normalizeWithStrategy_rendered hdel ?_ ?_,
    normalizeWithStrategy_rendered hdropped ?_ ?_, normalizeWithStrategy_rendered hnull ?_ ?_,
    normalizeWithStrategy_rendered hpreview ?_ ?_⟩ <;> decide +kernel

end Samples

end Tightrope.Proxy.Openai
