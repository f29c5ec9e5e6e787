import Tightrope.Library.Base64
import Tightrope.Library.Fallible
import Tightrope.Proxy.Chat.ChatRequest

namespace Tightrope.Proxy.Chat

open Bytes Tightrope.Core Openai Fallible

section Images

def base64Payload (url : Bytes) : Option Bytes :=
  let header := toLowerAscii (url.takeWhile (· ≠ 44))
  if url.contains 44 && startsWith header (ofString "data:") && (ofString ";base64").isSuffixOf header then
    some (url.dropWhile (· ≠ 44)).tail
  else none

def Oversized (url : Bytes) : Prop :=
  ∃ payload bytes, base64Payload url = some payload ∧ Base64.decode payload = some bytes ∧
    kMaxImageDataUrlBytes < bytes.length

structure RequestImage where
  measured : Bool
  url : Bytes
  deriving DecidableEq, Repr

def RequestImage.kept (image : RequestImage) : Option Bytes :=
  if image.measured && isOversizedDataUrl image.url then none else some image.url

def userImages : Json → List RequestImage
  | .object part =>
    if inferContentPartType part = ofString "image_url" then (imageUrlField part).1.toList.map (⟨true, ·⟩)
    else if inferContentPartType part = ofString "input_image" then (imageUrlField part).1.toList.map (⟨false, ·⟩)
    else []
  | _ => []

def assistantImages : Json → List RequestImage
  | .object part =>
    if JsonObject.string? part (ofString "type") = some (ofString "image_url") then
      (nestedImage part).toList.map (⟨false, ·⟩)
    else if JsonObject.string? part (ofString "type") = some (ofString "input_image") then
      (imageUrlField part).1.toList.map (⟨false, ·⟩)
    else []
  | _ => []

def contentParts : Json → List Json
  | .array parts => parts
  | content => [content]

def messageImages : Json → List RequestImage
  | .object message =>
    if JsonObject.string? message (ofString "role") = some (ofString "user") then
      (contentParts (messageContent message)).flatMap userImages
    else if JsonObject.string? message (ofString "role") = some (ofString "assistant") then
      (contentParts (messageContent message)).flatMap assistantImages
    else []
  | _ => []

def partImages : Json → List Bytes
  | .object part =>
    if JsonObject.string? part (ofString "type") = some (ofString "input_image") then (imageUrlField part).1.toList
    else []
  | _ => []

def arrayField (object : JsonObject) (key : Bytes) : List Json :=
  match object.find? key with
  | some (.array items) => items
  | _ => []

def itemImages : Json → List Bytes
  | .object item => (arrayField item (ofString "content")).flatMap partImages
  | _ => []

def bodyImages (body : JsonObject) : List Bytes := (arrayField body (ofString "input")).flatMap itemImages

end Images

section Parts

variable {object : JsonObject} {part : Json}

theorem string?_set (object : JsonObject) (key key' : Bytes) (value : Json) :
    (object.set key value).string? key' = if key' = key then value.string? else object.string? key' := by
  rw [JsonObject.string?, JsonObject.find?_set]
  split_ifs <;> rfl

theorem string?_typedObject (type : Bytes) : (typedObject type).string? (ofString "type") = some type := by
  rw [typedObject, string?_set, if_pos rfl]
  rfl

theorem string?_inputTextPart (text : Bytes) : ∃ fields, inputTextPart text = .object fields ∧
    JsonObject.string? fields (ofString "type") = some (ofString "input_text") := by
  refine ⟨_, rfl, ?_⟩
  rw [string?_set, if_neg (by decide), string?_set, if_pos rfl]
  rfl

theorem partImages_of_type {type : Bytes} (h : object.string? (ofString "type") = some type)
    (hne : type ≠ ofString "input_image") : partImages (.object object) = [] := by
  rw [partImages, h, if_neg fun heq => hne (Option.some.inj heq)]

theorem partImages_inputTextPart (text : Bytes) : partImages (inputTextPart text) = [] := by
  obtain ⟨fields, hfields, htype⟩ := string?_inputTextPart text
  rw [hfields]
  exact partImages_of_type htype (by decide)

theorem type_of_inferContentPartType {type : Bytes} (h : inferContentPartType object = type)
    (htext : type ≠ ofString "text") (hempty : type ≠ []) : object.string? (ofString "type") = some type := by
  unfold inferContentPartType at h
  split at h
  · next found hfound =>
    subst h
    exact (Option.filter_eq_some_iff.mp hfound).1
  · split_ifs at h
    · exact absurd h.symm htext
    · exact absurd h.symm hempty

theorem type_of_mapChatFilePart (h : mapChatFilePart object = .ok part) :
    ∃ fields, part = .object fields ∧ JsonObject.string? fields (ofString "type") = some (ofString "input_file") := by
  have hset (fileUrl : Bytes) :
      ((typedObject (ofString "input_file")).set (ofString "file_url") (.string fileUrl)).string?
      (ofString "type") = some (ofString "input_file") := by
    rw [string?_set, if_neg (by decide), string?_typedObject]
  unfold mapChatFilePart at h
  split at h
  · split_ifs at h
    · cases h
    · dsimp only at h
      split at h
      · cases h
        exact ⟨_, rfl, hset _⟩
      · split at h
        · cases h
          exact ⟨_, rfl, string?_typedObject _⟩
        · cases h
          exact ⟨_, rfl, hset _⟩
  · cases h

theorem partImages_mapChatFilePart (h : mapChatFilePart object = .ok part) : partImages part = [] := by
  obtain ⟨fields, rfl, htype⟩ := type_of_mapChatFilePart h
  exact partImages_of_type htype (by decide)

theorem url_ne_nil {url : Bytes} {detail : Option Bytes} (h : imageUrlField object = (some url, detail)) :
    url ≠ [] := by
  rintro rfl
  unfold imageUrlField at h
  split at h
  · have hfilter := (Option.filter_eq_some_iff.mp (Prod.ext_iff.mp h).1).2
    cases hfilter
  · split_ifs at h
    · cases h
    · next hne =>
      cases h
      exact hne rfl
  · cases h

theorem partImages_of_string {url : Bytes} (htype : object.string? (ofString "type") = some (ofString "input_image"))
    (hurl : object.find? (ofString "image_url") = some (.string url)) (hne : url ≠ []) :
    partImages (.object object) = [url] := by
  rw [partImages, if_pos htype, imageUrlField, hurl]
  simp only [if_neg hne, Option.toList_some]

theorem partImages_inputImagePart {url : Bytes} (h : url ≠ []) : partImages (.object (inputImagePart url)) = [url] := by
  refine partImages_of_string ?_ ?_ h
  · rw [inputImagePart, string?_set, if_neg (by decide), string?_typedObject]
  · rw [inputImagePart, JsonObject.find?_set, if_pos rfl]

theorem partImages_detailed {url : Bytes} (h : url ≠ []) (detail : Bytes) :
    partImages (.object ((inputImagePart url).set (ofString "detail") (.string detail))) = [url] := by
  refine partImages_of_string ?_ ?_ h
  · rw [string?_set, if_neg (by decide), inputImagePart, string?_set, if_neg (by decide), string?_typedObject]
  · rw [JsonObject.find?_set, if_neg (by decide), inputImagePart, JsonObject.find?_set, if_pos rfl]

theorem partImages_mapChatImagePart {mapped : Option Json} (h : mapChatImagePart object = .ok mapped) :
    mapped.toList.flatMap partImages =
      ((imageUrlField object).1.toList.map (⟨true, ·⟩ : Bytes → RequestImage)).filterMap RequestImage.kept := by
  unfold mapChatImagePart at h
  split at h
  · cases h
  · next url detail hfield =>
    have hne := url_ne_nil hfield
    rw [hfield]
    by_cases hover : isOversizedDataUrl url
    · rw [if_pos hover] at h
      cases h
      simp [RequestImage.kept, hover]
    · rw [if_neg hover] at h
      have hkept : (([url].map (⟨true, ·⟩ : Bytes → RequestImage)).filterMap RequestImage.kept) = [url] := by
        simp [RequestImage.kept, hover]
      split at h
      · cases h
        exact (List.flatMap_singleton _ _).trans ((partImages_inputImagePart hne).trans hkept.symm)
      · cases h
        exact (List.flatMap_singleton _ _).trans ((partImages_detailed hne _).trans hkept.symm)

theorem partImages_mapChatUserContentPart {mapped : Option Json} (h : mapChatUserContentPart part = .ok mapped) :
    mapped.toList.flatMap partImages = (userImages part).filterMap RequestImage.kept := by
  have hkept (url : Option Bytes) :
      (url.toList.map (⟨false, ·⟩ : Bytes → RequestImage)).filterMap RequestImage.kept = url.toList := by
    cases url <;> rfl
  unfold mapChatUserContentPart at h
  split at h
  · cases h
    exact (List.flatMap_singleton _ _).trans (partImages_inputTextPart _)
  · next object =>
    dsimp only at h
    rw [userImages]
    by_cases himage : inferContentPartType object = ofString "image_url"
    · rw [himage, if_neg (by decide), if_pos rfl] at h
      rw [if_pos himage, partImages_mapChatImagePart h]
    rw [if_neg himage]
    rw [if_neg himage] at h
    by_cases hinput : inferContentPartType object = ofString "input_image"
    · rw [hinput, if_neg (by decide), if_pos rfl] at h
      cases h
      have htype := type_of_inferContentPartType hinput (by decide) (by decide)
      rw [if_pos hinput, hkept, Option.toList_some, List.flatMap_singleton, partImages, if_pos htype]
    · rw [if_neg hinput] at h
      rw [if_neg hinput]
      split_ifs at h with htext haudio hfile hinputFile hid
      · split at h
        · cases h
        · cases h
          exact (List.flatMap_singleton _ _).trans (partImages_inputTextPart _)
      · cases h
      · obtain ⟨filePart, hpart, rfl⟩ := map_eq_ok.mp h
        exact (List.flatMap_singleton _ _).trans (partImages_mapChatFilePart hpart)
      · cases h
      · cases h
        have htype := type_of_inferContentPartType hinputFile (by decide) (by decide)
        exact (List.flatMap_singleton _ _).trans (partImages_of_type htype (by decide))
  · cases h

theorem partImages_parseContentPart {parsed : List Json} (h : parseContentPart part = .ok parsed) :
    parsed.flatMap partImages = (assistantImages part).filterMap RequestImage.kept := by
  have hkept (url : Option Bytes) :
      (url.toList.map (⟨false, ·⟩ : Bytes → RequestImage)).filterMap RequestImage.kept = url.toList := by
    cases url <;> rfl
  unfold parseContentPart at h
  split at h
  · cases h
    exact (List.flatMap_singleton _ _).trans (partImages_inputTextPart _)
  · next object =>
    dsimp only at h
    rw [assistantImages]
    have hrest (hnested : (nestedImage object).filter
        (fun _ => JsonObject.string? object (ofString "type") = some (ofString "image_url")) = none) :
        parsed.flatMap partImages =
          if JsonObject.string? object (ofString "type") = some (ofString "input_image") then
            (imageUrlField object).1.toList
          else [] := by
      rw [hnested] at h
      dsimp only at h
      split_ifs at h with htype hfile
      · cases h
        rw [List.flatMap_singleton, partImages]
      · obtain ⟨filePart, hpart, rfl⟩ := map_eq_ok.mp h
        rw [if_neg fun himage => htype (.inr himage), List.flatMap_singleton, partImages_mapChatFilePart hpart]
      · rw [if_neg fun himage => htype (.inr himage)]
        split at h
        · cases h
          rw [List.flatMap_singleton, partImages_inputTextPart]
        · cases h
          rfl
    by_cases himage : JsonObject.string? object (ofString "type") = some (ofString "image_url")
    · rw [if_pos himage, hkept]
      cases hnested : nestedImage object with
      | none =>
        rw [hrest (by rw [hnested]; rfl), himage, if_neg (by decide)]
        rfl
      | some url =>
        have hne : url ≠ [] := by
          rintro rfl
          unfold nestedImage at hnested
          split at hnested
          · cases (Option.filter_eq_some_iff.mp hnested).2
          · cases hnested
        rw [hnested, Option.filter_some, if_pos (by simpa using himage)] at h
        cases h
        rw [List.flatMap_singleton, partImages_inputImagePart hne, Option.toList_some]
    · rw [if_neg himage, hrest (by simp [himage])]
      split_ifs
      · exact (hkept _).symm
      · rfl
  · next hstring hobject =>
    cases h
    cases part with
    | string text => exact absurd rfl (hstring text)
    | object fields => exact absurd rfl (hobject fields)
    | _ => rfl

theorem partImages_orEmptyText (parts : List Json) :
    (orEmptyText parts).flatMap partImages = parts.flatMap partImages := by
  unfold orEmptyText
  split_ifs with hparts
  · rw [hparts, List.flatMap_singleton, partImages_inputTextPart, List.flatMap_nil]
  · rfl

end Parts

section Messages

variable {content : Json} {parts : List Json}

theorem partImages_toUserInputParts (h : toUserInputParts content = .ok parts) :
    parts.flatMap partImages = ((contentParts content).flatMap userImages).filterMap RequestImage.kept := by
  have hsingle (part : Json)
      (h : (mapChatUserContentPart part).map (fun mapped => orEmptyText mapped.toList) = .ok parts) :
      parts.flatMap partImages = ([part].flatMap userImages).filterMap RequestImage.kept := by
    obtain ⟨mapped, hmapped, rfl⟩ := map_eq_ok.mp h
    rw [partImages_orEmptyText, partImages_mapChatUserContentPart hmapped, List.flatMap_singleton]
  unfold toUserInputParts at h
  split at h
  · cases h
    rw [List.flatMap_singleton, partImages_inputTextPart]
    rfl
  · next items =>
    obtain ⟨mapped, hmapped, rfl⟩ := map_eq_ok.mp h
    have hcollect := flatMap_mapM appends_eq (fun _ _ h => (partImages_mapChatUserContentPart h).symm) hmapped
    rw [partImages_orEmptyText, List.filterMap_eq_flatMap_toList, List.flatMap_assoc, contentParts,
      List.filterMap_flatMap]
    exact hcollect.symm
  · next hnull harray =>
    rw [show contentParts content = [content] by
      cases content with
      | array items => exact absurd rfl (harray items)
      | _ => rfl]
    exact hsingle content h

theorem partImages_toInputParts (h : toInputParts content = .ok parts) :
    parts.flatMap partImages = ((contentParts content).flatMap assistantImages).filterMap RequestImage.kept := by
  unfold toInputParts at h
  split at h
  · cases h
    rw [List.flatMap_singleton, partImages_inputTextPart]
    rfl
  · obtain ⟨parsed, hparsed, rfl⟩ := map_eq_ok.mp h
    have hcollect := flatMap_mapM appends_eq (fun _ _ h => (partImages_parseContentPart h).symm) hparsed
    rw [partImages_orEmptyText, List.flatten_eq_flatMap, List.flatMap_assoc, contentParts, List.filterMap_flatMap]
    exact hcollect.symm
  · obtain ⟨parsed, hparsed, rfl⟩ := map_eq_ok.mp h
    rw [partImages_orEmptyText, partImages_parseContentPart hparsed, ← List.flatMap_singleton assistantImages]
    rfl
  · next hstring harray hobject =>
    cases h
    rw [List.flatMap_singleton, partImages_inputTextPart]
    cases content with
    | string text => exact absurd rfl (hstring text)
    | array items => exact absurd rfl (harray items)
    | object fields => exact absurd rfl (hobject fields)
    | _ => rfl

theorem itemImages_messageItem (role : Bytes) (parts : List Json) :
    itemImages (messageItem role parts) = parts.flatMap partImages := by
  rw [messageItem, itemImages, arrayField, JsonObject.find?_set, if_pos rfl]

theorem itemImages_of_no_content {item : JsonObject} (h : item.find? (ofString "content") = none) :
    itemImages (.object item) = [] := by
  rw [itemImages, arrayField, h, List.flatMap_nil]

theorem itemImages_toolOutputItem {message : JsonObject} {item : Json} (h : toolOutputItem message = .ok item) :
    itemImages item = [] := by
  unfold toolOutputItem at h
  split at h
  · cases h
  · split at h
    · cases h
    · cases h
    · obtain ⟨output, -, rfl⟩ := map_eq_ok.mp h
      refine itemImages_of_no_content ?_
      rw [JsonObject.find?_set, if_neg (by decide), JsonObject.find?_set, if_neg (by decide), typedObject,
        JsonObject.find?_set, if_neg (by decide)]
      rfl

theorem itemImages_toolCallItem (toolCall item : Json) (h : toolCallItem toolCall = .ok item) :
    itemImages item = [] := by
  have hcall (callId name arguments : Bytes) : itemImages (functionCallItem callId name arguments) = [] := by
    refine itemImages_of_no_content ?_
    rw [JsonObject.find?_set, if_neg (by decide), JsonObject.find?_set, if_neg (by decide), JsonObject.find?_set,
      if_neg (by decide), typedObject, JsonObject.find?_set, if_neg (by decide)]
    rfl
  unfold toolCallItem at h
  repeat' split at h
  all_goals cases h
  exact hcall _ _ _

theorem itemImages_toolCallItems {message : JsonObject} {calls : List Json} (h : toolCallItems message = .ok calls) :
    calls.flatMap itemImages = [] := by
  unfold toolCallItems at h
  split at h
  · refine List.flatMap_eq_nil_iff.mpr fun call hcall => ?_
    obtain ⟨toolCall, -, heq⟩ := mem_of_mapM_ok h hcall
    exact itemImages_toolCallItem toolCall call heq
  · cases h
    rfl

theorem role_cases {role : Bytes} (h : isSupportedRole role = true) :
    role = ofString "system" ∨ role = ofString "developer" ∨ role = ofString "user" ∨ role = ofString "assistant" ∨
      role = ofString "tool" := by
  have hmem := List.contains_iff_mem.mp h
  simpa only [kSupportedRoles, List.mem_cons, List.not_mem_nil, or_false] using hmem

theorem itemImages_convertMessage (input : ChatInput) (message : Json) (input' : ChatInput)
    (h : convertMessage input message = .ok input') :
    input'.items.flatMap itemImages =
      input.items.flatMap itemImages ++ (messageImages message).filterMap RequestImage.kept := by
  unfold convertMessage at h
  split at h
  · next message =>
    split at h
    · cases h
    · next role hrole =>
      have hfield : JsonObject.string? message (ofString "role") = some role := (Option.filter_eq_some_iff.mp hrole).1
      have hsupported : isSupportedRole role = true := (Option.filter_eq_some_iff.mp hrole).2
      rw [messageImages, hfield]
      dsimp only at h
      split_ifs at h with hinstruction htool huser
      · obtain ⟨-, -, h⟩ := bind_eq_ok.mp h
        cases h
        have hitems (text : Bytes) : (input.addInstruction text).items = input.items := by
          unfold ChatInput.addInstruction
          split_ifs
          · rfl
          · split <;> rfl
        rw [hitems]
        obtain rfl | rfl := hinstruction <;> exact (List.append_nil _).symm
      · subst htool
        obtain ⟨item, hitem, h⟩ := bind_eq_ok.mp h
        cases h
        rw [ChatInput.addItems, List.flatMap_append, List.flatMap_singleton, itemImages_toolOutputItem hitem]
        rfl
      · subst huser
        obtain ⟨parts, hparts, h⟩ := bind_eq_ok.mp h
        cases h
        rw [if_pos rfl, ChatInput.addItems, List.flatMap_append, List.flatMap_singleton, itemImages_messageItem,
          partImages_toUserInputParts hparts]
      · obtain ⟨parts, hparts, h⟩ := bind_eq_ok.mp h
        obtain ⟨calls, hcalls, h⟩ := bind_eq_ok.mp h
        cases h
        obtain hrole | hrole | hrole | hassistant | hrole := role_cases hsupported
        · exact absurd (.inl hrole) hinstruction
        · exact absurd (.inr hrole) hinstruction
        · exact absurd hrole huser
        · subst hassistant
          rw [if_neg (by decide), if_pos rfl, ChatInput.addItems, List.flatMap_append, List.flatMap_cons,
            itemImages_messageItem, itemImages_toolCallItems hcalls, List.append_nil, partImages_toInputParts hparts]
        · exact absurd hrole htool
  · cases h

theorem itemImages_convertMessages {messages : List Json} {input : ChatInput}
    (h : convertMessages messages = .ok input) :
    input.items.flatMap itemImages = (messages.flatMap messageImages).filterMap RequestImage.kept := by
  have hcollect := foldlM_collects collects_eq (fun s a s' heq => (itemImages_convertMessage s a s' heq).symm) h
  rw [List.filterMap_flatMap, ← hcollect]
  rfl

theorem bodyImages_responsesPayload {object payload : JsonObject} {messages : List Json}
    (h : responsesPayload object messages = .ok payload) :
    bodyImages payload = (messages.flatMap messageImages).filterMap RequestImage.kept := by
  obtain ⟨input, hinput, h⟩ := bind_eq_ok.mp h
  obtain ⟨mapped, -, h⟩ := bind_eq_ok.mp h
  obtain ⟨normalized, -, h⟩ := bind_eq_ok.mp h
  cases h
  rw [← itemImages_convertMessages hinput, bodyImages, arrayField, setInput, JsonObject.find?_set, if_neg (by decide),
    JsonObject.find?_set, if_neg (by decide), JsonObject.find?_set, if_pos rfl]
  dsimp only
  split_ifs with hitems
  · rw [hitems, List.flatMap_singleton, fallbackItem, itemImages_messageItem, List.flatMap_singleton,
      partImages_inputTextPart]
    rfl
  · rfl

end Messages

section Request

variable {lib : JsonLibrary} {raw : Bytes} {transform : ChatRequestTransform}

theorem transformChatRequest_ok (h : transformChatRequest lib raw = .ok transform) :
    ∃ object messages payload, lib.read raw = some (.object object) ∧
      JsonObject.find? object (ofString "messages") = some (.array messages) ∧
        responsesPayload object messages = .ok payload ∧
      lib.write (.object payload) = some transform.responsesBody := by
  obtain ⟨object, hobject, h⟩ := bind_eq_ok.mp h
  obtain ⟨model, -, h⟩ := bind_eq_ok.mp h
  obtain ⟨messages, hmessages, h⟩ := bind_eq_ok.mp h
  obtain ⟨payload, hpayload, h⟩ := bind_eq_ok.mp h
  refine ⟨object, messages, payload, ?_, ?_, hpayload, ?_⟩
  · unfold requestFields at hobject
    split at hobject
    · next hread =>
      cases hobject
      exact hread
    · cases hobject
  · unfold requiredMessages at hmessages
    split at hmessages
    · next hfind =>
      cases hmessages
      exact hfind
    · cases hmessages
  · split at h
    · cases h
    · next hwrite =>
      cases h
      exact hwrite

/-- No image above the limit is sent exactly where each one in the messages has a form that is measured, and a URL whose
measure is above the limit too. -/
theorem oversized_images_stay_iff (h : transformChatRequest lib raw = .ok transform) :
    ∃ object messages body, lib.read raw = some (.object object) ∧
      JsonObject.find? object (ofString "messages") = some (.array messages) ∧
      responsesPayload object messages = .ok body ∧ lib.write (.object body) = some transform.responsesBody ∧
      ((∀ url ∈ bodyImages body, ¬ Oversized url) ↔
        ∀ image ∈ messages.flatMap messageImages, Oversized image.url →
          image.measured = true ∧ isOversizedDataUrl image.url = true) := by
  obtain ⟨object, messages, body, hread, hmessages, hbody, hwrite⟩ := transformChatRequest_ok h
  refine ⟨object, messages, body, hread, hmessages, hbody, hwrite, ?_⟩
  rw [bodyImages_responsesPayload hbody]
  constructor
  · intro hnone image himage hover
    by_contra hmeasured
    have hkept : image.kept = some image.url := if_neg (by simpa using hmeasured)
    exact hnone image.url (List.mem_filterMap.mpr ⟨image, himage, hkept⟩) hover
  · intro hcaught url hurl hover
    obtain ⟨image, himage, hkept⟩ := List.mem_filterMap.mp hurl
    unfold RequestImage.kept at hkept
    split_ifs at hkept with hmeasured
    cases hkept
    obtain ⟨hform, hurl⟩ := hcaught image himage hover
    exact hmeasured (by rw [hform, hurl]; rfl)

end Request

section Samples

def imagePart (url : Bytes) : Json :=
  .object [(ofString "image_url", .string url), (ofString "type", .string (ofString "input_image"))]

def userMessage (parts : List Json) : Json :=
  .object [(ofString "content", .array parts), (ofString "role", .string (ofString "user"))]

def imageRequest (url : Bytes) : JsonObject :=
  [(ofString "messages", .array [userMessage [imagePart url]]), (ofString "model", .string (ofString "m"))]

def imageBody (url : Bytes) : JsonObject :=
  [(ofString "input", .array [userMessage [imagePart url]]), (ofString "instructions", .string []),
    (ofString "model", .string (ofString "m")), (ofString "stream", .boolean true)]

def messagesText (url : Bytes) : Bytes :=
  ofString "[\x7b\"content\":[\x7b\"image_url\":\"" ++ url ++
    ofString "\",\"type\":\"input_image\"\x7d],\"role\":\"user\"\x7d]"

def imageRequestText (url : Bytes) : Bytes :=
  ofString "\x7b\"messages\":" ++ messagesText url ++ ofString ",\"model\":\"m\"\x7d"

def imageBodyText (url : Bytes) : Bytes :=
  ofString "\x7b\"input\":" ++ messagesText url ++ ofString ",\"instructions\":\"\",\"model\":\"m\",\"stream\":true\x7d"

def imageLibrary (url : Bytes) : JsonLibrary where
  read text := if text = imageRequestText url then some (.object (imageRequest url)) else none
  write json := if json = .object (imageBody url) then some (imageBodyText url) else none

theorem responsesPayload_imageRequest (url : Bytes) :
    responsesPayload (imageRequest url) [userMessage [imagePart url]] = .ok (imageBody url) := by
  rfl

theorem transformChatRequest_imageRequest (url : Bytes) :
    transformChatRequest (imageLibrary url) (imageRequestText url) =
      .ok { model := ofString "m", streamRequested := false, includeUsage := false,
            responsesBody := imageBodyText url } := by
  have hread : (imageLibrary url).read (imageRequestText url) = some (.object (imageRequest url)) := if_pos rfl
  have hwrite : (imageLibrary url).write (.object (imageBody url)) = some (imageBodyText url) := if_pos rfl
  have hfields : requestFields (imageLibrary url) (imageRequestText url) = .ok (imageRequest url) := by
    rw [requestFields, hread]
  have hmodel : requiredModel (imageRequest url) = .ok (ofString "m") := rfl
  have hmessages : requiredMessages (imageRequest url) = .ok [userMessage [imagePart url]] := rfl
  refine bind_eq_ok.mpr ⟨_, hfields, bind_eq_ok.mpr ⟨_, hmodel, bind_eq_ok.mpr ⟨_, hmessages, bind_eq_ok.mpr
    ⟨_, responsesPayload_imageRequest url, ?_⟩⟩⟩⟩
  rw [hwrite]
  rfl

def smallUrl : Bytes := ofString "data:image/png;base64,QUJD"

theorem oversized_images_stay_imageRequest :
    ∃ object messages body,
      (imageLibrary smallUrl).read (imageRequestText smallUrl) = some (.object object) ∧
      JsonObject.find? object (ofString "messages") = some (.array messages) ∧
      responsesPayload object messages = .ok body ∧
      (imageLibrary smallUrl).write (.object body) = some (imageBodyText smallUrl) ∧
      ((∀ url ∈ bodyImages body, ¬ Oversized url) ↔
        ∀ image ∈ messages.flatMap messageImages, Oversized image.url →
          image.measured = true ∧ isOversizedDataUrl image.url = true) :=
  oversized_images_stay_iff (transformChatRequest_imageRequest _)

def oversizedUrl : Bytes := ofString "data:image/png;base64," ++ List.replicate 11184816 65

theorem oversized_oversizedUrl : Oversized oversizedUrl := by
  have hpayload (digits : Bytes) : base64Payload (ofString "data:image/png;base64," ++ digits) = some digits := rfl
  refine ⟨_, _, hpayload _, Base64.decode_replicate (by decide : Base64.sextet? 65 = some 0) _, ?_⟩
  rw [Base64.length_fromSextets, List.length_replicate, kMaxImageDataUrlBytes]
  norm_num

/-- An image that a user gives as an `input_image` part is sent whatever its size. -/
theorem oversized_input_image_is_sent :
    transformChatRequest (imageLibrary oversizedUrl) (imageRequestText oversizedUrl) =
      .ok { model := ofString "m", streamRequested := false, includeUsage := false,
            responsesBody := imageBodyText oversizedUrl } ∧
    (imageLibrary oversizedUrl).write (.object (imageBody oversizedUrl)) = some (imageBodyText oversizedUrl) ∧
    oversizedUrl ∈ bodyImages (imageBody oversizedUrl) ∧ Oversized oversizedUrl := by
  have hurl (url : Bytes) (h : url ≠ []) : bodyImages (imageBody url) = [url] := by
    have hpart : partImages (imagePart url) = [url] := partImages_of_string rfl rfl h
    have hitems : bodyImages (imageBody url) = (partImages (imagePart url) ++ []) ++ [] := rfl
    rw [hitems, hpart]
    rfl
  have hne : oversizedUrl ≠ [] := List.append_ne_nil_of_left_ne_nil (by decide) _
  have hwrite (url : Bytes) : (imageLibrary url).write (.object (imageBody url)) =
      some (imageBodyText url) := if_pos rfl
  refine ⟨transformChatRequest_imageRequest _, hwrite _, ?_, oversized_oversizedUrl⟩
  rw [hurl _ hne]
  exact List.mem_singleton_self _

end Samples

end Tightrope.Proxy.Chat
