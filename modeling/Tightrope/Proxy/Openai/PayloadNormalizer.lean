import Tightrope.Core.Ascii
import Tightrope.Core.Json
import Tightrope.Proxy.Openai.PayloadText

namespace Tightrope.Proxy.Openai

open Bytes Tightrope.Core

abbrev Normalized (α : Type) := Except Bytes α

def modelKey : Bytes := ofString "model"

def kUnsupportedUpstreamFields : List Bytes :=
  [ofString "max_output_tokens", ofString "prompt_cache_retention", ofString "safety_identifier",
    ofString "temperature"]

def kInterleavedReasoningKeys : List Bytes :=
  [ofString "reasoning_content", ofString "reasoning_details", ofString "tool_calls", ofString "function_call"]

def kInterleavedReasoningPartTypes : List Bytes :=
  [ofString "reasoning", ofString "reasoning_content", ofString "reasoning_details"]

def kAssistantTextPartTypes : List Bytes := [ofString "text", ofString "input_text", ofString "output_text"]

def kAllowedCompactFields : List Bytes :=
  [modelKey, ofString "input", ofString "instructions", ofString "tools", ofString "parallel_tool_calls",
    ofString "reasoning", ofString "text"]

def textPart (type text : Bytes) : Json :=
  .object (JsonObject.set (JsonObject.set [] (ofString "type") (.string type)) (ofString "text") (.string text))

def normalizedInputText (text : Bytes) : List Json :=
  [.object (JsonObject.set (JsonObject.set [] (ofString "role") (.string (ofString "user")))
    (ofString "content") (.array [textPart (ofString "input_text") text]))]

def isAssistantRole (role : Bytes) : Bool := role = ofString "assistant"

def isInputTextRole (role : Bytes) : Bool :=
  role = ofString "user" || role = ofString "system" || role = ofString "developer"

def textPartTypeForRole (role : Bytes) : Bytes :=
  if isAssistantRole role then ofString "output_text" else ofString "input_text"

def isInputFileWithId (object : JsonObject) : Bool :=
  object.string? (ofString "type") = some (ofString "input_file") &&
    match object.string? (ofString "file_id") with
    | none => false
    | some fileId => !fileId.isEmpty

def hasInputFileId (items : List Json) : Bool :=
  items.any fun
    | .object item => isInputFileWithId item ||
      match JsonObject.find? item (ofString "content") with
      | some (.array parts) => parts.any fun
        | .object part => isInputFileWithId part
        | _ => false
      | some (.object content) => isInputFileWithId content
      | _ => false
    | _ => false

def sanitizeInterleavedReasoningContentPart : Json → Option Json
  | .object part =>
    if (JsonObject.string? part (ofString "type")).any kInterleavedReasoningPartTypes.contains then none
    else some (.object (kInterleavedReasoningKeys.foldl JsonObject.erase part))
  | part => some part

def sanitizeInterleavedReasoningContent : Json → Option Json
  | .array parts => some (.array (parts.filterMap sanitizeInterleavedReasoningContentPart))
  | .object content => sanitizeInterleavedReasoningContentPart (.object content)
  | content => some content

def extractTextContentPart (allowedTypes : List Bytes) (allowRefusal : Bool) : Json → Option Bytes
  | .object part =>
    let type := JsonObject.string? part (ofString "type")
    let text := JsonObject.string? part (ofString "text")
    if text.isSome && type.all allowedTypes.contains then text
    else if allowRefusal && type = some (ofString "refusal") then JsonObject.string? part (ofString "refusal")
    else none
  | _ => none

def normalizedPart (role : Bytes) (part : Json) : Json :=
  match extractTextContentPart kAssistantTextPartTypes false part with
  | some text => textPart (textPartTypeForRole role) text
  | none => part

def normalizeMessageContentForRole (role : Bytes) : Json → Json
  | .string text => .array [textPart (textPartTypeForRole role) text]
  | .array parts => .array (parts.map fun
    | .string text => textPart (textPartTypeForRole role) text
    | part => normalizedPart role part)
  | .object content => .array [normalizedPart role (.object content)]
  | content => content

def nonemptyString? (object : JsonObject) (key : Bytes) : Option Bytes :=
  (object.string? key).filter fun value => !value.isEmpty

def resolveToolCallId (object : JsonObject) : Option Bytes :=
  (nonemptyString? object (ofString "tool_call_id")).or
    ((nonemptyString? object (ofString "toolCallId")).or (nonemptyString? object (ofString "call_id")))

def functionCallOutput (item : JsonObject) (callId : Bytes) : Json :=
  let output := match item.find? (ofString "output") with
    | some output => if output.isNull then item.find? (ofString "content") else some output
    | none => item.find? (ofString "content")
  let text := match output with
    | some output => if output.isNull then .string [] else output
    | none => .string []
  let typed := JsonObject.set [] (ofString "type") (.string (ofString "function_call_output"))
  .object (JsonObject.set (typed.set (ofString "call_id") (.string callId)) (ofString "output") text)

def normalizeRoleInputItem : Json → Normalized Json
  | .object item =>
    match JsonObject.string? item (ofString "role") with
    | none => .ok (.object item)
    | some role =>
      if isAssistantRole role || isInputTextRole role then
        match JsonObject.find? item (ofString "content") with
        | none => .ok (.object item)
        | some content =>
          .ok (.object (JsonObject.set item (ofString "content") (normalizeMessageContentForRole role content)))
      else if role ≠ ofString "tool" then .ok (.object item)
      else match resolveToolCallId item with
        | none => .error (ofString "tool input items must include 'tool_call_id'")
        | some callId => .ok (functionCallOutput item callId)
  | item => .ok item

def sanitizeItemField (sanitized : JsonObject) (field : Bytes × Json) : JsonObject :=
  if kInterleavedReasoningKeys.contains field.1 then sanitized
  else if field.1 = ofString "content" then
    match sanitizeInterleavedReasoningContent field.2 with
    | none => sanitized
    | some content => sanitized.set field.1 content
  else sanitized.set field.1 field.2

def sanitizeInputItem : Json → Normalized Json
  | .object item => normalizeRoleInputItem (.object (item.foldl sanitizeItemField []))
  | item => normalizeRoleInputItem item

def sanitizeInputItems (items : List Json) : Normalized (List Json) := items.mapM sanitizeInputItem

def inputItems (payload : JsonObject) : Normalized (List Json) :=
  match payload.find? (ofString "input") with
  | none => .error (ofString "request payload missing required field: input")
  | some (.string text) => .ok (normalizedInputText text)
  | some (.array items) => .ok items
  | some _ => .error (ofString "request payload field 'input' must be a string or array")

def normalizeInputField (payload : JsonObject) : Normalized JsonObject := do
  let items ← inputItems payload
  if hasInputFileId items then .error (ofString "input_file.file_id is not supported")
  else
    let sanitized ← sanitizeInputItems items
    return payload.set (ofString "input") (.array sanitized)

def setDefault (key : Bytes) (value : Json) (payload : JsonObject) : JsonObject :=
  if payload.hasField key then payload else payload.set key value

def booleanField (key : Bytes) (default : Bool) (payload : JsonObject) : Normalized JsonObject :=
  match payload.find? key with
  | none | some .null => .ok (payload.set key (.boolean default))
  | some (.boolean _) => .ok payload
  | some _ => .error (key ++ ofString " must be a boolean")

def normalizeInstructions (payload : JsonObject) : JsonObject :=
  if (payload.string? (ofString "instructions")).isSome then payload
  else payload.set (ofString "instructions") (.string [])

def normalizeRequestBaseFields (compactMode : Bool) (payload : JsonObject) : Normalized JsonObject :=
  match payload.string? modelKey with
  | none | some [] => .error (ofString "request payload missing required field: model")
  | some (_ :: _) => do
    let payload ← normalizeInputField payload
    let payload := normalizeInstructions payload
    if compactMode then return setDefault (ofString "store") (.boolean false) payload
    else
      let payload := setDefault (ofString "tools") (.array []) payload
      let payload := setDefault (ofString "include") (.array []) payload
      let payload := setDefault (ofString "store") (.boolean false) payload
      let payload ← booleanField (ofString "stream") true payload
      let payload ← booleanField (ofString "parallel_tool_calls") false payload
      return setDefault (ofString "tool_choice") (.string (ofString "auto")) payload

def popStringField (payload : JsonObject) (key : Bytes) : Option Bytes × JsonObject :=
  (payload.string? key, payload.erase key)

def setAlias (key : Bytes) (value : Option Bytes) (payload : JsonObject) : JsonObject :=
  match value with
  | none => payload
  | some value => setDefault key (.string value) payload

def objectField (payload : JsonObject) (key : Bytes) : JsonObject := ((payload.find? key).bind Json.object?).getD []

def setNonempty (key : Bytes) (fields payload : JsonObject) : JsonObject :=
  if fields.isEmpty then payload else payload.set key (.object fields)

def normalizeOpenaiCompatibleAliases (payload : JsonObject) : JsonObject :=
  let (reasoningEffort, payload) := popStringField payload (ofString "reasoningEffort")
  let (reasoningSummary, payload) := popStringField payload (ofString "reasoningSummary")
  let (textVerbosity, payload) := popStringField payload (ofString "textVerbosity")
  let (topLevelVerbosity, payload) := popStringField payload (ofString "verbosity")
  let (promptCacheKey, payload) := popStringField payload (ofString "promptCacheKey")
  let (promptCacheRetention, payload) := popStringField payload (ofString "promptCacheRetention")
  let payload := setAlias (ofString "prompt_cache_key") promptCacheKey payload
  let payload := setAlias (ofString "prompt_cache_retention") promptCacheRetention payload
  let reasoning := setAlias (ofString "summary") reasoningSummary
    (setAlias (ofString "effort") reasoningEffort (objectField payload (ofString "reasoning")))
  let payload := setNonempty (ofString "reasoning") reasoning payload
  let text := setAlias (ofString "verbosity") topLevelVerbosity
    (setAlias (ofString "verbosity") textVerbosity (objectField payload (ofString "text")))
  setNonempty (ofString "text") text payload

def validateAndNormalizeStore (payload : JsonObject) : Normalized JsonObject :=
  booleanField (ofString "store") false payload

def validateAndNormalizeInclude (payload : JsonObject) : Normalized JsonObject :=
  match payload.find? (ofString "include") with
  | none => .ok payload
  | some .null => .ok (payload.set (ofString "include") (.array []))
  | some (.array values) =>
    if values.all fun value => value.string?.isSome then .ok payload
    else .error (ofString "include values must be strings")
  | some _ => .error (ofString "include must be an array")

def normalizeToolTypeAlias (toolType : Bytes) : Bytes :=
  if toolType = ofString "web_search_preview" then ofString "web_search" else toolType

def normalizeTypeAlias : Json → Json
  | .object tool =>
    match JsonObject.string? tool (ofString "type") with
    | none => .object tool
    | some type => .object (JsonObject.set tool (ofString "type") (.string (normalizeToolTypeAlias type)))
  | tool => tool

def validateAndNormalizeTools (payload : JsonObject) : Normalized JsonObject :=
  match payload.find? (ofString "tools") with
  | none => .ok payload
  | some .null => .ok (payload.set (ofString "tools") (.array []))
  | some (.array tools) =>
    let payload := payload.set (ofString "tools") (.array (tools.map normalizeTypeAlias))
    match payload.find? (ofString "tool_choice") with
    | some (.object choice) => .ok (payload.set (ofString "tool_choice") (normalizeTypeAlias (.object choice)))
    | _ => .ok payload
  | some _ => .error (ofString "tools must be an array")

def normalizeTruncation (payload : JsonObject) : JsonObject :=
  match payload.find? (ofString "truncation") with
  | some .null => payload.erase (ofString "truncation")
  | _ => payload

def normalizePreviousResponseId (payload : JsonObject) : Normalized JsonObject :=
  match payload.find? (ofString "previous_response_id") with
  | none => .ok payload
  | some .null => .ok (payload.erase (ofString "previous_response_id"))
  | some (.string value) =>
    if trimAscii value = [] then .ok (payload.erase (ofString "previous_response_id"))
    else .ok (payload.set (ofString "previous_response_id") (.string (trimAscii value)))
  | some _ => .error (ofString "previous_response_id must be a string")

def validateAndNormalizeResponsesFields (payload : JsonObject) : Normalized JsonObject := do
  let payload ← normalizePreviousResponseId (normalizeTruncation payload)
  if (nonemptyString? payload (ofString "conversation")).isSome &&
      (nonemptyString? payload (ofString "previous_response_id")).isSome then
    .error (ofString "Provide either 'conversation' or 'previous_response_id', not both.")
  else return payload

def normalizeServiceTierAlias (serviceTier : Bytes) : Bytes :=
  if equalsCaseInsensitive (trimAscii serviceTier) (ofString "fast") then ofString "priority" else serviceTier

def normalizeServiceTier (payload : JsonObject) : JsonObject :=
  match payload.string? (ofString "service_tier") with
  | none => payload
  | some tier => payload.set (ofString "service_tier") (.string (normalizeServiceTierAlias tier))

def compactObjectField (key : Bytes) (payload : JsonObject) : Normalized JsonObject :=
  match payload.find? key with
  | none | some (.object _) => .ok payload
  | some .null => .ok (payload.erase key)
  | some _ => .error (key ++ ofString " must be an object")

def compactTools (payload : JsonObject) : Normalized JsonObject :=
  match payload.find? (ofString "tools") with
  | none => .ok (payload.set (ofString "tools") (.array []))
  | some (.array _) => .ok payload
  | some _ => .error (ofString "tools must be an array")

def normalizeCompactContractFields (payload : JsonObject) : Normalized JsonObject := do
  let payload ← compactTools payload
  let payload ← booleanField (ofString "parallel_tool_calls") false payload
  let payload ← compactObjectField (ofString "reasoning") payload
  let payload ← compactObjectField (ofString "text") payload
  return payload.filter fun field => kAllowedCompactFields.contains field.1

def normalizeFields (compactMode : Bool) (payload : JsonObject) : Normalized JsonObject := do
  let payload ← normalizeRequestBaseFields compactMode payload
  let payload := normalizeOpenaiCompatibleAliases payload
  if compactMode then
    normalizeCompactContractFields
      (kUnsupportedUpstreamFields.foldl JsonObject.erase (payload.erase (ofString "store")))
  else
    let payload ← validateAndNormalizeStore payload
    let payload ← validateAndNormalizeInclude payload
    let payload ← validateAndNormalizeTools payload
    let payload ← validateAndNormalizeResponsesFields payload
    return kUnsupportedUpstreamFields.foldl JsonObject.erase (normalizeServiceTier payload)

def requestJson (lib : JsonLibrary) (rawRequestBody : Bytes) : Option Json :=
  let candidate := sanitizeRequestJsonBytes rawRequestBody
  match lib.read candidate with
  | some json => some json
  | none => lib.read (((tryExtractJsonObjectSlice candidate).map sanitizeRequestJsonBytes).getD candidate)

def requestObject (lib : JsonLibrary) (rawRequestBody : Bytes) : Normalized JsonObject :=
  match requestJson lib rawRequestBody with
  | none => .error (ofString "request payload is not valid JSON")
  | some (.object payload) => .ok payload
  | some _ => .error (ofString "request payload must be a JSON object")

def serializeNormalized (lib : JsonLibrary) (payload : JsonObject) : Normalized Bytes :=
  match lib.write (.object payload) with
  | none => .error (ofString "failed to serialize normalized request payload")
  | some text => .ok (sanitizeSerializedJson text)

def normalizeWithStrategy (lib : JsonLibrary) (rawRequestBody : Bytes) (compactMode : Bool) : Normalized Bytes := do
  let payload ← requestObject lib rawRequestBody
  let payload ← normalizeFields compactMode payload
  serializeNormalized lib payload

def normalizeRequest (lib : JsonLibrary) (rawRequestBody : Bytes) : Normalized Bytes :=
  normalizeWithStrategy lib rawRequestBody false

def normalizeCompactRequest (lib : JsonLibrary) (rawRequestBody : Bytes) : Normalized Bytes :=
  normalizeWithStrategy lib rawRequestBody true

end Tightrope.Proxy.Openai
