import Tightrope.Proxy.Openai.PayloadNormalizer

namespace Tightrope.Proxy.Chat

open Bytes Tightrope.Core Openai

inductive ChatError where
  | validation (message param : Bytes)
  | runtime (message : Bytes)
  deriving DecidableEq, Repr

abbrev ChatConverted (α : Type) := Except ChatError α

def kSupportedRoles : List Bytes :=
  [ofString "system", ofString "developer", ofString "user", ofString "assistant", ofString "tool"]

def kMaxImageDataUrlBytes : ℕ := 8 * 1024 * 1024

def kUnsupportedToolTypes : List Bytes :=
  [ofString "file_search", ofString "code_interpreter", ofString "computer_use", ofString "computer_use_preview",
    ofString "image_generation"]

def isSupportedRole (role : Bytes) : Bool := kSupportedRoles.contains role

def messagesError {α : Type} (message : String) : ChatConverted α :=
  .error (.validation (ofString message) (ofString "messages"))

def jsonBool (object : JsonObject) (key : Bytes) (default : Bool) : Bool :=
  match object.find? key with
  | some (.boolean value) => value
  | _ => default

def typedObject (type : Bytes) : JsonObject := JsonObject.set [] (ofString "type") (.string type)

def inputTextPart (text : Bytes) : Json := textPart (ofString "input_text") text

section Content

def inferContentPartType (object : JsonObject) : Bytes :=
  match nonemptyString? object (ofString "type") with
  | some type => type
  | none => if (object.string? (ofString "text")).isSome then ofString "text" else []

def isOversizedDataUrl (url : Bytes) : Bool :=
  startsWith url (ofString "data:") && url.contains 44 && containsText (url.takeWhile (· ≠ 44)) (ofString ";base64") &&
    let data := (url.dropWhile (· ≠ 44)).tail
    let padding := (data.reverse.takeWhile (· = 61)).length
    decide (data.length * 3 / 4 - padding > kMaxImageDataUrlBytes)

def isTextOnlyPart (object : JsonObject) : Bool :=
  (inferContentPartType object = [] || inferContentPartType object = ofString "text") &&
    (object.string? (ofString "text")).isSome

def ensureTextOnlyContent (content : Json) (role : Bytes) : ChatConverted Unit :=
  let textOnly := match content with
    | .null | .string _ => true
    | .array parts => parts.all fun
      | .string _ => true
      | .object part => isTextOnlyPart part
      | _ => false
    | .object part => isTextOnlyPart part
    | _ => false
  if textOnly then .ok ()
  else .error (.validation (role ++ ofString " messages must be text-only.") (ofString "messages"))

def contentPartText : Json → Option Bytes
  | .string text => some text
  | .object part => JsonObject.string? part (ofString "text")
  | _ => none

def joinText (joined text : Bytes) : Bytes := if joined = [] then text else joined ++ ofString "\n" ++ text

def flattenTextContent : Json → Bytes
  | .string text => text
  | .object part => (JsonObject.string? part (ofString "text")).getD []
  | .array parts => (parts.filterMap contentPartText).foldl joinText []
  | _ => []

def optionalToolCallId (object : JsonObject) : Option Bytes :=
  (object.string? (ofString "tool_call_id")).or
    ((object.string? (ofString "toolCallId")).or (object.string? (ofString "call_id")))

def normalizeToolOutputContent : Json → ChatConverted Bytes
  | .string text => .ok text
  | .array parts =>
    let output := (parts.filterMap contentPartText).flatten
    if output = [] ∧ parts ≠ [] then messagesError "tool message content array contains no valid text parts."
    else .ok output
  | _ => messagesError "tool message content must be a string or array."

def mapChatFilePart (object : JsonObject) : ChatConverted Json :=
  match object.find? (ofString "file") with
  | some (.object file) =>
    if (nonemptyString? file (ofString "file_id")).isSome then messagesError "Invalid request payload"
    else
      let mapped := typedObject (ofString "input_file")
      match nonemptyString? file (ofString "file_url") with
      | some fileUrl => .ok (.object (mapped.set (ofString "file_url") (.string fileUrl)))
      | none =>
        match (nonemptyString? file (ofString "file_data")).or (nonemptyString? file (ofString "data")) with
        | none => .ok (.object mapped)
        | some fileData =>
          let mimeType := ((nonemptyString? file (ofString "mime_type")).or
            (nonemptyString? file (ofString "content_type"))).getD (ofString "application/octet-stream")
          let fileUrl := ofString "data:" ++ mimeType ++ ofString ";base64," ++ fileData
          .ok (.object (mapped.set (ofString "file_url") (.string fileUrl)))
  | _ => messagesError "File content parts must include file metadata."

def inputImagePart (url : Bytes) : JsonObject :=
  JsonObject.set (typedObject (ofString "input_image")) (ofString "image_url") (.string url)

def imageUrlField (object : JsonObject) : Option Bytes × Option Bytes :=
  match object.find? (ofString "image_url") with
  | some (.object image) => (nonemptyString? image (ofString "url"), nonemptyString? image (ofString "detail"))
  | some (.string url) => (if url = [] then none else some url, none)
  | _ => (none, none)

-- `none` where the image is dropped.
def mapChatImagePart (object : JsonObject) : ChatConverted (Option Json) :=
  match imageUrlField object with
  | (none, _) => messagesError "Image content parts must include image_url.url."
  | (some url, detail) =>
    if isOversizedDataUrl url then .ok none
    else match detail with
      | none => .ok (some (.object (inputImagePart url)))
      | some detail => .ok (some (.object ((inputImagePart url).set (ofString "detail") (.string detail))))

def mapChatUserContentPart : Json → ChatConverted (Option Json)
  | .string text => .ok (some (inputTextPart text))
  | .object object =>
    let partType := inferContentPartType object
    if partType = ofString "text" ∨ partType = ofString "input_text" ∨ partType = ofString "output_text" then
      match JsonObject.string? object (ofString "text") with
      | none => messagesError "Text content parts must include a string 'text'."
      | some text => .ok (some (inputTextPart text))
    else if partType = ofString "image_url" then mapChatImagePart object
    else if partType = ofString "input_image" then .ok (some (.object object))
    else if partType = ofString "input_audio" then messagesError "Audio input is not supported."
    else if partType = ofString "file" then (mapChatFilePart object).map some
    else if partType = ofString "input_file" then
      if (nonemptyString? object (ofString "file_id")).isSome then messagesError "Invalid request payload"
      else .ok (some (.object object))
    else .error (.validation (ofString "Unsupported user content part type: " ++ partType) (ofString "messages"))
  | _ => messagesError "User message content parts must be objects."

def orEmptyText (parts : List Json) : List Json := if parts = [] then [inputTextPart []] else parts

def toUserInputParts : Json → ChatConverted (List Json)
  | .null => .ok [inputTextPart []]
  | .array parts => (parts.mapM mapChatUserContentPart).map fun mapped => orEmptyText (mapped.filterMap id)
  | content => (mapChatUserContentPart content).map fun mapped => orEmptyText mapped.toList

def nestedImage (object : JsonObject) : Option Bytes :=
  match object.find? (ofString "image_url") with
  | some (.object image) => nonemptyString? image (ofString "url")
  | _ => none

def parseContentPart : Json → ChatConverted (List Json)
  | .string text => .ok [inputTextPart text]
  | .object object =>
    let type := JsonObject.string? object (ofString "type")
    match (nestedImage object).filter fun _ => type = some (ofString "image_url") with
    | some url => .ok [.object (inputImagePart url)]
    | none =>
      if type = some (ofString "input_text") ∨ type = some (ofString "input_image") then .ok [.object object]
      else if type = some (ofString "file") then (mapChatFilePart object).map ([·])
      else match JsonObject.string? object (ofString "text") with
        | some text => .ok [inputTextPart text]
        | none => .ok []
  | _ => .ok []

def toInputParts : Json → ChatConverted (List Json)
  | .string text => .ok [inputTextPart text]
  | .array parts => (parts.mapM parseContentPart).map fun parsed => orEmptyText parsed.flatten
  | .object content => (parseContentPart (.object content)).map orEmptyText
  | _ => .ok [inputTextPart []]

end Content

section Messages

structure ChatInput where
  items : List Json := []
  -- `none` before the first instruction
  instructions : Option Bytes := none

def ChatInput.addItems (input : ChatInput) (items : List Json) : ChatInput :=
    { input with items := input.items ++ items }

def ChatInput.addInstruction (input : ChatInput) (text : Bytes) : ChatInput :=
  if text = [] then input
  else match input.instructions with
    | none => { input with instructions := some text }
    | some held => { input with instructions := some (held ++ ofString "\n" ++ text) }

def toolOutputItem (message : JsonObject) : ChatConverted Json :=
  match (optionalToolCallId message).filter (· ≠ []) with
  | none => messagesError "tool messages must include 'tool_call_id'."
  | some callId =>
    match message.find? (ofString "content") with
    | none | some .null => messagesError "tool message content is required."
    | some content =>
      (normalizeToolOutputContent content).map fun output =>
        let typed := typedObject (ofString "function_call_output")
        .object (JsonObject.set (typed.set (ofString "call_id") (.string callId)) (ofString "output") (.string output))

def functionCallItem (callId name arguments : Bytes) : Json :=
  let typed := typedObject (ofString "function_call")
  let called := JsonObject.set (typed.set (ofString "call_id") (.string callId)) (ofString "name") (.string name)
  .object (JsonObject.set called (ofString "arguments") (.string arguments))

def toolCallItem : Json → ChatConverted Json
  | .object toolCall =>
    match nonemptyString? toolCall (ofString "id") with
    | none => messagesError "tool_calls[].id is required."
    | some callId =>
      match JsonObject.find? toolCall (ofString "function") with
      | some (.object function) =>
        match nonemptyString? function (ofString "name") with
        | none => messagesError "tool_calls[].function.name is required."
        | some name =>
          match JsonObject.string? function (ofString "arguments") with
          | none => messagesError "tool_calls[].function.arguments must be a string."
          | some arguments => .ok (functionCallItem callId name arguments)
      | _ => messagesError "tool_calls[].function is required."
  | _ => messagesError "tool_calls entries must be objects."

def toolCallItems (message : JsonObject) : ChatConverted (List Json) :=
  match message.find? (ofString "tool_calls") with
  | some (.array toolCalls) => toolCalls.mapM toolCallItem
  | _ => .ok []

def messageItem (role : Bytes) (parts : List Json) : Json :=
  .object (JsonObject.set (JsonObject.set [] (ofString "role") (.string role)) (ofString "content") (.array parts))

def messageContent (message : JsonObject) : Json := (message.find? (ofString "content")).getD .null

def convertMessage (input : ChatInput) : Json → ChatConverted ChatInput
  | .object message =>
    match (JsonObject.string? message (ofString "role")).filter isSupportedRole with
    | none => messagesError "unsupported message role"
    | some role =>
      let content := messageContent message
      if role = ofString "system" ∨ role = ofString "developer" then do
        ensureTextOnlyContent content role
        return input.addInstruction (flattenTextContent content)
      else if role = ofString "tool" then do
        let item ← toolOutputItem message
        return input.addItems [item]
      else if role = ofString "user" then do
        let parts ← toUserInputParts content
        return input.addItems [messageItem role parts]
      else do
        let parts ← toInputParts content
        let calls ← toolCallItems message
        return input.addItems (messageItem role parts :: calls)
  | _ => messagesError "'messages' must contain objects."

def convertMessages (messages : List Json) : ChatConverted ChatInput := messages.foldlM convertMessage {}

def fallbackItem : Json := messageItem (ofString "user") [inputTextPart []]

end Messages

section Fields

def functionTool (toolType : Bytes) (function : JsonObject) : Option JsonObject :=
  (nonemptyString? function (ofString "name")).map fun name =>
    let named := JsonObject.set (typedObject toolType) (ofString "name") (.string name)
    let described := match function.string? (ofString "description") with
      | some description => JsonObject.set named (ofString "description") (.string description)
      | none => named
    match function.find? (ofString "parameters") with
    | some parameters => JsonObject.set described (ofString "parameters") parameters
    | none => described

def plainTool (toolType : Bytes) (tool : JsonObject) : Option JsonObject :=
  let normalized := tool.set (ofString "type") (.string toolType)
  if toolType = ofString "web_search" ∨ (nonemptyString? normalized (ofString "name")).isSome then some normalized
  else none

-- `none` where the tool is left out.
def normalizeChatTool : Json → ChatConverted (Option Json)
  | .object tool =>
    let toolType := normalizeToolTypeAlias ((nonemptyString? tool (ofString "type")).getD (ofString "function"))
    if kUnsupportedToolTypes.contains toolType then .error (.validation (ofString "Unsupported tool type") [])
    else match (JsonObject.find? tool (ofString "function")).bind Json.object? with
      | some function => .ok ((functionTool toolType function).map .object)
      | none => .ok ((plainTool toolType tool).map .object)
  | _ => .ok none

def normalizeChatToolsField (object : JsonObject) : ChatConverted JsonObject :=
  match object.find? (ofString "tools") with
  | none => .ok object
  | some (.array tools) =>
    (tools.mapM normalizeChatTool).map fun normalized =>
      object.set (ofString "tools") (.array (normalized.filterMap id))
  | some _ => .error (.validation (ofString "Unsupported tool type") [])

def normalizeChatToolChoice (choice : JsonObject) : JsonObject :=
  let type := nonemptyString? choice (ofString "type")
  match ((choice.find? (ofString "function")).bind Json.object?).bind (nonemptyString? · (ofString "name")) with
  | some name =>
    JsonObject.set (typedObject ((type.map normalizeToolTypeAlias).getD (ofString "function"))) (ofString "name")
      (.string name)
  | none =>
    match type with
    | some type => choice.set (ofString "type") (.string (normalizeToolTypeAlias type))
    | none => choice

def normalizeChatToolChoiceField (object : JsonObject) : JsonObject :=
  match object.find? (ofString "tool_choice") with
  | some (.object choice) => object.set (ofString "tool_choice") (.object (normalizeChatToolChoice choice))
  | _ => object

def isValidJsonSchemaName (name : Bytes) : Bool :=
  name ≠ [] && name.length ≤ 64 && name.all fun c =>
    (48 ≤ c && c ≤ 57) || (65 ≤ c && c ≤ 90) || (97 ≤ c && c ≤ 122) || c = 95 || c = 45

def formatError {α : Type} (message : Bytes) : ChatConverted α :=
    .error (.validation message (ofString "response_format"))

def jsonSchemaFormat (schema : JsonObject) : JsonObject :=
  let format := typedObject (ofString "json_schema")
  let format := match nonemptyString? schema (ofString "name") with
    | some name => format.set (ofString "name") (.string name)
    | none => format
  let format := match schema.find? (ofString "schema") with
    | some value => format.set (ofString "schema") value
    | none => format
  match schema.find? (ofString "strict") with
  | some (.boolean strict) => format.set (ofString "strict") (.boolean strict)
  | _ => format

def responseFormatToTextFormat : Json → ChatConverted Json
  | .string type =>
    if type = ofString "json_object" ∨ type = ofString "text" then .ok (.object (typedObject type))
    else if type = ofString "json_schema" then
      formatError (ofString "'response_format' must include 'json_schema' when type is 'json_schema'.")
    else formatError (ofString "Unsupported response_format.type: " ++ type)
  | .object format =>
    match nonemptyString? format (ofString "type") with
    | none => formatError (ofString "Unsupported response_format.type: ")
    | some type =>
      if type = ofString "json_object" ∨ type = ofString "text" then .ok (.object (typedObject type))
      else if type ≠ ofString "json_schema" then formatError (ofString "Unsupported response_format.type: " ++ type)
      else match JsonObject.find? format (ofString "json_schema") with
        | some (.object schema) =>
          if (nonemptyString? schema (ofString "name")).all isValidJsonSchemaName then
            .ok (.object (jsonSchemaFormat schema))
          else formatError (ofString "Invalid response_format.json_schema.name")
        | _ => formatError (ofString "'response_format.json_schema' is required when type is 'json_schema'.")
  | _ => formatError (ofString "'response_format' must be a string or object.")

def textControls (object : JsonObject) : ChatConverted JsonObject :=
  match object.find? (ofString "text") with
  | none => .ok []
  | some (.object text) =>
    if JsonObject.hasField text (ofString "format") then
      formatError (ofString "Provide either 'response_format' or 'text.format', not both.")
    else .ok text
  | some _ => .error (.validation (ofString "'text' must be an object when using 'response_format'.") (ofString "text"))

def applyResponseFormatMapping (object : JsonObject) : ChatConverted JsonObject :=
  match object.find? (ofString "response_format") with
  | none => .ok object
  | some responseFormat => do
    let controls ← textControls object
    let format ← responseFormatToTextFormat responseFormat
    let text := JsonObject.set controls (ofString "format") format
    return (object.set (ofString "text") (.object text)).erase (ofString "response_format")

def mapReasoningEffort (object : JsonObject) : JsonObject :=
  match object.string? (ofString "reasoning_effort") with
  | none => object
  | some effort =>
    let reasoning := setDefault (ofString "effort") (.string effort) (Openai.objectField object (ofString "reasoning"))
    (object.set (ofString "reasoning") (.object reasoning)).erase (ofString "reasoning_effort")

end Fields

section Transform

structure ChatRequestTransform where
  model : Bytes
  streamRequested : Bool
  includeUsage : Bool
  responsesBody : Bytes
  deriving DecidableEq, Repr

def requestFields (lib : JsonLibrary) (rawRequestBody : Bytes) : ChatConverted JsonObject :=
  match lib.read rawRequestBody with
  | some (.object object) => .ok object
  | _ => .error (.runtime (ofString "request payload is not valid JSON"))

def requiredModel (object : JsonObject) : ChatConverted Bytes :=
  match nonemptyString? object (ofString "model") with
  | some model => .ok model
  | none => .error (.runtime (ofString "request payload missing required field: model"))

def requiredMessages (object : JsonObject) : ChatConverted (List Json) :=
  match object.find? (ofString "messages") with
  | some (.array (message :: messages)) => .ok (message :: messages)
  | _ => .error (.runtime (ofString "'messages' must be a non-empty list."))

def streamOptions (object : JsonObject) : JsonObject := Openai.objectField object (ofString "stream_options")

def kErasedChatFields : List Bytes :=
  [ofString "messages", ofString "n", ofString "max_tokens", ofString "max_completion_tokens",
    ofString "stream_options"]

def keepObfuscation (options object : JsonObject) : JsonObject :=
  match options.find? (ofString "include_obfuscation") with
  | some (.boolean value) =>
    object.set (ofString "stream_options")
      (.object (JsonObject.set [] (ofString "include_obfuscation") (.boolean value)))
  | _ => object

def setInput (input : ChatInput) (object : JsonObject) : JsonObject :=
  let items := if input.items = [] then [fallbackItem] else input.items
  let object := object.set (ofString "input") (.array items)
  let object := object.set (ofString "instructions") (.string (input.instructions.getD []))
  object.set (ofString "stream") (.boolean true)

def responsesPayload (object : JsonObject) (messages : List Json) : ChatConverted JsonObject := do
  let input ← convertMessages messages
  let mapped ← applyResponseFormatMapping (mapReasoningEffort (kErasedChatFields.foldl JsonObject.erase object))
  let mapped ← normalizeChatToolsField mapped
  return setInput input (keepObfuscation (streamOptions object) (normalizeChatToolChoiceField mapped))

def transformChatRequest (lib : JsonLibrary) (rawRequestBody : Bytes) : ChatConverted ChatRequestTransform := do
  let object ← requestFields lib rawRequestBody
  let model ← requiredModel object
  let messages ← requiredMessages object
  let payload ← responsesPayload object messages
  match lib.write (.object payload) with
  | none => .error (.runtime (ofString "failed to serialize chat request"))
  | some text =>
    return {
      model
      streamRequested := jsonBool object (ofString "stream") false
      includeUsage := jsonBool (streamOptions object) (ofString "include_usage") false
      responsesBody := text }

end Transform

end Tightrope.Proxy.Chat
