import Tightrope.Proxy.Chat.ChatEvents

namespace Tightrope.Proxy.Chat

open Bytes Tightrope.Core

section Collect

variable (lib : JsonLibrary) (toInt64 : UInt64 → ℤ)

def jsonArrayEmptyOrMissing (object : JsonObject) (key : Bytes) : Bool :=
  match object.find? key with
  | none => true
  | some (.array []) => true
  | some _ => false

def outputKey : Bytes := ofString "output"

def outputItem (object : JsonObject) : Option (ℤ × Json) :=
  match object.find? (ofString "output_index"), itemOf object with
  | some (.number index), some item => some (toInt64 index, .object item)
  | _, _ => none

def keepItem (items : FlatMap ℤ Json) (object : JsonObject) : FlatMap ℤ Json :=
  (outputItem toInt64 object).elim items fun item => items.insert item.1 item.2

def withOutput (items : FlatMap ℤ Json) (response : JsonObject) : JsonObject :=
  if jsonArrayEmptyOrMissing response outputKey ∧ items.entries ≠ [] then
    response.set outputKey (.array (items.entries.map (·.2)))
  else response

def collectBody : FlatMap ℤ Json → List JsonObject → Option Bytes
  | _, [] => none
  | items, object :: objects =>
    match object.string? typeKey with
    | none => collectBody items objects
    | some type =>
      if type = errorType then
        match object.find? (ofString "error") with
        | some error => lib.write (.object [(ofString "error", error)])
        | none => collectBody items objects
      else if type = addedType ∨ type = doneType then collectBody (keepItem toInt64 items object) objects
      else if type ≠ completedType ∧ type ≠ incompleteType ∧ type ≠ failedType then collectBody items objects
      else
        match (object.find? (ofString "response")).bind Json.object? with
        | some response => lib.write (.object (withOutput items response))
        | none => collectBody items objects

def collectResponseBodyFromStreamEvents (events : List Bytes) : Option Bytes :=
  collectBody lib toInt64 .empty (events.filterMap lib.readObject)

end Collect

section Completion

structure ProxyJsonResult where
  status : ℤ
  body : Bytes
  deriving DecidableEq

structure MessageToolCall where
  id : Option Bytes
  name : Option Bytes
  arguments : Option Bytes
  deriving DecidableEq

structure ChatCompletion where
  id : Bytes
  model : Bytes
  -- `none` for null.
  content : Option Bytes
  toolCalls : List MessageToolCall
  finishReason : Bytes
  usage : Option JsonObject

inductive ChatResult where
  | result (result : ProxyJsonResult)
  | completion (chat : ChatCompletion)

def partText? (part : Json) : Option Bytes :=
  part.object?.bind fun part =>
    match part.string? typeKey with
    | some type => if type = ofString "output_text" ∨ type = ofString "text" then
      part.string? (ofString "text") else none
    | none => none

def extractTextFromOutputItem (item : Json) : Bytes :=
  match item.object? with
  | none => []
  | some object =>
    if object.string? typeKey = some (ofString "output_text") then (object.string? (ofString "text")).getD []
    else
      match object.find? (ofString "content") with
      | some (.array parts) => (parts.filterMap partText?).flatten
      | _ => []

def messageToolCall (item : Json) : Option MessageToolCall :=
  item.object?.bind fun object =>
    match object.string? typeKey with
    | some type =>
      if type = ofString "function_call" ∨ type = ofString "tool_call" then
        some
          { id := (object.string? (ofString "call_id")).or
              ((object.string? (ofString "id")).or (object.string? (ofString "tool_call_id")))
            name := object.string? (ofString "name")
            arguments := object.string? (ofString "arguments") }
      else none
    | none => none

def outputItems (object : JsonObject) : List Json :=
  match object.find? outputKey with
  | some (.array items) => items
  | _ => []

def chatCompletion (model : Bytes) (object : JsonObject) : ChatCompletion :=
  let content := ((outputItems object).map extractTextFromOutputItem).flatten
  let toolCalls := (outputItems object).filterMap messageToolCall
  { id := ((object.string? (ofString "id")).filter (· ≠ [])).getD (ofString "chatcmpl_temp")
    model := ((object.string? (ofString "model")).filter (· ≠ [])).getD model
    content := if content ≠ [] ∨ toolCalls = [] then some content else none
    toolCalls := toolCalls
    finishReason :=
      if toolCalls ≠ [] then ofString "tool_calls"
      else if object.string? (ofString "status") = some (ofString "incomplete") then
        finishReasonFromIncomplete (.object object)
      else ofString "stop"
    usage := ((object.find? (ofString "usage")).map chatUsageFromResponseUsage).filter (· ≠ []) }

def responsesJsonToChatCompletion (lib : JsonLibrary) (upstream : ProxyJsonResult) (model : Bytes) : ChatResult :=
  if 400 ≤ upstream.status then .result upstream
  else
    match lib.readObject upstream.body with
    | none =>
      .result { status := 502
                body := Openai.buildErrorEnvelope (ofString "upstream_error") (ofString "Invalid upstream response")
                  (ofString "server_error") [] }
    | some object =>
      if object.hasField (ofString "error") then .result upstream
      else .completion (chatCompletion model object)

end Completion

end Tightrope.Proxy.Chat
