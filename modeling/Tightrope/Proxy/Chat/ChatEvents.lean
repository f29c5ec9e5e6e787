import Tightrope.Proxy.Chat.ToolCalls
import Tightrope.Proxy.Openai.PayloadText

namespace Tightrope.Proxy.Chat

open Bytes Tightrope.Core

structure ChatDelta where
  role : Option Bytes := none
  content : Option Bytes := none
  toolCalls : List ToolCallChunk := []
  deriving DecidableEq, Repr

structure ChatChunk where
  id : Bytes
  model : Bytes
  delta : ChatDelta
  finishReason : Option Bytes := none
  -- `"usage": null`
  nullUsage : Bool
  deriving DecidableEq, Repr

inductive ChatEvent where
  | chunk (chunk : ChatChunk)
  | usage (id model : Bytes) (usage : JsonObject)
  | failure (error : Json)
  | envelope (text : Bytes)
  | done

def finishReasonFromIncomplete (response : Json) : Bytes :=
  let details := (response.object?.bind (·.find? (ofString "incomplete_details"))).bind Json.object?
  match details.bind (·.string? (ofString "reason")) with
  | none => ofString "stop"
  | some reason =>
    if reason = ofString "max_output_tokens" ∨ reason = ofString "max_tokens" then ofString "length"
    else if reason = ofString "content_filter" then ofString "content_filter"
    else ofString "stop"

def chatUsageFromResponseUsage (usage : Json) : JsonObject :=
  let fields := [("input_tokens", "prompt_tokens"), ("output_tokens", "completion_tokens"),
    ("total_tokens", "total_tokens")]
  fields.foldl (fun mapped (source, target) =>
    match usage.object?.bind (·.find? (ofString source)) with
    | some value => mapped.set (ofString target) value
    | none => mapped) []

section Converter

structure ConverterState where
  chunkId : Bytes := ofString "chatcmpl_temp"
  sentRole : Bool := false
  sawToolCall : Bool := false
  toolIndex : ToolCallIndex := {}
  toolStates : ℕ → ToolCallState := fun _ => {}

def roleOf (state : ConverterState) : Option Bytes := if state.sentRole then none else some (ofString "assistant")

def upstreamError : Json :=
  .object [(ofString "code", .string (ofString "upstream_error")),
    (ofString "message", .string (ofString "Upstream error")), (ofString "type", .string (ofString "server_error"))]

def failureOf (type : Bytes) (object : JsonObject) : Json :=
  let error :=
    if type = failedType then
      ((object.find? (ofString "response")).bind Json.object?).bind (·.find? (ofString "error"))
    else object.find? (ofString "error")
  error.getD upstreamError

variable (model : Bytes) (includeUsage : Bool)

def convertText (state : ConverterState) (object : JsonObject) : ConverterState × List ChatEvent :=
  let delta : ChatDelta := { role := roleOf state, content := some ((object.string? (ofString "delta")).getD []) }
  ({ state with sentRole := true }, [.chunk { id := state.chunkId, model, delta, nullUsage := includeUsage }])

def convertToolCall (state : ConverterState) (object : JsonObject) : Option (ConverterState × Option ChatEvent) :=
  (extractToolCallDelta object state.toolIndex).map fun (delta, toolIndex) =>
    let (toolStates, normalized) := mergeToolCallDelta state.toolStates delta
    let state := { state with toolIndex, toolStates }
    match normalized with
    | none => (state, none)
    | some normalized =>
      let delta : ChatDelta := { role := roleOf state, toolCalls := [toolCallDeltaToChunk normalized] }
      ({ state with sentRole := true, sawToolCall := true },
        some (.chunk { id := state.chunkId, model, delta, nullUsage := includeUsage }))

def finalEvents (state : ConverterState) (type : Bytes) (object : JsonObject) : List ChatEvent :=
  let response := object.find? (ofString "response")
  let responseObject := response.bind Json.object?
  let id := ((responseObject.bind (·.string? (ofString "id"))).filter (· ≠ [])).getD state.chunkId
  let usage := (responseObject.bind (·.find? (ofString "usage"))).getD (.object [])
  let finishReason :=
    if state.sawToolCall then ofString "tool_calls"
    else
      match response with
      | some response => if type = incompleteType then finishReasonFromIncomplete response else ofString "stop"
      | none => ofString "stop"
  [.chunk { id, model, delta := {}, finishReason := some finishReason, nullUsage := includeUsage }] ++
    (if includeUsage then [.usage id model (chatUsageFromResponseUsage usage)] else []) ++ [.done]

def closingEvents (state : ConverterState) (type : Bytes) (object : JsonObject) : Option (List ChatEvent) :=
  if type = failedType ∨ type = errorType then some [.failure (failureOf type object), .done]
  else if type = completedType ∨ type = incompleteType then some (finalEvents model includeUsage state type object)
  else none

def convertEvent (state : ConverterState) (object : JsonObject) : List ChatEvent × Option ConverterState :=
  match object.string? typeKey with
  | none => ([], some state)
  | some type =>
    if type = textDeltaType then
      let (state, out) := convertText model includeUsage state object
      (out, some state)
    else
      let close (state : ConverterState) (out : List ChatEvent) : List ChatEvent × Option ConverterState :=
        match closingEvents model includeUsage state type object with
        | some closing => (out ++ closing, none)
        | none => (out, some state)
      match convertToolCall model includeUsage state object with
      | none => close state []
      | some (state, none) => ([], some state)
      | some (state, some chunk) => close state [chunk]

def convertEvents : ConverterState → List JsonObject → List ChatEvent
  | _, [] =>
    [.envelope (Openai.buildErrorEnvelope (ofString "upstream_error") (ofString "Upstream stream was incomplete")
      (ofString "server_error") []), .done]
  | state, object :: objects =>
    match convertEvent model includeUsage state object with
    | (out, some state) => out ++ convertEvents state objects
    | (out, none) => out

def responsesEventsToChatEvents (lib : JsonLibrary) (events : List Bytes) : List ChatEvent :=
  convertEvents model includeUsage {} (events.filterMap lib.readObject)

end Converter

end Tightrope.Proxy.Chat
