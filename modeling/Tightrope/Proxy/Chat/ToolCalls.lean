import Tightrope.Core.Ascii
import Tightrope.Core.Json
import Mathlib.Logic.Function.Basic

namespace Tightrope.Proxy.Chat

open Bytes Tightrope.Core

inductive ArgumentsMode where
  | unknown
  | delta
  | snapshot
  deriving DecidableEq, Repr

structure ToolCallDelta where
  index : ℕ := 0
  callId : Option Bytes := none
  name : Option Bytes := none
  arguments : Option Bytes := none
  argumentsMode : ArgumentsMode := .unknown
  toolType : Option Bytes := none
  deriving DecidableEq, Repr

section Index

structure ToolCallIndex where
  indexes : FlatMap Bytes ℕ := .empty
  nextIndex : ℕ := 0

def indexKey (callId name : Option Bytes) : Option Bytes :=
  match callId.filter (· ≠ []), name.filter (· ≠ []) with
  | some callId, _ => some (ofString "id:" ++ callId)
  | none, some name => some (ofString "name:" ++ name)
  | none, none => none

def ToolCallIndex.indexFor (index : ToolCallIndex) (callId name : Option Bytes) : ℕ × ToolCallIndex :=
  match indexKey callId name with
  | none => (0, index)
  | some key =>
    match index.indexes.find? key with
    | some existing => (existing, index)
    | none => (index.nextIndex, ⟨index.indexes.insert key index.nextIndex, index.nextIndex + 1⟩)

end Index

section Extraction

def firstNonEmpty (values : List (Option Bytes)) : Option Bytes :=
  values.findSome? fun value => value.filter (· ≠ [])

def typeKey : Bytes := ofString "type"

def addedType : Bytes := ofString "response.output_item.added"
def doneType : Bytes := ofString "response.output_item.done"
def argumentsDeltaType : Bytes := ofString "response.function_call_arguments.delta"
def argumentsDoneType : Bytes := ofString "response.function_call_arguments.done"
def textDeltaType : Bytes := ofString "response.output_text.delta"
def failedType : Bytes := ofString "response.failed"
def errorType : Bytes := ofString "error"
def completedType : Bytes := ofString "response.completed"
def incompleteType : Bytes := ofString "response.incomplete"

def containsToolFields (object : JsonObject) : Bool :=
  object.hasField (ofString "call_id") || object.hasField (ofString "tool_call_id") ||
    object.hasField (ofString "arguments") || object.hasField (ofString "function") || object.hasField (ofString "name")

def namesTool (item : JsonObject) : Bool :=
  ((item.string? typeKey).any fun type => containsText type (ofString "tool") ||
    containsText type (ofString "function")) ||
    containsToolFields item

def itemOf (object : JsonObject) : Option JsonObject := (object.find? (ofString "item")).bind Json.object?

def isToolCallEvent (object : JsonObject) : Bool :=
  ((object.string? typeKey).any fun type =>
      containsText type (ofString "tool_call") || containsText type (ofString "function_call")) ||
    (itemOf object).any namesTool ||
    object.hasField (ofString "call_id") || object.hasField (ofString "tool_call_id") ||
    (object.hasField (ofString "arguments") &&
      (object.hasField (ofString "name") || object.hasField (ofString "function")))

def selectToolCallCandidate (object : JsonObject) : JsonObject :=
  match (itemOf object).filter namesTool with
  | some item => item
  | none => object

def inferToolCallArgumentsMode (event candidate : JsonObject) (arguments : Option Bytes) : ArgumentsMode :=
  if arguments.getD [] = [] then .unknown
  else
    let byCandidate := if candidate.hasField (ofString "delta") then .delta else .snapshot
    match event.string? typeKey with
    | none => byCandidate
    | some type =>
      if type = argumentsDeltaType then .delta
      else if type = argumentsDoneType then .snapshot
      else if startsWith type (ofString "response.output_item.") then .snapshot
      else if containsText type (ofString ".delta") then .delta
      else if containsText type (ofString ".done") then .snapshot
      else byCandidate

def functionOf (object : JsonObject) : Option JsonObject := (object.find? (ofString "function")).bind Json.object?

def toolCallId (candidate : JsonObject) (delta : Option JsonObject) : Option Bytes :=
  (firstNonEmpty [candidate.string? (ofString "call_id"), candidate.string? (ofString "tool_call_id"),
      candidate.string? (ofString "id")]).or
    (delta.bind fun delta => firstNonEmpty [delta.string? (ofString "id"), delta.string? (ofString "call_id"),
      delta.string? (ofString "tool_call_id")])

def toolName (candidate : JsonObject) (delta : Option JsonObject) : Option Bytes :=
  (firstNonEmpty [candidate.string? (ofString "name"), candidate.string? (ofString "tool_name")]).or
    ((delta.bind (·.string? (ofString "name"))).or
      (((functionOf candidate).bind (·.string? (ofString "name"))).or
        ((delta.bind functionOf).bind (·.string? (ofString "name")))))

def toolArguments (candidate : JsonObject) (delta : Option JsonObject) (deltaText : Option Bytes) : Option Bytes :=
  (candidate.string? (ofString "arguments")).or
    (deltaText.or
      ((delta.bind (·.string? (ofString "arguments"))).or
        ((delta.bind functionOf).bind (·.string? (ofString "arguments")))))

def toolType (candidate : JsonObject) : Option Bytes :=
  ((firstNonEmpty [candidate.string? (ofString "tool_type"), candidate.string? typeKey]).filter fun type =>
    !startsWith type (ofString "response.")).map fun type =>
      if type = ofString "tool_call" ∨ type = ofString "function_call" then ofString "function" else type

def toolCallFields (object : JsonObject) : Option ToolCallDelta :=
  if !isToolCallEvent object then none
  else
    let candidate := selectToolCallCandidate object
    let delta := candidate.find? (ofString "delta")
    let deltaObject := delta.bind Json.object?
    let deltaText := (delta.bind Json.string?).filter (· ≠ [])
    let callId := toolCallId candidate deltaObject
    let name := toolName candidate deltaObject
    let arguments := toolArguments candidate deltaObject deltaText
    if callId = none ∧ name = none ∧ arguments = none then none
    else
      some
        { callId := callId
          name := name
          arguments := arguments
          argumentsMode := inferToolCallArgumentsMode object candidate arguments
          toolType := toolType candidate }

def extractToolCallDelta (object : JsonObject) (index : ToolCallIndex) : Option (ToolCallDelta × ToolCallIndex) :=
  (toolCallFields object).map fun delta =>
    let (n, index) := index.indexFor delta.callId delta.name
    ({ delta with index := n }, index)

end Extraction

section Merge

structure ToolCallState where
  callId : Option Bytes := none
  name : Option Bytes := none
  emittedCallId : Option Bytes := none
  emittedName : Option Bytes := none
  arguments : Bytes := []
  toolType : Bytes := ofString "function"
  deriving DecidableEq, Repr

def normalizeToolCallArguments (held : Bytes) (delta : ToolCallDelta) : Option Bytes × Bytes :=
  match delta.arguments.filter (· ≠ []) with
  | none => (none, held)
  | some arguments =>
    if delta.argumentsMode = .delta then (some arguments, held ++ arguments)
    else if held = [] then (some arguments, arguments)
    else if held = arguments then (none, held)
    else if startsWith arguments held then
      (some (arguments.drop held.length), arguments)
    -- A snapshot that diverges from what has been emitted is kept, and not emitted.
    else (none, arguments)

def mergeIntoState (state : ToolCallState) (delta : ToolCallDelta) : ToolCallState × Option ToolCallDelta :=
  let callId := delta.callId.filter (· ≠ [])
  let name := delta.name.filter (· ≠ [])
  let toolType := delta.toolType.filter (· ≠ [])
  let emittedCallId := callId.filter fun callId => state.emittedCallId ≠ some callId
  let emittedName := name.filter fun name => state.emittedName ≠ some name
  let (arguments, held) := normalizeToolCallArguments state.arguments delta
  let merged : ToolCallState :=
    { callId := callId.or state.callId
      name := name.or state.name
      emittedCallId := emittedCallId.or state.emittedCallId
      emittedName := emittedName.or state.emittedName
      arguments := held
      toolType := toolType.getD state.toolType }
  let emitted : ToolCallDelta :=
    { index := delta.index
      callId := emittedCallId
      name := emittedName
      arguments := arguments
      argumentsMode := .delta
      toolType := some (toolType.getD state.toolType) }
  (merged, if emittedCallId = none ∧ emittedName = none ∧ arguments = none then none else some emitted)

-- The states that the source has not yet appended are the fresh ones.
def mergeToolCallDelta (states : ℕ → ToolCallState) (delta : ToolCallDelta) :
    (ℕ → ToolCallState) × Option ToolCallDelta :=
  let (merged, emitted) := mergeIntoState (states delta.index) delta
  (Function.update states delta.index merged, emitted)

structure FunctionChunk where
  name : Option Bytes := none
  arguments : Option Bytes := none
  deriving DecidableEq, Repr

structure ToolCallChunk where
  index : ℕ
  id : Option Bytes := none
  type : Bytes
  function : Option FunctionChunk := none
  deriving DecidableEq, Repr

def toolCallDeltaToChunk (delta : ToolCallDelta) : ToolCallChunk :=
  { index := delta.index
    id := delta.callId.filter (· ≠ [])
    type := delta.toolType.getD (ofString "function")
    function :=
      if delta.name = none ∧ delta.arguments = none then none
      else some { name := delta.name.filter (· ≠ []), arguments := delta.arguments } }

end Merge

end Tightrope.Proxy.Chat
