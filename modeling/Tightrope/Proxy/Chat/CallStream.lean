import Tightrope.Proxy.Chat.ToolCalls

namespace Tightrope.Proxy.Chat

open Bytes Tightrope.Core

structure FunctionCallItem where
  callId : Bytes
  name : Bytes
  arguments : Bytes
  -- Whether the argument events of the call carry its `call_id` beside `item_id` and `output_index`.
  tagged : Bool := false
  callId_ne : callId ≠ [] := by decide
  name_ne : name ≠ [] := by decide

inductive CallPart where
  | added
  | delta (text : Bytes)
  | argumentsDone
  | done
  deriving DecidableEq

inductive EventLabel where
  -- `named`: whether an argument event carries the name of the function.
  | call (item : ℕ) (named : Bool) (part : CallPart)
  | text (text : Bytes)
  | other
  deriving DecidableEq

section Events

variable (call : FunctionCallItem)

structure IsItemEvent (type arguments : Bytes) (event : JsonObject) : Prop where
  type_eq : event.string? typeKey = some type
  item : ∃ item, itemOf event = some item ∧ item.string? typeKey = some (ofString "function_call") ∧
    item.string? (ofString "call_id") = some call.callId ∧ item.string? (ofString "name") = some call.name ∧
    item.string? (ofString "arguments") = some arguments ∧ item.find? (ofString "delta") = none ∧
    item.string? (ofString "tool_type") = none

structure IsArgumentEvent (type : Bytes) (named : Bool) (arguments : Option Bytes) (delta : Option Json)
    (event : JsonObject) : Prop where
  type_eq : event.string? typeKey = some type
  item : itemOf event = none
  function : functionOf event = none
  call_id : event.string? (ofString "call_id") = if call.tagged then some call.callId else none
  tool_call_id : event.string? (ofString "tool_call_id") = none
  id : event.string? (ofString "id") = none
  name : event.string? (ofString "name") = if named then some call.name else none
  tool_name : event.string? (ofString "tool_name") = none
  tool_type : event.string? (ofString "tool_type") = none
  arguments_eq : event.string? (ofString "arguments") = arguments
  delta_eq : event.find? (ofString "delta") = delta

def IsPart (named : Bool) (event : JsonObject) : CallPart → Prop
  | .added => IsItemEvent call addedType [] event
  | .delta text => IsArgumentEvent call argumentsDeltaType named none (some (.string text)) event
  | .argumentsDone => IsArgumentEvent call argumentsDoneType named (some call.arguments) none event
  | .done => IsItemEvent call doneType call.arguments event

structure IsOther (event : JsonObject) : Prop where
  notToolCall : isToolCallEvent event = false
  type_ne : ∀ type, event.string? typeKey = some type →
    type ∉ [textDeltaType, failedType, errorType, completedType, incompleteType]

structure IsFinal (event : JsonObject) : Prop where
  notToolCall : isToolCallEvent event = false
  type_mem : ∃ type, event.string? typeKey = some type ∧ type ∈ [completedType, incompleteType]

def Realises (calls : List FunctionCallItem) (event : JsonObject) : EventLabel → Prop
  | .call item named part => ∃ call, calls[item]? = some call ∧ IsPart call named event part
  | .text text =>
    event.string? typeKey = some textDeltaType ∧ event.string? (ofString "delta") = some text
  | .other => IsOther event

structure StreamEvent (calls : List FunctionCallItem) where
  label : EventLabel
  event : JsonObject
  realised : Realises calls event label

end Events

section Streams

def partOf (item : ℕ) : EventLabel → Option CallPart
  | .call item' _ part => if item' = item then some part else none
  | _ => none

def addedItem : EventLabel → Option ℕ
  | .call item _ .added => some item
  | _ => none

/-- The calls are added in order; of each come its arguments in pieces, then as a whole, then the item as a whole. -/
structure WellFormed (calls : List FunctionCallItem) (labels : List EventLabel) : Prop where
  distinct : (calls.map (·.callId)).Nodup
  inOrder : labels.filterMap addedItem = List.range calls.length
  complete : ∀ item call, calls[item]? = some call → ∃ texts : List Bytes,
    labels.filterMap (partOf item) = .added :: (texts.map .delta ++ [.argumentsDone, .done]) ∧
      texts.flatten = call.arguments

variable {calls : List FunctionCallItem} {labels : List EventLabel}

theorem WellFormed.added_before (h : WellFormed calls labels) {before after : List EventLabel} {item : ℕ}
    {named : Bool} {part : CallPart} (hlabels : labels = before ++ .call item named part :: after)
    (hitem : item < calls.length) (hpart : part ≠ .added) : item ∈ before.filterMap addedItem := by
  obtain ⟨texts, hparts, -⟩ := h.complete item calls[item] (List.getElem?_eq_getElem hitem)
  have hsplit : labels.filterMap (partOf item) =
      before.filterMap (partOf item) ++ part :: after.filterMap (partOf item) := by
    rw [hlabels, List.filterMap_append, List.filterMap_cons_some (b := part) (by simp [partOf])]
  rw [hsplit] at hparts
  have hadded : .added ∈ before.filterMap (partOf item) := by
    cases hbefore : before.filterMap (partOf item) with
    | nil =>
      rw [hbefore] at hparts
      exact absurd (List.cons.inj hparts).1 hpart
    | cons first parts =>
      rw [hbefore] at hparts
      rw [(List.cons.inj hparts).1]
      exact List.mem_cons_self
  obtain ⟨label, hlabel, hlabelPart⟩ := List.mem_filterMap.mp hadded
  refine List.mem_filterMap.mpr ⟨label, hlabel, ?_⟩
  cases label with
  | call item' named' part' =>
    simp only [partOf, Option.ite_none_right_eq_some, Option.some.injEq] at hlabelPart
    obtain ⟨rfl, rfl⟩ := hlabelPart
    rfl
  | text | other => cases hlabelPart

end Streams

section Fields

def modeOf (arguments : Bytes) (mode : ArgumentsMode) : ArgumentsMode := if arguments = [] then .unknown else mode

def argumentDelta (call : FunctionCallItem) (named : Bool) (arguments : Option Bytes) (mode : ArgumentsMode) :
    ToolCallDelta :=
  { callId := if call.tagged then some call.callId else none
    name := if named then some call.name else none
    arguments := arguments
    argumentsMode := modeOf (arguments.getD []) mode }

def itemDelta (call : FunctionCallItem) (arguments : Bytes) : ToolCallDelta :=
  { callId := some call.callId
    name := some call.name
    arguments := some arguments
    argumentsMode := modeOf arguments .snapshot
    toolType := some (ofString "function") }

def partDelta (call : FunctionCallItem) (named : Bool) : CallPart → Option ToolCallDelta
  | .added => some (itemDelta call [])
  | .delta text =>
    if text = [] ∧ call.tagged = false ∧ named = false then none
    else some (argumentDelta call named (some text |>.filter (· ≠ [])) .delta)
  | .argumentsDone => some (argumentDelta call named (some call.arguments) .snapshot)
  | .done => some (itemDelta call call.arguments)

variable {call : FunctionCallItem} {event : JsonObject}

theorem firstNonEmpty_of_ne {value : Bytes} (values : List (Option Bytes)) (h : value ≠ []) :
    firstNonEmpty (some value :: values) = some value := by
  simp [firstNonEmpty, h]

theorem inferToolCallArgumentsMode_item {type arguments : Bytes} (h : IsItemEvent call type arguments event)
    (htype : type = addedType ∨ type = doneType) (candidate : JsonObject) :
    inferToolCallArgumentsMode event candidate (some arguments) = modeOf arguments .snapshot := by
  have hmode : type ≠ argumentsDeltaType ∧ type ≠ argumentsDoneType ∧
      startsWith type (ofString "response.output_item.") = true := by
    rcases htype with rfl | rfl <;> decide
  simp [inferToolCallArgumentsMode, h.type_eq, hmode, modeOf]

theorem toolCallFields_item {type arguments : Bytes} (h : IsItemEvent call type arguments event)
    (htype : type = addedType ∨ type = doneType) : toolCallFields event = some (itemDelta call arguments) := by
  obtain ⟨item, hitem, hitemType, hcallId, hname, harguments, hdelta, htoolType⟩ := h.item
  have hnames : namesTool item = true := by
    have htool : containsText (ofString "function_call") (ofString "function") = true := by decide
    simp [namesTool, hitemType, htool]
  have hevent : isToolCallEvent event = true := by simp [isToolCallEvent, hitem, hnames]
  have hcandidate : selectToolCallCandidate event = item := by
    rw [selectToolCallCandidate, hitem, Option.filter_some, if_pos hnames]
  have hid : toolCallId item none = some call.callId := by
    rw [toolCallId, hcallId, firstNonEmpty_of_ne _ call.callId_ne, Option.some_or]
  have htoolName : toolName item none = some call.name := by
    rw [toolName, hname, firstNonEmpty_of_ne _ call.name_ne, Option.some_or]
  have htoolArguments : toolArguments item none none = some arguments := by
    rw [toolArguments, harguments, Option.some_or]
  have hkind : toolType item = some (ofString "function") := by
    rw [toolType, htoolType, hitemType]
    decide
  have hmode := inferToolCallArgumentsMode_item h htype item
  simp [toolCallFields, hevent, hcandidate, hdelta, hid, htoolName, htoolArguments, hkind, hmode, itemDelta]

theorem toolCallFields_arguments {type : Bytes} {named : Bool} {arguments : Option Bytes} {delta : Option Json}
    (h : IsArgumentEvent call type named arguments delta event)
    (htype : containsText type (ofString "function_call") = true)
    (hresponse : startsWith type (ofString "response.") = true)
    (hdelta : delta.bind Json.object? = none) :
    toolCallFields event =
      let arguments := arguments.or ((delta.bind Json.string?).filter (· ≠ []))
      if arguments = none ∧ call.tagged = false ∧ named = false then none
      else some { argumentDelta call named arguments .unknown with
        argumentsMode := inferToolCallArgumentsMode event event arguments } := by
  have hevent : isToolCallEvent event = true := by simp [isToolCallEvent, h.type_eq, htype]
  have hcandidate : selectToolCallCandidate event = event := by simp [selectToolCallCandidate, h.item]
  have hid : toolCallId event none = if call.tagged then some call.callId else none := by
    rw [toolCallId, h.call_id, h.tool_call_id, h.id]
    cases call.tagged <;> simp [firstNonEmpty, call.callId_ne]
  have htoolName : toolName event none = if named then some call.name else none := by
    rw [toolName, h.name, h.tool_name, h.function]
    cases named <;> simp [firstNonEmpty, call.name_ne]
  have htoolArguments (text : Option Bytes) : toolArguments event none text = arguments.or text := by
    simp [toolArguments, h.arguments_eq]
  have hkind : toolType event = none := by
    have hne : type ≠ [] := by
      rintro rfl
      cases hresponse
    simp [toolType, h.tool_type, h.type_eq, firstNonEmpty, hne, hresponse]
  simp only [toolCallFields, hevent, hcandidate, h.delta_eq, hdelta, hid, htoolName, htoolArguments, hkind]
  generalize arguments.or _ = arguments
  cases htagged : call.tagged <;> cases named <;> simp [argumentDelta, htagged]

theorem toolCallFields_part {named : Bool} {part : CallPart} (h : IsPart call named event part) :
    toolCallFields event = partDelta call named part := by
  cases part with
  | added => exact toolCallFields_item h (.inl rfl)
  | done => exact toolCallFields_item h (.inr rfl)
  | delta text =>
    have hmode (arguments : Option Bytes) :
        inferToolCallArgumentsMode event event arguments = modeOf (arguments.getD []) .delta := by
      simp [inferToolCallArgumentsMode, h.type_eq, modeOf]
    rw [toolCallFields_arguments h (by decide) (by decide) rfl]
    by_cases htext : text = [] <;> simp [partDelta, argumentDelta, hmode, htext, Json.string?]
  | argumentsDone =>
    have hmode : inferToolCallArgumentsMode event event (some call.arguments) = modeOf call.arguments .snapshot := by
      have hne : argumentsDoneType ≠ argumentsDeltaType := by decide
      simp [inferToolCallArgumentsMode, h.type_eq, modeOf, hne]
    rw [toolCallFields_arguments h (by decide) (by decide) rfl]
    simp [partDelta, argumentDelta, hmode]

end Fields

end Tightrope.Proxy.Chat
