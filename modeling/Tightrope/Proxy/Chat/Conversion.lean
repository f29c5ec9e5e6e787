import Tightrope.Library.Routing
import Tightrope.Proxy.Chat.CallStream
import Tightrope.Proxy.Chat.ChatEvents

namespace Tightrope.Proxy.Chat

open Bytes Tightrope.Core Routing

section Chunks

def toolChunks (events : List ChatEvent) : List ToolCallChunk :=
  events.flatMap fun
    | .chunk chunk => chunk.delta.toolCalls
    | _ => []

def contents (events : List ChatEvent) : List Bytes :=
  events.filterMap fun
    | .chunk chunk => chunk.delta.content
    | _ => none

def finishReasons (events : List ChatEvent) : List Bytes :=
  events.filterMap fun
    | .chunk chunk => chunk.finishReason
    | _ => none

@[simp] theorem toolChunks_append (l l' : List ChatEvent) : toolChunks (l ++ l') = toolChunks l ++ toolChunks l' :=
  List.flatMap_append

@[simp] theorem contents_append (l l' : List ChatEvent) : contents (l ++ l') = contents l ++ contents l' :=
  List.filterMap_append

@[simp] theorem finishReasons_append (l l' : List ChatEvent) :
    finishReasons (l ++ l') = finishReasons l ++ finishReasons l' := List.filterMap_append

end Chunks

section Numbers

structure ToolCallIndex.Numbers (index : ToolCallIndex) (seen : List Bytes) : Prop where
  find?_eq : ∀ key, index.indexes.find? key = if key ∈ seen then some (seen.idxOf key) else none
  nextIndex_eq : index.nextIndex = seen.length

variable {index : ToolCallIndex} {seen : List Bytes} {callId name : Option Bytes}

theorem numbers_empty : ToolCallIndex.Numbers {} [] := ⟨fun _ => rfl, rfl⟩

theorem indexFor_of_none (hkey : indexKey callId name = none) : index.indexFor callId name = (0, index) := by
  rw [ToolCallIndex.indexFor, hkey]

theorem ToolCallIndex.Numbers.indexFor (h : index.Numbers seen) {key : Bytes} (hkey : indexKey callId name = some key) :
    (index.indexFor callId name).1 = seen.idxOf key ∧ (index.indexFor callId name).2.Numbers (appear seen key) := by
  rw [ToolCallIndex.indexFor, hkey]
  simp only [h.find?_eq key]
  by_cases hseen : key ∈ seen
  · simp only [if_pos hseen, appear]
    exact ⟨trivial, h⟩
  · simp only [if_neg hseen, appear, h.nextIndex_eq]
    refine ⟨(List.idxOf_of_notMem hseen).symm, fun key' => ?_, by simp⟩
    rw [FlatMap.find?_insert, h.find?_eq key']
    by_cases hkey' : key' = key
    · subst hkey'
      rw [if_pos rfl, if_pos (by simp), List.idxOf_append_of_notMem hseen, List.idxOf_cons_self, Nat.add_zero]
    · have hmem : key' ∈ seen ++ [key] ↔ key' ∈ seen := by simp [hkey']
      rw [if_neg hkey']
      by_cases hseen' : key' ∈ seen
      · rw [if_pos hseen', if_pos (hmem.mpr hseen'), List.idxOf_append_of_mem hseen']
      · rw [if_neg hseen', if_neg (mt hmem.mp hseen')]

end Numbers

section ToolRun

def toolRun : ToolCallIndex → (ℕ → ToolCallState) → List ToolCallDelta → List ToolCallChunk
  | _, _, [] => []
  | index, states, delta :: deltas =>
    let (n, index) := index.indexFor delta.callId delta.name
    let (states, emitted) := mergeToolCallDelta states { delta with index := n }
    emitted.toList.map toolCallDeltaToChunk ++ toolRun index states deltas

def keyed (delta : ToolCallDelta) : Option Bytes × ToolCallDelta := (indexKey delta.callId delta.name, delta)

theorem mergeIntoState_index (state : ToolCallState) (delta : ToolCallDelta) (n : ℕ) :
    mergeIntoState state { delta with index := n } =
      ((mergeIntoState state delta).1, (mergeIntoState state delta).2.map ({ · with index := n })) := by
  have harguments : normalizeToolCallArguments state.arguments { delta with index := n } =
      normalizeToolCallArguments state.arguments delta := rfl
  simp only [mergeIntoState, harguments]
  rw [apply_ite (Option.map _)]
  rfl

def chunkOf (emitted : ℕ × ToolCallDelta) : ToolCallChunk := toolCallDeltaToChunk { emitted.2 with index := emitted.1 }

theorem toolRun_eq (index : ToolCallIndex) {seen : List Bytes} (h : index.Numbers seen) (states : ℕ → ToolCallState)
    (deltas : List ToolCallDelta) :
    toolRun index states deltas = (runCells mergeIntoState states (number seen (deltas.map keyed))).map chunkOf := by
  induction deltas generalizing index seen states with
  | nil => rfl
  | cons delta deltas ih =>
    have hstep (n : ℕ) (index' : ToolCallIndex) {seen' : List Bytes} (h' : index'.Numbers seen')
        (hindex : index.indexFor delta.callId delta.name = (n, index')) :
        toolRun index states (delta :: deltas) =
          (runCells mergeIntoState states ((n, delta) :: number seen' (deltas.map keyed))).map chunkOf := by
      simp only [toolRun, hindex, mergeToolCallDelta, mergeIntoState_index, runCells, List.map_append, ih index' h']
      congr 1
      cases (mergeIntoState (states n) delta).2 <;> rfl
    cases hkey : indexKey delta.callId delta.name with
    | none =>
      rw [hstep 0 index h (indexFor_of_none hkey), List.map_cons, keyed, hkey]
      rfl
    | some key =>
      obtain ⟨hn, hnumbers⟩ := h.indexFor hkey
      rw [hstep (seen.idxOf key) _ hnumbers (Prod.ext hn rfl), List.map_cons, keyed, hkey]
      rfl

end ToolRun

section Run

variable {calls : List FunctionCallItem} {model : Bytes} {includeUsage : Bool}

def labelDelta (calls : List FunctionCallItem) : EventLabel → Option ToolCallDelta
  | .call item named part => calls[item]?.bind fun call => partDelta call named part
  | _ => none

def textOf : EventLabel → Option Bytes
  | .text text => some text
  | _ => none

structure Converts (calls : List FunctionCallItem) (state : ConverterState) (labels : List EventLabel)
    (out : List ChatEvent) (state' : ConverterState) : Prop where
  chunks : ∀ deltas, toolRun state.toolIndex state.toolStates (labels.filterMap (labelDelta calls) ++ deltas) =
    toolChunks out ++ toolRun state'.toolIndex state'.toolStates deltas
  contents_eq : contents out = labels.filterMap textOf
  finishReasons_eq : finishReasons out = []
  sawToolCall_iff : state'.sawToolCall = true ↔ state.sawToolCall = true ∨ toolChunks out ≠ []

theorem Converts.nil (state : ConverterState) : Converts calls state [] [] state :=
  ⟨fun _ => rfl, rfl, rfl, by simp [toolChunks]⟩

theorem Converts.append {state state' state'' : ConverterState} {labels labels' : List EventLabel}
    {out out' : List ChatEvent} (h : Converts calls state labels out state')
    (h' : Converts calls state' labels' out' state'') :
    Converts calls state (labels ++ labels') (out ++ out') state'' where
  chunks deltas := by
    rw [List.filterMap_append, List.append_assoc, h.chunks, h'.chunks, toolChunks_append, List.append_assoc]
  contents_eq := by rw [contents_append, h.contents_eq, h'.contents_eq, List.filterMap_append]
  finishReasons_eq := by rw [finishReasons_append, h.finishReasons_eq, h'.finishReasons_eq]; rfl
  sawToolCall_iff := by
    rw [h'.sawToolCall_iff, h.sawToolCall_iff, toolChunks_append, ne_eq, ne_eq, ne_eq, List.append_eq_nil_iff]
    tauto

theorem toolCallFields_of_not {event : JsonObject} (h : isToolCallEvent event = false) :
    toolCallFields event = none := by
  simp [toolCallFields, h]

theorem closingEvents_eq_none {type : Bytes} (state : ConverterState) (event : JsonObject)
    (h : type ∉ [failedType, errorType, completedType, incompleteType]) :
    closingEvents model includeUsage state type event = none := by
  simp only [List.mem_cons, List.not_mem_nil, or_false, not_or] at h
  simp [closingEvents, h]

theorem convertEvent_text {event : JsonObject} {text : Bytes} (htype : event.string? typeKey = some textDeltaType)
    (htext : event.string? (ofString "delta") = some text) (state : ConverterState) :
    convertEvent model includeUsage state event =
      ([.chunk { id := state.chunkId, model, delta := { role := roleOf state, content := some text },
                 nullUsage := includeUsage }], some { state with sentRole := true }) := by
  simp [convertEvent, htype, convertText, htext]

theorem convertEvent_other {event : JsonObject} (h : IsOther event) (state : ConverterState) :
    convertEvent model includeUsage state event = ([], some state) := by
  have hfields := toolCallFields_of_not h.notToolCall
  have htool : convertToolCall model includeUsage state event = none := by
    simp [convertToolCall, extractToolCallDelta, hfields]
  cases htype : event.string? typeKey with
  | none => simp [convertEvent, htype]
  | some type =>
    have hne := h.type_ne type htype
    rw [List.mem_cons, not_or] at hne
    simp [convertEvent, htype, hne.1, htool, closingEvents_eq_none state event hne.2]

theorem type_of_part {call : FunctionCallItem} {named : Bool} {event : JsonObject} {part : CallPart}
    (h : IsPart call named event part) : ∃ type, event.string? typeKey = some type ∧
      type ∉ [textDeltaType, failedType, errorType, completedType, incompleteType] := by
  cases part with
  | added => exact ⟨addedType, h.type_eq, by decide⟩
  | delta text => exact ⟨argumentsDeltaType, h.type_eq, by decide⟩
  | argumentsDone => exact ⟨argumentsDoneType, h.type_eq, by decide⟩
  | done => exact ⟨doneType, h.type_eq, by decide⟩

theorem converts_step (state : ConverterState) (e : StreamEvent calls) : ∃ out state',
    convertEvent model includeUsage state e.event = (out, some state') ∧ Converts calls state [e.label] out state' := by
  obtain ⟨label, event, realised⟩ := e
  cases label with
  | text text =>
    obtain ⟨htype, htext⟩ := realised
    have hevent := @convertEvent_text model includeUsage event text htype htext state
    exact ⟨_, _, hevent, fun _ => rfl, rfl, rfl, by simp [toolChunks]⟩
  | other => exact ⟨[], state, convertEvent_other realised state, ⟨fun _ => rfl, rfl, rfl, by simp [toolChunks]⟩⟩
  | call item named part =>
    obtain ⟨call, hcall, hpart⟩ := realised
    obtain ⟨type, htype, hne⟩ := type_of_part hpart
    rw [List.mem_cons, not_or] at hne
    have hfields := toolCallFields_part hpart
    have hlabel : labelDelta calls (.call item named part) = partDelta call named part := by simp [labelDelta, hcall]
    cases hdelta : partDelta call named part with
    | none =>
      have htool : convertToolCall model includeUsage state event = none := by
        simp [convertToolCall, extractToolCallDelta, hfields, hdelta]
      refine ⟨[], state, ?_, ?_, rfl, rfl, by simp [toolChunks]⟩
      · simp [convertEvent, htype, hne.1, htool, closingEvents_eq_none state event hne.2]
      · simp [hlabel, hdelta, toolChunks]
    | some delta =>
      rcases hindex : state.toolIndex.indexFor delta.callId delta.name with ⟨n, index⟩
      rcases hmerge : mergeToolCallDelta state.toolStates { delta with index := n } with ⟨states, emitted⟩
      have hextract : extractToolCallDelta event state.toolIndex = some ({ delta with index := n }, index) := by
        simp [extractToolCallDelta, hfields, hdelta, hindex]
      have hrun (deltas : List ToolCallDelta) :
          toolRun state.toolIndex state.toolStates ([.call item named part].filterMap (labelDelta calls) ++ deltas) =
            emitted.toList.map toolCallDeltaToChunk ++ toolRun index states deltas := by
        simp [hlabel, hdelta, toolRun, hindex, hmerge]
      cases emitted with
      | none =>
        refine ⟨[], { state with toolIndex := index, toolStates := states }, ?_, hrun, rfl, rfl, by simp [toolChunks]⟩
        simp [convertEvent, htype, hne.1, convertToolCall, hextract, hmerge]
      | some emitted =>
        let delta : ChatDelta := { role := roleOf state, toolCalls := [toolCallDeltaToChunk emitted] }
        refine ⟨[.chunk { id := state.chunkId, model, delta, nullUsage := includeUsage }],
          { state with toolIndex := index, toolStates := states, sentRole := true, sawToolCall := true },
          ?_, hrun, rfl, rfl, by simp [toolChunks, delta]⟩
        · simp only [convertEvent, htype, if_neg hne.1, convertToolCall, hextract, hmerge, Option.map_some,
            closingEvents_eq_none _ event hne.2]
          rfl

theorem converts_run (state : ConverterState) (stream : List (StreamEvent calls)) (rest : List JsonObject) :
    ∃ out state', convertEvents model includeUsage state (stream.map (·.event) ++ rest) =
      out ++ convertEvents model includeUsage state' rest ∧ Converts calls state (stream.map (·.label)) out state' := by
  induction stream generalizing state with
  | nil => exact ⟨[], state, rfl, .nil state⟩
  | cons e stream ih =>
    obtain ⟨out, state', hstep, hconverts⟩ := converts_step state e
    obtain ⟨out', state'', hrun, hconverts'⟩ := ih state'
    refine ⟨out ++ out', state'', ?_, hconverts.append hconverts'⟩
    rw [List.map_cons, List.cons_append, convertEvents, hstep, List.append_assoc, ← hrun]

end Run

end Tightrope.Proxy.Chat
