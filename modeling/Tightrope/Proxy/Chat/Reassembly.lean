import Tightrope.Proxy.Chat.Conversion

namespace Tightrope.Proxy.Chat

open Bytes Tightrope.Core Routing

section Assembled

structure AssembledCall where
  ids : List Bytes
  names : List Bytes
  arguments : Bytes
  deriving DecidableEq, Repr

/-- What a client puts together of the chunks of one index. -/
def assembled (index : ℕ) (chunks : List ToolCallChunk) : Option AssembledCall :=
  let own := chunks.filter (·.index = index)
  if own = [] then none
  else
    some
      { ids := own.filterMap (·.id)
        names := own.filterMap fun chunk => chunk.function.bind (·.name)
        arguments := (own.filterMap fun chunk => chunk.function.bind (·.arguments)).flatten }

def assembledOf (emitted : List ToolCallDelta) : Option AssembledCall :=
  if emitted = [] then none
  else
    some
      { ids := emitted.filterMap fun delta => delta.callId.filter (· ≠ [])
        names := emitted.filterMap fun delta => delta.name.filter (· ≠ [])
        arguments := (emitted.filterMap (·.arguments)).flatten }

theorem function_chunk (delta : ToolCallDelta) :
    (toolCallDeltaToChunk delta).function.bind (·.name) = delta.name.filter (· ≠ []) ∧
      (toolCallDeltaToChunk delta).function.bind (·.arguments) = delta.arguments := by
  obtain ⟨_, _, name, arguments, _, _⟩ := delta
  cases name <;> cases arguments <;> simp [toolCallDeltaToChunk]

theorem filter_map_chunkOf (n : ℕ) (emitted : List (ℕ × ToolCallDelta)) :
    (emitted.map chunkOf).filter (·.index = n) = (routedTo n emitted).map fun delta => chunkOf (n, delta) := by
  induction emitted with
  | nil => rfl
  | cons first emitted ih =>
    obtain ⟨m, delta⟩ := first
    have hindex : (chunkOf (m, delta)).index = m := rfl
    rw [List.map_cons, List.filter_cons, hindex, ih]
    by_cases h : m = n
    · subst h
      simp [routedTo]
    · simp [routedTo, h]

theorem assembled_map_chunkOf (n : ℕ) (emitted : List (ℕ × ToolCallDelta)) :
    assembled n (emitted.map chunkOf) = assembledOf (routedTo n emitted) := by
  simp only [assembled, assembledOf, filter_map_chunkOf, List.map_eq_nil_iff, List.filterMap_map, Function.comp_def,
    chunkOf, function_chunk]
  rfl

theorem assembled_toolRun (n : ℕ) (deltas : List ToolCallDelta) :
    assembled n (toolRun {} (fun _ => {}) deltas) =
      assembledOf (runCell mergeIntoState {} (deltas.filter fun delta =>
        slot (order [] (deltas.filterMap fun delta => indexKey delta.callId delta.name))
          (indexKey delta.callId delta.name) = n)) := by
  rw [toolRun_eq {} numbers_empty, assembled_map_chunkOf, routedTo_runCells, number_eq_map, List.filterMap_map,
    routedTo, List.map_map, List.filterMap_map]
  congr 2
  rw [← List.filterMap_eq_filter]
  apply List.filterMap_congr
  intro delta _
  simp only [Function.comp_def, keyed, Option.guard, decide_eq_true_eq]

end Assembled

section Cell

variable {call : FunctionCallItem} {held : Bytes} {state : ToolCallState} {delta : ToolCallDelta}

structure Opened (call : FunctionCallItem) (held : Bytes) (state : ToolCallState) : Prop where
  emittedCallId_eq : state.emittedCallId = some call.callId
  emittedName_eq : state.emittedName = some call.name
  arguments_eq : state.arguments = held

structure Continues (emitted : List ToolCallDelta) (arguments : Bytes) : Prop where
  callIds_eq : (emitted.filterMap fun delta => delta.callId.filter (· ≠ [])) = []
  names_eq : (emitted.filterMap fun delta => delta.name.filter (· ≠ [])) = []
  arguments_eq : (emitted.filterMap (·.arguments)).flatten = arguments

structure Speaks (call : FunctionCallItem) (delta : ToolCallDelta) : Prop where
  callId_eq : ∀ callId, delta.callId = some callId → callId = call.callId
  name_eq : ∀ name, delta.name = some name → name = call.name

theorem Continues.append {emitted emitted' : List ToolCallDelta} {arguments arguments' : Bytes}
    (h : Continues emitted arguments) (h' : Continues emitted' arguments') :
    Continues (emitted ++ emitted') (arguments ++ arguments') where
  callIds_eq := by rw [List.filterMap_append, h.callIds_eq, h'.callIds_eq]; rfl
  names_eq := by rw [List.filterMap_append, h.names_eq, h'.names_eq]; rfl
  arguments_eq := by rw [List.filterMap_append, List.flatten_append, h.arguments_eq, h'.arguments_eq]

theorem filter_emitted {value emitted : Option Bytes} {expected : Bytes} (hemitted : emitted = some expected)
    (h : ∀ v, value = some v → v = expected) :
    ((value.filter (· ≠ [])).filter fun v => emitted ≠ some v) = none := by
  cases value with
  | none => rfl
  | some v =>
    obtain rfl := h v rfl
    simp only [Option.filter_some]
    split <;> simp [hemitted]

theorem merge_opened (h : Opened call held state) (hspeaks : Speaks call delta) :
    Opened call (normalizeToolCallArguments held delta).2 (mergeIntoState state delta).1 ∧
      Continues (mergeIntoState state delta).2.toList ((normalizeToolCallArguments held delta).1.getD []) := by
  have hcallId := filter_emitted h.emittedCallId_eq hspeaks.callId_eq
  have hname := filter_emitted h.emittedName_eq hspeaks.name_eq
  simp only [mergeIntoState, hcallId, hname, h.arguments_eq, Option.none_or, true_and]
  refine ⟨⟨h.emittedCallId_eq, h.emittedName_eq, rfl⟩, ?_⟩
  cases (normalizeToolCallArguments held delta).1 with
  | none => exact ⟨rfl, rfl, rfl⟩
  | some arguments => exact ⟨rfl, rfl, by simp⟩

theorem speaks_argumentDelta (call : FunctionCallItem) (named : Bool) (arguments : Option Bytes)
    (mode : ArgumentsMode) :
    Speaks call (argumentDelta call named arguments mode) := by
  constructor
  · cases htagged : call.tagged <;> simp [argumentDelta, htagged]
  · cases named <;> simp [argumentDelta]

theorem speaks_itemDelta (call : FunctionCallItem) (arguments : Bytes) : Speaks call (itemDelta call arguments) := by
  constructor <;> simp [itemDelta]

theorem normalize_text (text : Bytes) (named : Bool) :
    normalizeToolCallArguments held (argumentDelta call named (some text |>.filter (· ≠ [])) .delta) =
      ((some text).filter (· ≠ []), held ++ text) := by
  by_cases h : text = []
  · simp [normalizeToolCallArguments, argumentDelta, h, Option.filter_some]
  · simp [normalizeToolCallArguments, argumentDelta, modeOf, h, Option.filter_some]

theorem normalize_replay {arguments : Bytes} (harguments : delta.arguments = some arguments)
    (hmode : delta.argumentsMode = modeOf arguments .snapshot) :
    normalizeToolCallArguments arguments delta = (none, arguments) := by
  by_cases h : arguments = []
  · simp [normalizeToolCallArguments, harguments, h, Option.filter_some]
  · simp [normalizeToolCallArguments, harguments, hmode, modeOf, h, Option.filter_some]

def partText : CallPart → Bytes
  | .delta text => text
  | .added | .argumentsDone | .done => []

theorem opened_part (named : Bool) {part : CallPart} (h : Opened call held state)
    (hpart : (∃ text, part = .delta text) ∨ (part = .argumentsDone ∨ part = .done) ∧ held = call.arguments) :
    Opened call (held ++ partText part) (cellAfter mergeIntoState state (partDelta call named part).toList) ∧
      Continues (runCell mergeIntoState state (partDelta call named part).toList) (partText part) := by
  have hrun (delta : ToolCallDelta) : runCell mergeIntoState state [delta] = (mergeIntoState state delta).2.toList :=
    List.append_nil _
  rcases hpart with ⟨text, rfl⟩ | ⟨rfl | rfl, rfl⟩
  · by_cases hsilent : text = [] ∧ call.tagged = false ∧ named = false
    · rw [partDelta, if_pos hsilent, partText, hsilent.1, List.append_nil]
      exact ⟨h, rfl, rfl, rfl⟩
    · have hmerge := merge_opened h (speaks_argumentDelta call named (some text |>.filter (· ≠ [])) .delta)
      rw [normalize_text] at hmerge
      rw [partDelta, if_neg hsilent, Option.toList_some, hrun]
      refine ⟨hmerge.1, ?_⟩
      by_cases htext : text = [] <;> simpa [htext, partText, Option.filter_some] using hmerge.2
  · have hmerge := merge_opened h (speaks_argumentDelta call named (some call.arguments) .snapshot)
    rw [normalize_replay rfl rfl] at hmerge
    rw [partDelta, Option.toList_some, hrun, partText, List.append_nil]
    exact hmerge
  · have hmerge := merge_opened h (speaks_itemDelta call call.arguments)
    rw [normalize_replay rfl rfl] at hmerge
    rw [partDelta, Option.toList_some, hrun, partText, List.append_nil]
    exact hmerge

def partsDeltas (call : FunctionCallItem) (parts : List (Bool × CallPart)) : List ToolCallDelta :=
  parts.filterMap fun part => partDelta call part.1 part.2

theorem partsDeltas_cons (part : Bool × CallPart) (parts : List (Bool × CallPart)) :
    partsDeltas call (part :: parts) = (partDelta call part.1 part.2).toList ++ partsDeltas call parts := by
  rw [partsDeltas, List.filterMap_cons]
  cases partDelta call part.1 part.2 <;> rfl

theorem opened_run {texts : List Bytes} {parts : List (Bool × CallPart)}
    (hparts : parts.map (·.2) = texts.map .delta ++ [.argumentsDone, .done]) (h : Opened call held state)
    (htexts : held ++ texts.flatten = call.arguments) :
    Continues (runCell mergeIntoState state (partsDeltas call parts)) texts.flatten := by
  induction texts generalizing held state parts with
  | nil =>
    obtain ⟨first, rest, rfl, hfirst, hrest⟩ := List.map_eq_cons_iff.mp hparts
    obtain ⟨second, rest, rfl, hsecond, hrest⟩ := List.map_eq_cons_iff.mp hrest
    obtain rfl := List.map_eq_nil_iff.mp hrest
    rw [List.flatten_nil, List.append_nil] at htexts
    obtain ⟨hopened, hcontinues⟩ := opened_part first.1 h (.inr ⟨.inl hfirst, htexts⟩)
    have hend := opened_part second.1 hopened
      (.inr ⟨.inr hsecond, by rw [hfirst, partText, List.append_nil, htexts]⟩)
    rw [partsDeltas_cons, partsDeltas_cons, runCell_append, show partsDeltas call [] = [] from rfl, List.append_nil]
    have hboth := hcontinues.append hend.2
    rwa [hfirst, hsecond] at hboth ⊢
  | cons text texts ih =>
    obtain ⟨first, rest, rfl, hfirst, hrest⟩ := List.map_eq_cons_iff.mp hparts
    obtain ⟨hopened, hcontinues⟩ := opened_part first.1 h (.inl ⟨text, hfirst⟩)
    have htail := ih hrest hopened (by rw [hfirst, partText, List.append_assoc]; exact htexts)
    rw [partsDeltas_cons, runCell_append, List.flatten_cons]
    have hboth := hcontinues.append htail
    rwa [hfirst] at hboth ⊢

theorem assembledOf_call {texts : List Bytes} {parts : List (Bool × CallPart)}
    (hparts : parts.map (·.2) = .added :: (texts.map .delta ++ [.argumentsDone, .done]))
    (htexts : texts.flatten = call.arguments) :
    assembledOf (runCell mergeIntoState {} (partsDeltas call parts)) =
      some { ids := [call.callId], names := [call.name], arguments := call.arguments } := by
  obtain ⟨first, rest, rfl, hfirst, hrest⟩ := List.map_eq_cons_iff.mp hparts
  have hadded : mergeIntoState {} (itemDelta call []) =
      ({ callId := some call.callId, name := some call.name, emittedCallId := some call.callId
         emittedName := some call.name },
        some { callId := some call.callId, name := some call.name, argumentsMode := .delta
               toolType := some (ofString "function") }) := by
    have hfunction : ofString "function" ≠ [] := by decide
    simp [mergeIntoState, itemDelta, normalizeToolCallArguments, Option.filter_some, call.callId_ne,
      call.name_ne, hfunction]
  have hopened : Opened call [] (mergeIntoState {} (itemDelta call [])).1 := by
    rw [hadded]
    exact ⟨rfl, rfl, rfl⟩
  have hcontinues := opened_run hrest hopened htexts
  rw [partsDeltas_cons, hfirst, partDelta, Option.toList_some, List.singleton_append, runCell, hadded]
  rw [hadded] at hcontinues
  have hcallId : (some call.callId).filter (· ≠ []) = some call.callId := by simp [Option.filter_some, call.callId_ne]
  have hname : (some call.name).filter (· ≠ []) = some call.name := by simp [Option.filter_some, call.name_ne]
  simp only [assembledOf, Option.toList_some, List.singleton_append, if_neg (List.cons_ne_nil _ _),
    List.filterMap_cons, hcallId, hname, hcontinues.callIds_eq, hcontinues.names_eq, hcontinues.arguments_eq, htexts]

end Cell

end Tightrope.Proxy.Chat
