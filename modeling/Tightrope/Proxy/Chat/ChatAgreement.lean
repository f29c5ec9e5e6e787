import Tightrope.Proxy.Chat.ChatCompletion
import Tightrope.Proxy.Chat.ToolCallStream

namespace Tightrope.Proxy.Chat

open Bytes Tightrope.Core

section Output

inductive OutputEntry where
  | call (call : FunctionCallItem)
  -- An item with content: the texts of its text parts, `none` for its other parts, refusals among them.
  | message (parts : List (Option Bytes))
  | other

def IsContentPart : Option Bytes → Json → Prop
  | some text, part => ∃ object : JsonObject, part = .object object ∧
    object.string? typeKey = some (ofString "output_text") ∧
      object.string? (ofString "text") = some text
  | none, part => ∃ (object : JsonObject) (type : Bytes), part = .object object ∧
      object.string? typeKey = some type ∧
      type ∉ [ofString "output_text", ofString "text"]

def textTypes : List Bytes := [ofString "function_call", ofString "tool_call", ofString "output_text"]

def IsEntry : OutputEntry → Json → Prop
  | .call call, item => ∃ object : JsonObject, item = .object object ∧
    object.string? typeKey = some (ofString "function_call") ∧
      object.string? (ofString "call_id") = some call.callId ∧ object.string? (ofString "name") = some call.name ∧
      object.string? (ofString "arguments") = some call.arguments ∧ object.find? (ofString "content") = none
  | .message texts, item => ∃ (object : JsonObject) (type : Bytes) (parts : List Json), item = .object object ∧
      object.string? typeKey = some type ∧
      type ∉ textTypes ∧ object.find? (ofString "content") = some (.array parts) ∧
        List.Forall₂ IsContentPart texts parts
  | .other, item => ∃ (object : JsonObject) (type : Bytes), item = .object object ∧
      object.string? typeKey = some type ∧ type ∉ textTypes ∧
      object.find? (ofString "content") = none

def callOf : OutputEntry → Option FunctionCallItem
  | .call call => some call
  | _ => none

def textsOf : OutputEntry → List Bytes
  | .message parts => parts.filterMap id
  | _ => []

def messageOf (call : FunctionCallItem) : MessageToolCall :=
  { id := some call.callId, name := some call.name, arguments := some call.arguments }

theorem partText?_of_isContentPart {text : Option Bytes} {part : Json} (h : IsContentPart text part) :
    partText? part = text := by
  cases text with
  | some text =>
    obtain ⟨object, rfl, htype, htext⟩ := h
    simp [partText?, Json.object?, htype, htext]
  | none =>
    obtain ⟨object, type, rfl, htype, hne⟩ := h
    rw [List.mem_pair, not_or] at hne
    simp [partText?, Json.object?, htype, hne.1, hne.2]

theorem filterMap_partText? {texts : List (Option Bytes)} {parts : List Json}
    (h : List.Forall₂ IsContentPart texts parts) : parts.filterMap partText? = texts.filterMap id := by
  induction h with
  | nil => rfl
  | cons hpart _ ih => rw [List.filterMap_cons, List.filterMap_cons, partText?_of_isContentPart hpart, ih, id]

theorem extractText_of_isEntry {entry : OutputEntry} {item : Json} (h : IsEntry entry item) :
    extractTextFromOutputItem item = (textsOf entry).flatten := by
  cases entry with
  | call call =>
    obtain ⟨object, rfl, htype, -, -, -, hcontent⟩ := h
    have hne : ofString "function_call" ≠ ofString "output_text" := by decide
    simp [extractTextFromOutputItem, Json.object?, htype, hne, hcontent, textsOf]
  | message texts =>
    obtain ⟨object, type, parts, rfl, htype, hne, hcontent, hparts⟩ := h
    have htext : type ≠ ofString "output_text" := fun h => hne (by simp [textTypes, h])
    simp [extractTextFromOutputItem, Json.object?, htype, htext, hcontent, textsOf, filterMap_partText? hparts]
  | other =>
    obtain ⟨object, type, rfl, htype, hne, hcontent⟩ := h
    have htext : type ≠ ofString "output_text" := fun h => hne (by simp [textTypes, h])
    simp [extractTextFromOutputItem, Json.object?, htype, htext, hcontent, textsOf]

theorem messageToolCall_of_isEntry {entry : OutputEntry} {item : Json} (h : IsEntry entry item) :
    messageToolCall item = (callOf entry).map messageOf := by
  cases entry with
  | call call =>
    obtain ⟨object, rfl, htype, hcallId, hname, harguments, -⟩ := h
    simp [messageToolCall, Json.object?, htype, hcallId, hname, harguments, callOf, messageOf]
  | message texts =>
    obtain ⟨object, type, parts, rfl, htype, hne, -⟩ := h
    have hcall : ¬(type = ofString "function_call" ∨ type = ofString "tool_call") := by
      rintro (h | h) <;> exact hne (by simp [textTypes, h])
    simp [messageToolCall, Json.object?, htype, hcall, callOf]
  | other =>
    obtain ⟨object, type, rfl, htype, hne, -⟩ := h
    have hcall : ¬(type = ofString "function_call" ∨ type = ofString "tool_call") := by
      rintro (h | h) <;> exact hne (by simp [textTypes, h])
    simp [messageToolCall, Json.object?, htype, hcall, callOf]

theorem texts_of_entries {entries : List OutputEntry} {items : List Json} (h : List.Forall₂ IsEntry entries items) :
    (items.map extractTextFromOutputItem).flatten = (entries.flatMap textsOf).flatten := by
  induction h with
  | nil => rfl
  | cons hentry _ ih =>
    rw [List.map_cons, List.flatten_cons, List.flatMap_cons, List.flatten_append, ih, extractText_of_isEntry hentry]

theorem calls_of_entries {entries : List OutputEntry} {items : List Json} (h : List.Forall₂ IsEntry entries items) :
    items.filterMap messageToolCall = (entries.filterMap callOf).map messageOf := by
  induction h with
  | nil => rfl
  | @cons entry item _ _ hentry _ ih =>
    rw [List.filterMap_cons, List.filterMap_cons, messageToolCall_of_isEntry hentry, ih]
    cases callOf entry <;> rfl

end Output

section Collected

variable {toInt64 : UInt64 → ℤ}

def IsOutputEvent (object : JsonObject) : Prop :=
  object.string? typeKey = some addedType ∨ object.string? typeKey = some doneType

instance (object : JsonObject) : Decidable (IsOutputEvent object) := instDecidableOr

def itemAt (toInt64 : UInt64 → ℤ) (index : ℤ) (object : JsonObject) : Option Json :=
  if IsOutputEvent object then ((outputItem toInt64 object).filter (·.1 = index)).map (·.2) else none

def lastItemAt (toInt64 : UInt64 → ℤ) (objects : List JsonObject) (index : ℤ) : Option Json :=
  (objects.filterMap (itemAt toInt64 index)).getLast?

def HasOutput (toInt64 : UInt64 → ℤ) (objects : List JsonObject) (response : JsonObject) (items : List Json) : Prop :=
  (items ≠ [] ∧ response.find? outputKey = some (.array items)) ∨
    ((response.find? outputKey = none ∨ response.find? outputKey = some (.array [])) ∧
      ∃ indices : List ℤ, indices.Pairwise (· < ·) ∧ indices.map (lastItemAt toInt64 objects) = items.map some ∧
        ∀ index, index ∉ indices → lastItemAt toInt64 objects index = none)

def keptItems (toInt64 : UInt64 → ℤ) (items : FlatMap ℤ Json) (objects : List JsonObject) : FlatMap ℤ Json :=
  objects.foldl (fun items object => if IsOutputEvent object then keepItem toInt64 items object else items) items

theorem find?_keepItem (items : FlatMap ℤ Json) {object : JsonObject} (houtput : IsOutputEvent object) (index : ℤ) :
    (keepItem toInt64 items object).find? index = (itemAt toInt64 index object).or (items.find? index) := by
  rw [keepItem, itemAt, if_pos houtput]
  cases outputItem toInt64 object with
  | none => rfl
  | some item =>
    rw [Option.elim_some, FlatMap.find?_insert]
    by_cases hindex : index = item.1
    · simp [hindex, Option.filter_some]
    · simp [hindex, Ne.symm hindex, Option.filter_some]

theorem find?_keptItems (objects : List JsonObject) (index : ℤ) :
    (keptItems toInt64 .empty objects).find? index = lastItemAt toInt64 objects index := by
  induction objects using List.reverseRecOn with
  | nil => rfl
  | append_singleton objects object ih =>
    have hkept : keptItems toInt64 .empty (objects ++ [object]) =
        if IsOutputEvent object then keepItem toInt64 (keptItems toInt64 .empty objects) object
        else keptItems toInt64 .empty objects := by
      rw [keptItems, List.foldl_append]
      rfl
    have hlast : lastItemAt toInt64 (objects ++ [object]) index =
        (itemAt toInt64 index object).or (lastItemAt toInt64 objects index) := by
      rw [lastItemAt, List.filterMap_append, List.getLast?_append, List.filterMap_cons]
      cases itemAt toInt64 index object <;> rfl
    rw [hkept, hlast]
    by_cases houtput : IsOutputEvent object
    · rw [if_pos houtput, find?_keepItem _ houtput, ih]
    · rw [if_neg houtput, ih, itemAt, if_neg houtput]
      rfl

theorem findEntry_zip {f : ℤ → Option Json} {indices : List ℤ} {values : List Json}
    (hvalues : indices.map f = values.map some) (index : ℤ) :
    FlatMap.findEntry index (indices.zip values) = if index ∈ indices then f index else none := by
  induction indices generalizing values with
  | nil => simp [FlatMap.findEntry]
  | cons first indices ih =>
    cases values with
    | nil => cases hvalues
    | cons value values =>
      rw [List.map_cons, List.map_cons, List.cons.injEq] at hvalues
      rw [List.zip_cons_cons, FlatMap.findEntry, ih hvalues.2]
      by_cases hindex : first = index
      · rw [if_pos hindex, if_pos (by rw [hindex]; exact List.mem_cons_self), ← hindex, hvalues.1]
      · have hmem : index ∈ first :: indices ↔ index ∈ indices := by simp [Ne.symm hindex]
        rw [if_neg hindex]
        simp only [hmem]

theorem entries_of_keys {items : FlatMap ℤ Json} {indices : List ℤ} {values : List Json}
    (hsorted : indices.Pairwise (· < ·)) (hvalues : indices.map items.find? = values.map some)
    (hnone : ∀ index, index ∉ indices → items.find? index = none) : items.entries.map (·.2) = values := by
  have hlength : indices.length = values.length := by simpa using congrArg List.length hvalues
  have hkeys : (indices.zip values).map Prod.fst = indices := List.map_fst_zip hlength.le
  have hzip : (indices.zip values).Pairwise (fun a b => a.1 < b.1) := by
    rw [← hkeys, List.pairwise_map] at hsorted
    exact hsorted
  have hitems : items = ⟨indices.zip values, hzip⟩ := by
    apply FlatMap.ext_find?
    intro index
    rw [FlatMap.find?, FlatMap.find?, findEntry_zip hvalues]
    by_cases hindex : index ∈ indices
    · rw [if_pos hindex]
      rfl
    · rw [if_neg hindex]
      exact hnone index hindex
  rw [hitems]
  exact List.map_snd_zip hlength.ge

theorem stream_type_ne {calls : List FunctionCallItem} (e : StreamEvent calls) {type : Bytes}
    (htype : e.event.string? typeKey = some type) : type ∉ [failedType, errorType, completedType, incompleteType] := by
  obtain ⟨label, event, realised⟩ := e
  change event.string? typeKey = some type at htype
  cases label with
  | text text =>
    obtain rfl := Option.some.inj (htype.symm.trans realised.1)
    decide
  | other => exact fun hmem => realised.type_ne type htype (List.mem_cons_of_mem _ hmem)
  | call item named part =>
    obtain ⟨call, -, hpart⟩ := realised
    obtain ⟨type', htype', hne⟩ := type_of_part hpart
    obtain rfl := Option.some.inj (htype.symm.trans htype')
    exact fun hmem => hne (List.mem_cons_of_mem _ hmem)

theorem collectBody_stream {calls : List FunctionCallItem} (lib : JsonLibrary) (items : FlatMap ℤ Json)
    (stream : List (StreamEvent calls)) (rest : List JsonObject) :
    collectBody lib toInt64 items (stream.map (·.event) ++ rest) =
      collectBody lib toInt64 (keptItems toInt64 items (stream.map (·.event))) rest := by
  induction stream generalizing items with
  | nil => rfl
  | cons e stream ih =>
    have hkept : keptItems toInt64 items (e.event :: stream.map (·.event)) =
        keptItems toInt64 (if IsOutputEvent e.event then keepItem toInt64 items e.event else items)
          (stream.map (·.event)) := rfl
    rw [List.map_cons, List.cons_append, collectBody, hkept]
    cases htype : e.event.string? typeKey with
    | none =>
      have houtput : ¬ IsOutputEvent e.event := by simp [IsOutputEvent, htype]
      rw [if_neg houtput]
      exact ih items
    | some type =>
      have hne := stream_type_ne e htype
      simp only [List.mem_cons, List.not_mem_nil, or_false, not_or] at hne
      have hrest : type ≠ completedType ∧ type ≠ incompleteType ∧ type ≠ failedType := ⟨hne.2.2.1, hne.2.2.2, hne.1⟩
      by_cases houtput : type = addedType ∨ type = doneType
      · have houtput' : IsOutputEvent e.event := by simpa [IsOutputEvent, htype] using houtput
        simp only [if_neg hne.2.1, if_pos houtput, if_pos houtput']
        exact ih _
      · have houtput' : ¬ IsOutputEvent e.event := by simpa [IsOutputEvent, htype] using houtput
        simp only [if_neg hne.2.1, if_neg houtput, if_neg houtput', if_pos hrest]
        exact ih _

theorem collectBody_final (lib : JsonLibrary) (items : FlatMap ℤ Json) {final response : JsonObject}
    (rest : List JsonObject) (hfinal : IsFinal final)
    (hresponse : final.find? (ofString "response") = some (.object response)) :
    collectBody lib toInt64 items (final :: rest) = lib.write (.object (withOutput items response)) := by
  obtain ⟨type, htype, hmem⟩ := hfinal.type_mem
  have hne : type ≠ errorType ∧ ¬(type = addedType ∨ type = doneType) ∧
      ¬(type ≠ completedType ∧ type ≠ incompleteType ∧ type ≠ failedType) := by
    rcases List.mem_pair.mp hmem with rfl | rfl <;> decide
  rw [collectBody, htype, hresponse]
  simp only [if_neg hne.1, if_neg hne.2.1, if_neg hne.2.2]
  rfl

theorem outputItems_withOutput {objects : List JsonObject} {response : JsonObject} {items : List Json}
    (h : HasOutput toInt64 objects response items) :
    outputItems (withOutput (keptItems toInt64 .empty objects) response) = items := by
  rcases h with ⟨hne, hfind⟩ | ⟨hfind, indices, hsorted, hvalues, hnone⟩
  · have hfull : jsonArrayEmptyOrMissing response outputKey = false := by
      rw [jsonArrayEmptyOrMissing, hfind]
      cases items with
      | nil => exact absurd rfl hne
      | cons item items => rfl
    rw [withOutput, if_neg (by rw [hfull]; simp), outputItems, hfind]
  · have hmissing : jsonArrayEmptyOrMissing response outputKey = true := by
      rcases hfind with hfind | hfind <;> rw [jsonArrayEmptyOrMissing, hfind]
    have hentries : (keptItems toInt64 .empty objects).entries.map (·.2) = items := by
      apply entries_of_keys hsorted
      · rw [← hvalues]
        exact List.map_congr_left fun index _ => find?_keptItems objects index
      · exact fun index hindex => (find?_keptItems objects index).trans (hnone index hindex)
    by_cases hempty : (keptItems toInt64 .empty objects).entries = []
    · rw [hempty] at hentries
      rw [withOutput, if_neg (by simp [hempty]), ← hentries]
      rcases hfind with hfind | hfind <;> rw [outputItems, hfind] <;> rfl
    · rw [withOutput, if_pos ⟨hmissing, hempty⟩, outputItems, JsonObject.find?_set, if_pos rfl]
      exact hentries

theorem find?_withOutput (items : FlatMap ℤ Json) (response : JsonObject) {key : Bytes} (h : key ≠ outputKey) :
    (withOutput items response).find? key = response.find? key := by
  unfold withOutput
  split
  · rw [JsonObject.find?_set, if_neg h]
  · rfl

end Collected

section Agreement

variable {calls : List FunctionCallItem}

def assembledMessage (call : MessageToolCall) : AssembledCall :=
  { ids := call.id.toList, names := call.name.toList, arguments := call.arguments.getD [] }

/-- Both conversions of the same events say the same. -/
def ConversionsAgree (lib : JsonLibrary) (toInt64 : UInt64 → ℤ) (status : ℤ) (model : Bytes) (includeUsage : Bool)
    (events : List Bytes) : Prop :=
  let chunks := responsesEventsToChatEvents model includeUsage lib events
  ∃ body chat, collectResponseBodyFromStreamEvents lib toInt64 events = some body ∧
    responsesJsonToChatCompletion lib { status, body } model = .completion chat ∧
    chat.content.getD [] = (contents chunks).flatten ∧
    (∀ n, chat.toolCalls[n]?.map assembledMessage = assembled n (toolChunks chunks)) ∧
    (finishReasons chunks).getLast? = some chat.finishReason

def collectedResponse (toInt64 : UInt64 → ℤ) (stream : List (StreamEvent calls)) (response : JsonObject) : JsonObject :=
  withOutput (keptItems toInt64 .empty (stream.map (·.event))) response

/-- The events of a response that is completed or incomplete, whose pieces spell its final output. -/
structure SuccessfulRun (lib : JsonLibrary) (toInt64 : UInt64 → ℤ) (calls : List FunctionCallItem)
    (stream : List (StreamEvent calls)) (final response : JsonObject) (entries : List OutputEntry) : Prop where
  wellFormed : WellFormed calls (stream.map (·.label))
  isFinal : IsFinal final
  response_eq : final.find? (ofString "response") = some (.object response)
  status_iff : response.string? (ofString "status") = some (ofString "incomplete") ↔
    final.string? typeKey = some incompleteType
  error_null : response.find? (ofString "error") = none ∨ response.find? (ofString "error") = some .null
  output : ∃ items, HasOutput toInt64 (stream.map (·.event)) response items ∧ List.Forall₂ IsEntry entries items
  calls_eq : entries.filterMap callOf = calls
  texts_eq : ((stream.map (·.label)).filterMap textOf).flatten = (entries.flatMap textsOf).flatten
  -- The reader reads what the writer has written.
  readsBack : ∃ body, lib.write (.object (collectedResponse toInt64 stream response)) = some body ∧
    lib.readObject body = some (collectedResponse toInt64 stream response)

variable {lib : JsonLibrary} {toInt64 : UInt64 → ℤ} {stream : List (StreamEvent calls)} {final response : JsonObject}
  {entries : List OutputEntry} {rest : List JsonObject} {events : List Bytes}

theorem finishReasonFromIncomplete_collected :
    finishReasonFromIncomplete (.object (collectedResponse toInt64 stream response)) =
      finishReasonFromIncomplete (.object response) := by
  have hfind : JsonObject.find? (collectedResponse toInt64 stream response) (ofString "incomplete_details") =
      response.find? (ofString "incomplete_details") := find?_withOutput _ _ (by decide)
  simp only [finishReasonFromIncomplete, Json.object?, Option.bind_some, hfind]

theorem SuccessfulRun.chatCompletion_eq (h : SuccessfulRun lib toInt64 calls stream final response entries)
    (model : Bytes) :
    let chat := chatCompletion model (collectedResponse toInt64 stream response)
    chat.content.getD [] = ((stream.map (·.label)).filterMap textOf).flatten ∧ chat.toolCalls = calls.map messageOf ∧
      chat.finishReason =
        if calls ≠ [] then ofString "tool_calls"
        else if final.string? typeKey = some incompleteType then finishReasonFromIncomplete (.object response)
        else ofString "stop" := by
  obtain ⟨items, houtput, hentries⟩ := h.output
  have hitems : outputItems (collectedResponse toInt64 stream response) = items := outputItems_withOutput houtput
  have hcalls : items.filterMap messageToolCall = calls.map messageOf := by
    rw [calls_of_entries hentries, h.calls_eq]
  have hstatus : JsonObject.string? (collectedResponse toInt64 stream response) (ofString "status") =
      some (ofString "incomplete") ↔ final.string? typeKey = some incompleteType := by
    rw [← h.status_iff, JsonObject.string?, JsonObject.string?, collectedResponse, find?_withOutput _ _ (by decide)]
  refine ⟨?_, by rw [← hcalls, ← hitems]; rfl, ?_⟩
  · rw [h.texts_eq, ← texts_of_entries hentries]
    simp only [chatCompletion, hitems]
    split
    case isTrue => rfl
    case isFalse hnot =>
      rw [not_or, not_not] at hnot
      rw [hnot.1]
      rfl
  · simp only [chatCompletion, hitems, hcalls, finishReasonFromIncomplete_collected, hstatus, ne_eq,
      List.map_eq_nil_iff]

theorem SuccessfulRun.converted (h : SuccessfulRun lib toInt64 calls stream final response entries)
    (model : Bytes) (includeUsage : Bool)
    (hread : events.filterMap lib.readObject = stream.map (·.event) ++ final :: rest) :
    let chunks := responsesEventsToChatEvents model includeUsage lib events
    (contents chunks).flatten = ((stream.map (·.label)).filterMap textOf).flatten ∧
      (finishReasons chunks).getLast? = some
        (if toolChunks chunks ≠ [] then ofString "tool_calls"
        else if final.string? typeKey = some incompleteType then finishReasonFromIncomplete (.object response)
        else ofString "stop") := by
  intro chunks
  obtain ⟨out, state, hrun, hconverts⟩ := @converts_run calls model includeUsage {} stream (final :: rest)
  obtain ⟨type, htype, hclosing⟩ := @convertEvent_final model includeUsage final h.isFinal state
  have hchunks : chunks = out ++ finalEvents model includeUsage state type final := by
    simp only [chunks, responsesEventsToChatEvents, hread, hrun, convertEvents, hclosing]
  have hcontents : contents (finalEvents model includeUsage state type final) = [] := by cases includeUsage <;> rfl
  have hsaw : state.sawToolCall = true ↔ toolChunks chunks ≠ [] := by
    rw [hconverts.sawToolCall_iff, hchunks, toolChunks_append, toolChunks_finalEvents, List.append_nil]
    simp
  have hreasons : finishReasons (finalEvents model includeUsage state type final) =
      [if toolChunks chunks ≠ [] then ofString "tool_calls"
        else if final.string? typeKey = some incompleteType then finishReasonFromIncomplete (.object response)
        else ofString "stop"] := by
    have hreason : finishReasons (finalEvents model includeUsage state type final) =
        [if state.sawToolCall then ofString "tool_calls"
          else if type = incompleteType then finishReasonFromIncomplete (.object response) else ofString "stop"] := by
      simp only [finalEvents, h.response_eq]
      cases includeUsage <;> rfl
    simp only [hreason, hsaw, htype, Option.some.injEq]
  rw [hchunks, contents_append, hconverts.contents_eq, hcontents, List.append_nil, finishReasons_append,
    hconverts.finishReasons_eq, hreasons, ← hchunks]
  exact ⟨rfl, rfl⟩

theorem SuccessfulRun.collected (h : SuccessfulRun lib toInt64 calls stream final response entries) (model : Bytes)
    (hread : events.filterMap lib.readObject = stream.map (·.event) ++ final :: rest) {status : ℤ}
    (hstatus : status < 400) :
    ∃ body, collectResponseBodyFromStreamEvents lib toInt64 events = some body ∧
      responsesJsonToChatCompletion lib { status, body } model =
        if response.find? (ofString "error") = none then
          .completion (chatCompletion model (collectedResponse toInt64 stream response))
        else .result { status, body } := by
  obtain ⟨body, hwrite, hbody⟩ := h.readsBack
  refine ⟨body, ?_, ?_⟩
  · rw [collectResponseBodyFromStreamEvents, hread, collectBody_stream,
      collectBody_final lib _ rest h.isFinal h.response_eq]
    exact hwrite
  · have herror : JsonObject.hasField (collectedResponse toInt64 stream response) (ofString "error") =
        (response.find? (ofString "error")).isSome := by
      rw [JsonObject.hasField, collectedResponse, find?_withOutput _ _ (by decide)]
    rw [responsesJsonToChatCompletion, if_neg (by simpa using hstatus), hbody]
    simp only [herror]
    cases response.find? (ofString "error") <;> rfl

theorem toolChunks_eq_nil_iff {chunks : List ToolCallChunk} (h : ∀ n, assembled n chunks = calls[n]?.map wanted) :
    chunks = [] ↔ calls = [] := by
  constructor
  · rintro rfl
    have hfirst := h 0
    cases calls with
    | nil => rfl
    | cons call calls => cases hfirst
  · rintro rfl
    cases chunks with
    | nil => rfl
    | cons chunk chunks =>
      have hown := h chunk.index
      simp [assembled] at hown

/-- Both conversions agree exactly where the response has no `error` field at all, null included, and all arguments
come under the index of their call. -/
theorem conversions_agree_iff (h : SuccessfulRun lib toInt64 calls stream final response entries)
    (hread : events.filterMap lib.readObject = stream.map (·.event) ++ final :: rest) {status : ℤ}
    (hstatus : status < 400)
    (model : Bytes) (includeUsage : Bool) :
    ConversionsAgree lib toInt64 status model includeUsage events ↔
      response.find? (ofString "error") = none ∧ ReachTheirCall calls (stream.map (·.label)) := by
  have hreach := tool_calls_reassemble_iff lib model includeUsage stream h.wellFormed h.isFinal hread
  obtain ⟨hcontent, htoolCalls, hfinish⟩ := h.chatCompletion_eq model
  obtain ⟨hcontents, hreasons⟩ := h.converted model includeUsage hread
  obtain ⟨body, hcollect, hresult⟩ := h.collected model hread hstatus
  have hmessages (n : ℕ) : (calls.map messageOf)[n]?.map assembledMessage = calls[n]?.map wanted := by
    rw [List.getElem?_map, Option.map_map]
    rfl
  constructor
  · rintro ⟨body', chat, hcollect', hchat, -, hassembled, -⟩
    obtain rfl := Option.some.inj (hcollect.symm.trans hcollect')
    rw [hresult] at hchat
    have herror : response.find? (ofString "error") = none := by
      by_contra hsome
      rw [if_neg hsome] at hchat
      cases hchat
    rw [if_pos herror, ChatResult.completion.injEq] at hchat
    refine ⟨herror, hreach.mp fun n => ?_⟩
    rw [← hassembled n, ← hchat, htoolCalls, hmessages]
  · rintro ⟨herror, hreached⟩
    have hassembled := hreach.mpr hreached
    refine ⟨body, _, hcollect, by rw [hresult, if_pos herror], hcontent.trans hcontents.symm, fun n => ?_, ?_⟩
    · rw [htoolCalls, hmessages, hassembled]
    · simp only [hreasons, hfinish, ne_eq, toolChunks_eq_nil_iff hassembled]

end Agreement

section Samples

def sampleResponse (error : List (Bytes × Json)) : JsonObject :=
  error ++ [stringField "id" (ofString "resp_1"), stringField "status" (ofString "completed")]

def sampleFinal (error : List (Bytes × Json)) : JsonObject :=
  [field "response" (.object (sampleResponse error)), stringField "type" completedType]

def sampleCast (bits : UInt64) : ℤ := if bits = 0 then 0 else 1

def sampleDocuments (error : List (Bytes × Json)) : List Json :=
  (crossingCalls.map (·.event) ++
    [sampleFinal error, collectedResponse sampleCast crossingCalls (sampleResponse error)]).map .object

def sampleInput (error : List (Bytes × Json)) : List Bytes :=
  (crossingCalls.map (·.event) ++ [sampleFinal error]).map fun event => Json.render (.object event)

def callItem (call : FunctionCallItem) : Json :=
  .object [stringField "arguments" call.arguments, stringField "call_id" call.callId,
    stringField "id" (ofString "fc_" ++ call.callId), stringField "name" call.name,
    stringField "type" (ofString "function_call")]

theorem hasOutput_crossingCalls {response : JsonObject} (h : response.find? outputKey = none) :
    HasOutput sampleCast (crossingCalls.map (·.event)) response [callItem taggedCall, callItem taggedSecond] := by
  refine .inr ⟨.inl h, [0, 1], by simp, by decide +kernel, fun index hindex => ?_⟩
  have hindices : ∀ object ∈ crossingCalls.map (·.event), ∀ item ∈ outputItem sampleCast object,
      item.1 ∈ [(0 : ℤ), 1] := by decide +kernel
  rw [lastItemAt, List.filterMap_eq_nil_iff.mpr, List.getLast?_nil]
  intro object hobject
  unfold itemAt
  split
  · cases hitem : outputItem sampleCast object with
    | none => rfl
    | some item =>
      have hne : item.1 ≠ index := fun h => hindex (h ▸ hindices object hobject item hitem)
      rw [Option.filter_some, if_neg (by simpa using hne)]
      rfl
  · rfl

theorem successfulRun_crossingCalls {error : List (Bytes × Json)}
    (herror : error = [] ∨ error = [field "error" .null]) :
    SuccessfulRun (documentLibrary (sampleDocuments error)) sampleCast [taggedCall, taggedSecond] crossingCalls
      (sampleFinal error) (sampleResponse error) [.call taggedCall, .call taggedSecond] where
  wellFormed := wellFormed_crossingCalls
  isFinal := ⟨rfl, completedType, rfl, by decide⟩
  response_eq := rfl
  status_iff := by rcases herror with rfl | rfl <;> decide
  error_null := by rcases herror with rfl | rfl <;> decide
  output := by
    refine ⟨_, hasOutput_crossingCalls (by rcases herror with rfl | rfl <;> rfl), .cons ?_ (.cons ?_ .nil)⟩
    · exact ⟨_, rfl, rfl, rfl, rfl, rfl, rfl⟩
    · exact ⟨_, rfl, rfl, rfl, rfl, rfl, rfl⟩
  calls_eq := rfl
  texts_eq := rfl
  readsBack := by
    refine ⟨Json.render (.object (collectedResponse sampleCast crossingCalls (sampleResponse error))), ?_⟩
    rcases herror with rfl | rfl <;> decide +kernel

theorem sampleInput_read {error : List (Bytes × Json)} (herror : error = [] ∨ error = [field "error" .null]) :
    (sampleInput error).filterMap (documentLibrary (sampleDocuments error)).readObject =
      crossingCalls.map (·.event) ++ sampleFinal error :: [] := by
  rcases herror with rfl | rfl <;> decide +kernel

theorem crossing_calls_agree : ConversionsAgree (documentLibrary (sampleDocuments [])) sampleCast 200 (ofString "gpt")
    true (sampleInput []) :=
  (conversions_agree_iff (successfulRun_crossingCalls (.inl rfl)) (sampleInput_read (.inl rfl)) (by decide)
    (ofString "gpt") true).mpr ⟨rfl, reachTheirCall_crossingCalls⟩

/-- A response whose error is null is handed on as it is. -/
theorem null_error_is_no_completion :
    SuccessfulRun (documentLibrary (sampleDocuments [field "error" .null])) sampleCast [taggedCall, taggedSecond]
        crossingCalls (sampleFinal [field "error" .null]) (sampleResponse [field "error" .null])
        [.call taggedCall, .call taggedSecond] ∧
      ¬ ConversionsAgree (documentLibrary (sampleDocuments [field "error" .null])) sampleCast 200 (ofString "gpt") true
        (sampleInput [field "error" .null]) := by
  have hrun := @successfulRun_crossingCalls [field "error" .null] (.inr rfl)
  refine ⟨hrun, ?_⟩
  rintro ⟨body, chat, hcollect, hchat, -⟩
  obtain ⟨body', hcollect', hresult⟩ := hrun.collected (ofString "gpt") (sampleInput_read (.inr rfl))
    (show (200 : ℤ) < 400 by decide)
  obtain rfl := Option.some.inj (hcollect.symm.trans hcollect')
  rw [hresult, if_neg (by decide)] at hchat
  cases hchat

end Samples

end Tightrope.Proxy.Chat
