import Tightrope.Library.Separators
import Tightrope.Proxy.Chat.ImageLimit
import Tightrope.Proxy.Chat.SoundChatRequest
import Tightrope.Proxy.Openai.CarriedFields
import Tightrope.Proxy.Openai.Renormalization
import Tightrope.Proxy.RenderedRequests

namespace Tightrope.Proxy.Chat

open Bytes Tightrope.Core Openai Fallible Separators JsonGrammar

section Utterances

inductive Utterance where
  | text (role type text : Bytes)
  | call (callId name arguments : Bytes)
  | output (callId text : Bytes)
  deriving DecidableEq, Repr

def textOfPart : Json → Option Bytes
  | .string text => some text
  | .object part =>
    if (nonemptyString? part (ofString "type")).all kAssistantTextPartTypes.contains then
      JsonObject.string? part (ofString "text")
    else none
  | _ => none

def callUtterance : Json → Option Utterance
  | .object toolCall => do
    let callId ← JsonObject.string? toolCall (ofString "id")
    let function ← (JsonObject.find? toolCall (ofString "function")).bind Json.object?
    let name ← function.string? (ofString "name")
    let arguments ← function.string? (ofString "arguments")
    return .call callId name arguments
  | _ => none

def saidAs (role type : Bytes) (parts : List Json) : List Utterance :=
  parts.flatMap fun part => (textOfPart part).toList.map (.text role type)

def messageUtterances : Json → List Utterance
  | .object message =>
    let parts := contentParts (messageContent message)
    let role := JsonObject.string? message (ofString "role")
    if role = some (ofString "user") then saidAs (ofString "user") (ofString "input_text") parts
    else if role = some (ofString "assistant") then
      saidAs (ofString "assistant") (ofString "output_text") parts ++
        (arrayField message (ofString "tool_calls")).flatMap fun toolCall => (callUtterance toolCall).toList
    else if role = some (ofString "tool") then
      (optionalToolCallId message).toList.map (.output · (parts.filterMap contentPartText).flatten)
    else []
  | _ => []

def partUtterance (role : Bytes) : Json → Option Utterance
  | .object part => do
    let type ← JsonObject.string? part (ofString "type")
    let text ← JsonObject.string? part (ofString "text")
    if type = ofString "input_text" ∨ type = ofString "output_text" then return .text role type text else none
  | _ => none

def itemUtterances : Json → List Utterance
  | .object item =>
    let field (name : String) := (JsonObject.string? item (ofString name)).getD []
    if JsonObject.string? item (ofString "type") = some (ofString "function_call") then
      [.call (field "call_id") (field "name") (field "arguments")]
    else if JsonObject.string? item (ofString "type") = some (ofString "function_call_output") then
      [.output (field "call_id") (field "output")]
    else (arrayField item (ofString "content")).filterMap (partUtterance (field "role"))
  | _ => []

end Utterances

section Spoken

variable {object : JsonObject} {part : Json}

def spoken (role : Bytes) (part : Json) : List Utterance :=
  (((sanitizeInterleavedReasoningContentPart part).map (normalizedListPart role)).bind (partUtterance role)).toList

theorem spoken_inputTextPart (text : Bytes) :
    spoken (ofString "user") (inputTextPart text) = [.text (ofString "user") (ofString "input_text") text] ∧
    spoken (ofString "assistant") (inputTextPart text) =
      [.text (ofString "assistant") (ofString "output_text") text] := ⟨rfl, rfl⟩

theorem spoken_input_text {text : Bytes} (htype : object.string? (ofString "type") = some (ofString "input_text"))
    (htext : object.string? (ofString "text") = some text) :
    spoken (ofString "assistant") (.object object) = [.text (ofString "assistant") (ofString "output_text") text] := by
  have hkept : sanitizeInterleavedReasoningContentPart (.object object) =
      some (.object (kInterleavedReasoningKeys.foldl JsonObject.erase object)) := by
    rw [sanitizeInterleavedReasoningContentPart, htype, if_neg (by decide)]
  have hextract : extractTextContentPart kAssistantTextPartTypes false
      (.object (kInterleavedReasoningKeys.foldl JsonObject.erase object)) = some text := by
    rw [extractTextContentPart, string?_foldl_erase (by decide), string?_foldl_erase (by decide), htype, htext]
    rfl
  have hnormalized : normalizedListPart (ofString "assistant")
      (.object (kInterleavedReasoningKeys.foldl JsonObject.erase object)) = textPart (ofString "output_text") text := by
    rw [normalizedListPart_of_not_string (by rintro text ⟨⟩), normalizedPart, hextract]
    rfl
  rw [spoken, hkept, Option.map_some, hnormalized]
  rfl

theorem said_mapChatUserContentPart (part : Json) (mapped : Option Json)
    (h : mapChatUserContentPart part = .ok mapped) :
    ((textOfPart part).toList.map (.text (ofString "user") (ofString "input_text"))).Sublist
      (mapped.toList.flatMap (spoken (ofString "user"))) := by
  cases htext : textOfPart part with
  | none => exact List.nil_sublist _
  | some text =>
    have hmapped : mapped = some (inputTextPart text) := by
      cases part with
      | string value =>
        cases htext
        cases h
        rfl
      | object object =>
        rw [textOfPart] at htext
        split_ifs at htext with htype
        have htyped : inferContentPartType object = ofString "text" ∨
            inferContentPartType object = ofString "input_text" ∨
            inferContentPartType object = ofString "output_text" := by
          unfold inferContentPartType
          cases hfield : nonemptyString? object (ofString "type") with
          | none =>
            left
            rw [htext]
            rfl
          | some type =>
            rw [hfield] at htype
            have hmem := List.contains_iff_mem.mp htype
            simpa only [kAssistantTextPartTypes, List.mem_cons, List.not_mem_nil, or_false] using hmem
        rw [mapChatUserContentPart, if_pos htyped, htext] at h
        cases h
        rfl
      | _ => cases htext
    rw [hmapped, Option.toList_some, Option.toList_some, List.flatMap_singleton, (spoken_inputTextPart text).1]
    exact List.Sublist.refl _

theorem said_parseContentPart (part : Json) (parsed : List Json) (h : parseContentPart part = .ok parsed) :
    ((textOfPart part).toList.map (.text (ofString "assistant") (ofString "output_text"))).Sublist
      (parsed.flatMap (spoken (ofString "assistant"))) := by
  cases htext : textOfPart part with
  | none => exact List.nil_sublist _
  | some text =>
    have hsaid : parsed.flatMap (spoken (ofString "assistant")) =
        [.text (ofString "assistant") (ofString "output_text") text] := by
      cases part with
      | string value =>
        cases htext
        cases h
        rw [List.flatMap_singleton, (spoken_inputTextPart text).2]
      | object object =>
        rw [textOfPart] at htext
        split_ifs at htext with htype
        have hnot {type : Bytes} (heq : JsonObject.string? object (ofString "type") = some type) (hne : type ≠ [])
            (hcontains : kAssistantTextPartTypes.contains type = false) : False := by
          have hnonempty : nonemptyString? object (ofString "type") = some type := by
            rw [nonemptyString?, heq, Option.filter_some, if_pos (by simpa using hne)]
          rw [hnonempty, Option.all_some, hcontains] at htype
          cases htype
        have himage : (nestedImage object).filter
            (fun _ => JsonObject.string? object (ofString "type") = some (ofString "image_url")) = none := by
          refine Option.filter_eq_none_iff.mpr fun _ _ => ?_
          simpa using fun heq => hnot heq (by decide) (by decide)
        rw [parseContentPart, himage] at h
        dsimp only at h
        by_cases hinput : JsonObject.string? object (ofString "type") = some (ofString "input_text")
        · rw [if_pos (.inl hinput)] at h
          cases h
          rw [List.flatMap_singleton, spoken_input_text hinput htext]
        · have hother : ¬ (JsonObject.string? object (ofString "type") = some (ofString "input_text") ∨
              JsonObject.string? object (ofString "type") = some (ofString "input_image")) := by
            rintro (heq | heq)
            · exact hinput heq
            · exact hnot heq (by decide) (by decide)
          rw [if_neg hother, if_neg fun heq => hnot heq (by decide) (by decide), htext] at h
          cases h
          rw [List.flatMap_singleton, (spoken_inputTextPart text).2]
      | _ => cases htext
    rw [hsaid]
    exact List.Sublist.refl _

end Spoken

section Sent

def sentUtterances (item : Json) : List Utterance :=
  match sanitizeInputItem item with
  | .ok item' => itemUtterances item'
  | .error _ => []

theorem sentUtterances_messageItem (parts : List Json) :
    sentUtterances (messageItem (ofString "user") parts) = parts.flatMap (spoken (ofString "user")) ∧
    sentUtterances (messageItem (ofString "assistant") parts) = parts.flatMap (spoken (ofString "assistant")) := by
  have hspoken (role : Bytes) : ((parts.filterMap sanitizeInterleavedReasoningContentPart).map
      (normalizedListPart role)).filterMap (partUtterance role) = parts.flatMap (spoken role) := by
    induction parts with
    | nil => rfl
    | cons part parts ih =>
      rw [List.flatMap_cons, ← ih, List.filterMap_cons, spoken]
      cases sanitizeInterleavedReasoningContentPart part with
      | none => rfl
      | some kept =>
        rw [List.map_cons, List.filterMap_cons]
        cases hsaid : partUtterance role (normalizedListPart role kept) with
        | none => simp [hsaid]
        | some utterance => simp [hsaid]
  exact ⟨hspoken (ofString "user"), hspoken (ofString "assistant")⟩

theorem said_orEmptyText (g : Json → List Utterance) (parts : List Json) :
    (parts.flatMap g).Sublist ((orEmptyText parts).flatMap g) := by
  unfold orEmptyText
  split_ifs with hparts
  · rw [hparts]
    exact List.nil_sublist _
  · exact List.Sublist.refl _

theorem said_toUserInputParts {content : Json} {parts : List Json} (h : toUserInputParts content = .ok parts) :
    (saidAs (ofString "user") (ofString "input_text") (contentParts content)).Sublist
      (parts.flatMap (spoken (ofString "user"))) := by
  have hsingle (part : Json)
      (h : (mapChatUserContentPart part).map (fun mapped => orEmptyText mapped.toList) = .ok parts) :
      (saidAs (ofString "user") (ofString "input_text") [part]).Sublist (parts.flatMap (spoken (ofString "user"))) := by
    obtain ⟨mapped, hmapped, rfl⟩ := map_eq_ok.mp h
    rw [saidAs, List.flatMap_singleton]
    exact (said_mapChatUserContentPart part mapped hmapped).trans (said_orEmptyText _ _)
  unfold toUserInputParts at h
  split at h
  · exact List.nil_sublist _
  · obtain ⟨mapped, hmapped, rfl⟩ := map_eq_ok.mp h
    have hcollect := flatMap_mapM appends_sublist said_mapChatUserContentPart hmapped
    refine List.Sublist.trans ?_ (said_orEmptyText _ _)
    rw [List.filterMap_eq_flatMap_toList, List.flatMap_assoc]
    exact hcollect
  · next hnull harray =>
    rw [show contentParts content = [content] by
      cases content with
      | array items => exact absurd rfl (harray items)
      | _ => rfl]
    exact hsingle content h

theorem said_toInputParts {content : Json} {parts : List Json} (h : toInputParts content = .ok parts) :
    (saidAs (ofString "assistant") (ofString "output_text") (contentParts content)).Sublist
      (parts.flatMap (spoken (ofString "assistant"))) := by
  unfold toInputParts at h
  split at h
  · cases h
    exact List.Sublist.refl _
  · obtain ⟨parsed, hparsed, rfl⟩ := map_eq_ok.mp h
    have hcollect := flatMap_mapM appends_sublist said_parseContentPart hparsed
    refine List.Sublist.trans ?_ (said_orEmptyText _ _)
    rw [List.flatten_eq_flatMap, List.flatMap_assoc]
    exact hcollect
  · next fields =>
    obtain ⟨parsed, hparsed, rfl⟩ := map_eq_ok.mp h
    have hsaid : saidAs (ofString "assistant") (ofString "output_text") (contentParts (.object fields)) =
        (textOfPart (.object fields)).toList.map (.text (ofString "assistant") (ofString "output_text")) :=
      List.flatMap_singleton _ _
    rw [hsaid]
    exact (said_parseContentPart _ parsed hparsed).trans (said_orEmptyText _ _)
  · next hstring harray hobject =>
    cases content with
    | string text => exact absurd rfl (hstring text)
    | array items => exact absurd rfl (harray items)
    | object fields => exact absurd rfl (hobject fields)
    | _ => exact List.nil_sublist _

theorem sentUtterances_toolCallItem (toolCall item : Json) (h : toolCallItem toolCall = .ok item) :
    (callUtterance toolCall).toList = sentUtterances item := by
  unfold toolCallItem at h
  split at h
  · next fields =>
    split at h
    · cases h
    · next callId hcall =>
      split at h
      · next function hfunction =>
        split at h
        · cases h
        · next name hname =>
          split at h
          · cases h
          · next arguments harguments =>
            cases h
            have hid := (Option.filter_eq_some_iff.mp hcall).1
            have hnamed := (Option.filter_eq_some_iff.mp hname).1
            simp only [callUtterance, hid, hfunction, hnamed, harguments, Json.object?, Option.bind_eq_bind,
              Option.bind_some]
            rfl
      · cases h
  · cases h

theorem sentUtterances_toolOutputItem {message : JsonObject} {item : Json} (h : toolOutputItem message = .ok item) :
    (optionalToolCallId message).toList.map
      (.output · ((contentParts (messageContent message)).filterMap contentPartText).flatten) =
        sentUtterances item := by
  unfold toolOutputItem at h
  split at h
  · cases h
  · next callId hcall =>
    rw [(Option.filter_eq_some_iff.mp hcall).1]
    split at h
    · cases h
    · cases h
    · next content hnull hcontent =>
      obtain ⟨output, houtput, rfl⟩ := map_eq_ok.mp h
      have htext : ((contentParts content).filterMap contentPartText).flatten = output := by
        unfold normalizeToolOutputContent at houtput
        split at houtput
        · cases houtput
          exact List.append_nil _
        · dsimp only at houtput
          split_ifs at houtput
          · cases houtput
          · cases houtput
            rfl
        · cases houtput
      rw [messageContent, hcontent, Option.getD_some, htext]
      rfl

theorem said_toolCallItems {message : JsonObject} {calls : List Json} (h : toolCallItems message = .ok calls) :
    (arrayField message (ofString "tool_calls")).flatMap (fun toolCall => (callUtterance toolCall).toList) =
      calls.flatMap sentUtterances := by
  unfold toolCallItems at h
  split at h
  · next toolCalls hfind =>
    rw [arrayField, hfind]
    exact flatMap_mapM appends_eq sentUtterances_toolCallItem h
  · next hnone =>
    cases h
    have hempty : arrayField message (ofString "tool_calls") = [] := by
      unfold arrayField
      split
      · next toolCalls hfind => exact absurd hfind (hnone toolCalls)
      · rfl
    rw [hempty]
    rfl

theorem said_convertMessage (input : ChatInput) (message : Json) (input' : ChatInput)
    (h : convertMessage input message = .ok input') :
    (input.items.flatMap sentUtterances ++ messageUtterances message).Sublist
      (input'.items.flatMap sentUtterances) := by
  unfold convertMessage at h
  split at h
  · next message =>
    split at h
    · cases h
    · next role hrole =>
      have hfield : JsonObject.string? message (ofString "role") = some role := (Option.filter_eq_some_iff.mp hrole).1
      have hsupported : isSupportedRole role = true := (Option.filter_eq_some_iff.mp hrole).2
      have hadd {items : List Json} (hsaid : (messageUtterances (.object message)).Sublist
          (items.flatMap sentUtterances)) : (input.items.flatMap sentUtterances ++
            messageUtterances (.object message)).Sublist ((input.addItems items).items.flatMap sentUtterances) := by
        rw [ChatInput.addItems, List.flatMap_append]
        exact (List.Sublist.refl _).append hsaid
      dsimp only at h
      split_ifs at h with hinstruction htool huser
      · obtain ⟨-, -, h⟩ := bind_eq_ok.mp h
        cases h
        have hitems (text : Bytes) : (input.addInstruction text).items = input.items := by
          unfold ChatInput.addInstruction
          split_ifs
          · rfl
          · split <;> rfl
        have hnothing : messageUtterances (.object message) = [] := by
          rw [messageUtterances, hfield]
          obtain rfl | rfl := hinstruction <;> rfl
        rw [hitems, hnothing, List.append_nil]
      · subst htool
        obtain ⟨item, hitem, h⟩ := bind_eq_ok.mp h
        cases h
        refine hadd ?_
        rw [List.flatMap_singleton, ← sentUtterances_toolOutputItem hitem, messageUtterances, hfield]
        exact .refl _
      · subst huser
        obtain ⟨parts, hparts, h⟩ := bind_eq_ok.mp h
        cases h
        refine hadd ?_
        rw [List.flatMap_singleton, (sentUtterances_messageItem parts).1, messageUtterances, hfield, if_pos rfl]
        exact said_toUserInputParts hparts
      · obtain ⟨parts, hparts, h⟩ := bind_eq_ok.mp h
        obtain ⟨calls, hcalls, h⟩ := bind_eq_ok.mp h
        cases h
        obtain hrole | hrole | hrole | hassistant | hrole := role_cases hsupported
        · exact absurd (.inl hrole) hinstruction
        · exact absurd (.inr hrole) hinstruction
        · exact absurd hrole huser
        · subst hassistant
          refine hadd ?_
          rw [List.flatMap_cons, (sentUtterances_messageItem parts).2, messageUtterances, hfield, if_neg (by decide),
            if_pos rfl, said_toolCallItems hcalls]
          exact (said_toInputParts hparts).append (List.Sublist.refl _)
        · exact absurd hrole htool
  · cases h

theorem said_convertMessages {messages : List Json} {input : ChatInput} (h : convertMessages messages = .ok input) :
    (messages.flatMap messageUtterances).Sublist (input.items.flatMap sentUtterances) := by
  have hcollect := foldlM_collects collects_sublist said_convertMessage h
  exact hcollect

end Sent

section Instructions

def instructionText : Json → Option Bytes
  | .object message =>
    if JsonObject.string? message (ofString "role") = some (ofString "system") ∨
        JsonObject.string? message (ofString "role") = some (ofString "developer") then
      some (join 10 (((contentParts (messageContent message)).filterMap contentPartText).dropWhile (· = [])))
    else none
  | _ => none

def instructionTexts (messages : List Json) : List Bytes := (messages.filterMap instructionText).filter (· ≠ [])

theorem foldl_joinText {joined : Bytes} (h : joined ≠ []) (texts : List Bytes) :
    texts.foldl joinText joined = join 10 (joined :: texts) := by
  induction texts generalizing joined with
  | nil => rfl
  | cons text texts ih =>
    have hjoined : joinText joined text = joined ++ 10 :: text := by
      rw [joinText, if_neg h, List.append_assoc]
      rfl
    rw [List.foldl_cons, hjoined, ih (by simp), join_append, join]
    exact congrArg (joined ++ ·) (join_append [10] text texts)

theorem foldl_joinText_nil (texts : List Bytes) : texts.foldl joinText [] = join 10 (texts.dropWhile (· = [])) := by
  induction texts with
  | nil => rfl
  | cons text texts ih =>
    have hjoined : joinText [] text = text := if_pos rfl
    rw [List.foldl_cons, hjoined]
    by_cases htext : text = []
    · rw [htext, ih, List.dropWhile_cons_of_pos (by simp)]
    · rw [foldl_joinText htext, List.dropWhile_cons_of_neg (by simpa using htext)]

theorem flattenTextContent_eq (content : Json) :
    flattenTextContent content =
      join 10 (((contentParts content).filterMap contentPartText).dropWhile (· = [])) := by
  have hone (text : Bytes) : text = join 10 ([text].dropWhile (· = [])) := by
    rw [← foldl_joinText_nil]
    have hjoined : joinText [] text = text := if_pos rfl
    exact hjoined.symm
  cases content with
  | string text => exact hone text
  | array parts => exact foldl_joinText_nil _
  | object fields =>
    cases htext : JsonObject.string? fields (ofString "text") with
    | none =>
      have hparts : (contentParts (.object fields)).filterMap contentPartText = [] := by
        have hpart : contentPartText (.object fields) = none := htext
        exact (List.filterMap_cons_none hpart).trans List.filterMap_nil
      rw [flattenTextContent, htext, hparts]
      rfl
    | some text =>
      have hparts : (contentParts (.object fields)).filterMap contentPartText = [text] := by
        have hpart : contentPartText (.object fields) = some text := htext
        exact List.filterMap_cons_some hpart
      rw [flattenTextContent, htext, hparts]
      exact hone text
  | _ => rfl

def heldInstructions (texts : List Bytes) : Option Bytes := if texts = [] then none else some (join 10 texts)

theorem addInstruction_held {input : ChatInput} {texts : List Bytes} (h : input.instructions = heldInstructions texts)
    (text : Bytes) : (input.addInstruction text).instructions = heldInstructions (texts ++ [text].filter (· ≠ [])) := by
  unfold ChatInput.addInstruction
  by_cases htext : text = []
  · rw [if_pos htext, htext, h]
    simp
  · have hfilter : [text].filter (· ≠ []) = [text] := List.filter_cons_of_pos (by simpa using htext)
    rw [if_neg htext, hfilter, h, heldInstructions]
    by_cases htexts : texts = []
    · rw [if_pos htexts, htexts]
      rfl
    · have hne : texts ++ [text] ≠ [] := by simp
      rw [if_neg htexts, heldInstructions, if_neg hne, join_concat htexts]
      exact congrArg some (List.append_assoc _ _ _)

theorem convertMessage_instructions {input input' : ChatInput} {message : Json} {texts : List Bytes}
    (h : input.instructions = heldInstructions texts) (hconvert : convertMessage input message = .ok input') :
    input'.instructions = heldInstructions (texts ++ instructionTexts [message]) := by
  unfold convertMessage at hconvert
  split at hconvert
  · next fields =>
    split at hconvert
    · cases hconvert
    · next role hrole =>
      have hfield : JsonObject.string? fields (ofString "role") = some role := (Option.filter_eq_some_iff.mp hrole).1
      have hnone (hinstruction : ¬ (role = ofString "system" ∨ role = ofString "developer")) :
          instructionTexts [.object fields] = [] := by
        have htext : instructionText (.object fields) = none := by
          rw [instructionText, hfield, if_neg (by simpa only [Option.some.injEq] using hinstruction)]
        rw [instructionTexts, List.filterMap_cons_none htext]
        rfl
      dsimp only at hconvert
      split_ifs at hconvert with hinstruction
      · obtain ⟨-, -, hconvert⟩ := bind_eq_ok.mp hconvert
        cases hconvert
        have htext : instructionText (.object fields) = some (flattenTextContent (messageContent fields)) := by
          rw [instructionText, hfield, if_pos (by simpa only [Option.some.injEq] using hinstruction),
            flattenTextContent_eq]
        rw [instructionTexts, List.filterMap_cons_some htext]
        exact addInstruction_held h _
      · obtain ⟨item, -, hconvert⟩ := bind_eq_ok.mp hconvert
        cases hconvert
        rw [hnone hinstruction, List.append_nil]
        exact h
      · obtain ⟨parts, -, hconvert⟩ := bind_eq_ok.mp hconvert
        cases hconvert
        rw [hnone hinstruction, List.append_nil]
        exact h
      · obtain ⟨parts, -, hconvert⟩ := bind_eq_ok.mp hconvert
        obtain ⟨calls, -, hconvert⟩ := bind_eq_ok.mp hconvert
        cases hconvert
        rw [hnone hinstruction, List.append_nil]
        exact h
  · cases hconvert

theorem foldlM_instructions {messages : List Json} {input input' : ChatInput} {texts : List Bytes}
    (hinput : input.instructions = heldInstructions texts) (h : messages.foldlM convertMessage input = .ok input') :
    input'.instructions = heldInstructions (texts ++ instructionTexts messages) := by
  induction messages generalizing input texts with
  | nil =>
    cases h
    rw [hinput]
    exact congrArg heldInstructions (List.append_nil texts).symm
  | cons message messages ih =>
    rw [List.foldlM_cons] at h
    obtain ⟨next, hnext, h⟩ := bind_eq_ok.mp h
    have hsplit : instructionTexts (message :: messages) = instructionTexts [message] ++ instructionTexts messages := by
      rw [instructionTexts, instructionTexts, instructionTexts, ← List.filter_append, ← List.filterMap_append]
      rfl
    rw [hsplit, ← List.append_assoc]
    exact ih (convertMessage_instructions hinput hnext) h

theorem convertMessages_instructions {messages : List Json} {input : ChatInput}
    (h : convertMessages messages = .ok input) : input.instructions = heldInstructions (instructionTexts messages) := by
  have hempty : ({} : ChatInput).instructions = heldInstructions [] := rfl
  exact foldlM_instructions hempty h

end Instructions

section Tools

structure ToolDefinition where
  name : Bytes
  -- `none` where it is no string.
  description : Option Bytes
  parameters : Option Json
  strict : Option Json
  -- Whether the tool is given as it is, not in a function object.
  flat : Bool

def definitionOf (flat : Bool) (fields : JsonObject) : Option ToolDefinition :=
  (nonemptyString? fields (ofString "name")).map fun name =>
    { name, description := fields.string? (ofString "description"), parameters := fields.find? (ofString "parameters"),
      strict := fields.find? (ofString "strict"), flat }

def functionOfTool (tool : JsonObject) : Option JsonObject := (tool.find? (ofString "function")).bind Json.object?

def toolDefinition : Json → Option ToolDefinition
  | .object tool =>
    match functionOfTool tool with
    | some function => definitionOf false function
    | none => definitionOf true tool
  | _ => none

/-- What a definition keeps when it is sent; whether it is strict is copied of a tool that is given as it is. -/
structure ToolDefinition.SentAs (given sent : ToolDefinition) : Prop where
  name : sent.name = given.name
  description : sent.description = given.description
  parameters : sent.parameters = given.parameters
  strict : given.flat = true → sent.strict = given.strict

theorem ToolDefinition.SentAs.refl (given : ToolDefinition) : given.SentAs given := ⟨rfl, rfl, rfl, fun _ => rfl⟩

theorem toolDefinition_setType (tool : JsonObject) (type : Json) :
    toolDefinition (.object (tool.set (ofString "type") type)) = toolDefinition (.object tool) := by
  have hkept {key : Bytes} (hkey : key ≠ ofString "type") :
      (tool.set (ofString "type") type).find? key = tool.find? key := by
    rw [JsonObject.find?_set, if_neg hkey]
  have hfunction : functionOfTool (tool.set (ofString "type") type) = functionOfTool tool := by
    rw [functionOfTool, hkept (by decide), functionOfTool]
  rw [toolDefinition, toolDefinition, hfunction]
  cases functionOfTool tool with
  | some function => rfl
  | none =>
    simp only [definitionOf, nonemptyString?, JsonObject.string?]
    rw [hkept (by decide), hkept (by decide), hkept (by decide), hkept (by decide)]

theorem toolDefinition_normalizeTypeAlias (tool : Json) : toolDefinition (normalizeTypeAlias tool) =
    toolDefinition tool := by
  cases tool with
  | object fields =>
    rw [normalizeTypeAlias]
    cases JsonObject.string? fields (ofString "type") with
    | none => rfl
    | some type => exact toolDefinition_setType fields _
  | _ => rfl

theorem sentAs_functionTool (type : Bytes) (function : JsonObject) :
    List.Forall₂ ToolDefinition.SentAs (definitionOf false function).toList
      (((functionTool type function).map .object).bind toolDefinition).toList := by
  rw [functionTool, definitionOf]
  cases hname : nonemptyString? function (ofString "name") with
  | none => exact .nil
  | some name =>
    have hne := (Option.filter_eq_some_iff.mp hname).2
    have hread {sent : JsonObject} {description : Option Bytes} {parameters : Option Json}
        (hfunction : functionOfTool sent = none) (hsent : sent.string? (ofString "name") = some name)
        (hdescription : sent.string? (ofString "description") = description)
        (hparameters : sent.find? (ofString "parameters") = parameters) (strict : Option Json) :
        List.Forall₂ ToolDefinition.SentAs
          [{ name, description, parameters, strict, flat := false }] (toolDefinition (.object sent)).toList := by
      rw [toolDefinition, hfunction]
      simp only [definitionOf, nonemptyString?, hsent]
      rw [Option.filter_some, if_pos hne]
      exact .cons ⟨rfl, hdescription, hparameters, fun hflat => absurd hflat Bool.false_ne_true⟩ .nil
    rw [Option.map_some, Option.map_some, Option.map_some, Option.bind_some, Option.toList_some]
    cases hdescription : function.string? (ofString "description") with
    | none =>
      cases hparameters : function.find? (ofString "parameters") with
      | none => refine hread ?_ ?_ ?_ ?_ _ <;> rfl
      | some parameters => refine hread ?_ ?_ ?_ ?_ _ <;> rfl
    | some description =>
      cases hparameters : function.find? (ofString "parameters") with
      | none => refine hread ?_ ?_ ?_ ?_ _ <;> rfl
      | some parameters => refine hread ?_ ?_ ?_ ?_ _ <;> rfl

theorem sentAs_normalizeChatTool (tool : Json) (mapped : Option Json) (h : normalizeChatTool tool = .ok mapped) :
    List.Forall₂ ToolDefinition.SentAs (toolDefinition tool).toList
      (mapped.toList.flatMap fun converted => (toolDefinition converted).toList) := by
  have hmapped (mapped : Option Json) : (mapped.toList.flatMap fun converted => (toolDefinition converted).toList) =
      (mapped.bind toolDefinition).toList := by
    cases mapped with
    | none => rfl
    | some converted => exact List.flatMap_singleton _ _
  have hself (definitions : List ToolDefinition) : List.Forall₂ ToolDefinition.SentAs definitions definitions :=
    List.forall₂_same.mpr fun given _ => .refl given
  rw [hmapped]
  unfold normalizeChatTool at h
  split at h
  · next fields =>
    dsimp only at h
    split_ifs at h
    split at h
    · next function hfunction =>
      cases h
      rw [toolDefinition, functionOfTool, hfunction]
      exact sentAs_functionTool _ function
    · next hfunction =>
      cases h
      have hfields : functionOfTool fields = none := hfunction
      unfold plainTool
      dsimp only
      split_ifs with hkept
      · rw [Option.map_some, Option.bind_some, toolDefinition_setType]
        exact hself _
      · have hsame (type : Json) : nonemptyString? (JsonObject.set fields (ofString "type") type) (ofString "name") =
            nonemptyString? fields (ofString "name") := by
          rw [nonemptyString?, nonemptyString?, string?_set, if_neg (by decide)]
        have hname : nonemptyString? fields (ofString "name") = none := by
          rw [not_or, Option.not_isSome_iff_eq_none, hsame] at hkept
          exact hkept.2
        rw [toolDefinition, hfields]
        simp only [definitionOf, hname]
        exact .nil
  · next hobject =>
    cases h
    cases tool with
    | object fields => exact absurd rfl (hobject fields)
    | _ => exact .nil

def toolDefinitions (tools : List Json) : List ToolDefinition := tools.flatMap fun tool => (toolDefinition tool).toList

theorem toolDefinitions_normalizeTypeAlias (tools : List Json) :
    toolDefinitions (tools.map normalizeTypeAlias) = toolDefinitions tools := by
  rw [toolDefinitions, toolDefinitions, List.flatMap_map]
  simp only [toolDefinition_normalizeTypeAlias]

theorem sentAs_normalizeChatToolsField {object mapped : JsonObject} (h : normalizeChatToolsField object = .ok mapped) :
    ∃ tools, (mapped.find? (ofString "tools")).getD (.array []) = .array tools ∧
      List.Forall₂ ToolDefinition.SentAs (toolDefinitions (arrayField object (ofString "tools")))
        (toolDefinitions tools) := by
  unfold normalizeChatToolsField at h
  split at h
  · next hnone =>
    cases h
    refine ⟨[], ?_, ?_⟩
    · rw [hnone]
      rfl
    · rw [arrayField, hnone]
      exact .nil
  · next tools hfind =>
    obtain ⟨normalized, hnormalized, rfl⟩ := map_eq_ok.mp h
    refine ⟨normalized.filterMap id, ?_, ?_⟩
    · rw [JsonObject.find?_set, if_pos rfl]
      rfl
    · rw [arrayField, hfind, toolDefinitions, toolDefinitions, List.filterMap_eq_flatMap_toList, List.flatMap_assoc]
      exact flatMap_mapM appends_forall₂ sentAs_normalizeChatTool hnormalized
  · cases h

end Tools

section Request

variable {lib : JsonLibrary} {raw normalized : Bytes} {transform : ChatRequestTransform} {object : JsonObject}

/-- What the body that is sent says of the request's messages and tools. -/
structure Conveys (object : JsonObject) (messages : List Json) (sent : JsonObject) : Prop where
  said : (messages.flatMap messageUtterances).Sublist
    ((arrayField sent (ofString "input")).flatMap itemUtterances)
  instructions : sent.string? (ofString "instructions") = some (join 10 (instructionTexts messages))
  tools : List.Forall₂ ToolDefinition.SentAs (toolDefinitions (arrayField object (ofString "tools")))
    (toolDefinitions (arrayField sent (ofString "tools")))

theorem isAllowed_iff {c : UInt8} : isAllowed c = true ↔ ¬ c < 0x20 ∧ c ≠ 0x7F := by
  simp [isAllowed, isDisallowedJsonControlByte]

theorem sanitizeText_of_allowed {body : Bytes} (h : body.all isAllowed = true) (state : TextState) :
    sanitizeText state body = body := by
  induction body generalizing state with
  | nil => rfl
  | cons b body ih =>
    rw [List.all_cons, Bool.and_eq_true, isAllowed_iff] at h
    rw [sanitizeText, ih h.2, if_neg fun hcontrol => h.1.1 hcontrol.2, List.singleton_append]

theorem requestObject_of_written (hlib : FaithfulLibrary lib) {payload : JsonObject} (hsound : SoundObject payload)
    {body : Bytes} (hwrite : lib.write (.object payload) = some body) (hallowed : body.all isAllowed = true) :
    requestObject lib body = .ok payload := by
  have hjson := sound_object_iff.mpr hsound
  have hself : sanitizeSerializedJson body = body := sanitizeText_of_allowed hallowed .outside
  obtain ⟨text, htext, hencode⟩ := hlib.writesText _ _ hjson hwrite
  have hread := hlib.readsBack _ _ hjson hwrite
  rw [hself] at hencode hread
  refine requestObject_of_read ?_ hread
  rw [hencode, sanitizeRequestJsonBytes_text htext, ← hencode, dropDel_eq_self]
  exact fun hdel => (isAllowed_iff.mp (List.all_eq_true.mp hallowed _ hdel)).2 rfl

theorem find?_setInput (input : ChatInput) (object : JsonObject) :
    (setInput input object).find? (ofString "input") =
        some (.array (if input.items = [] then [fallbackItem] else input.items)) ∧
      (setInput input object).string? (ofString "instructions") = some (input.instructions.getD []) ∧
      (setInput input object).find? (ofString "tools") = object.find? (ofString "tools") := by
  refine ⟨?_, ?_, ?_⟩
  · rw [setInput, JsonObject.find?_set, if_neg (by decide), JsonObject.find?_set, if_neg (by decide),
      JsonObject.find?_set, if_pos rfl]
  · rw [setInput, string?_set, if_neg (by decide), string?_set, if_pos rfl]
    rfl
  · rw [setInput, JsonObject.find?_set, if_neg (by decide), JsonObject.find?_set, if_neg (by decide),
      JsonObject.find?_set, if_neg (by decide)]

/-- Where every text of a request that is UTF-8 is free of the byte 0x7F and of the control characters without a short
escape, the body that is sent upstream says all that its messages say, and defines the tools that it defines. -/
theorem conversation_is_sent (hlib : FaithfulLibrary lib) (hwrites : WritesAllowed lib) (hraw : Utf8.Valid raw)
    (hread : lib.read raw = some (.object object)) (hkept : ∀ text ∈ (Json.object object).texts, KeptText text)
    (h : transformChatRequest lib raw = .ok transform)
    (hnormalized : normalizeRequest lib transform.responsesBody = .ok normalized) :
    ∃ messages sent written, object.find? (ofString "messages") = some (.array messages) ∧
      lib.write (.object sent) = some written ∧ normalized = sanitizeSerializedJson written ∧
      Conveys object messages sent := by
  obtain ⟨object', messages, payload, hread', hmessages, hpayload, hwrite⟩ := transformChatRequest_ok h
  obtain rfl : object = object' := Json.object.inj (Option.some.inj (hread.symm.trans hread'))
  have hjson := hlib.readsSound _ _ hraw hread
  have hobject := sound_object_iff.mp hjson
  have hsound : SoundObject payload := sound_responsesPayload hobject (hobject.find? hmessages).items hpayload
  have hobjectKept := sound_object_iff.mp (soundOver_of_texts _ hjson hkept)
  have hpayloadKept := sound_responsesPayload hobjectKept (hobjectKept.find? hmessages).items hpayload
  have hallowed := hwrites _ _ (texts_of_soundOver _ (sound_object_iff.mpr hpayloadKept)) hwrite
  obtain ⟨read, hrequest, hrest⟩ := bind_eq_ok.mp hnormalized
  rw [requestObject_of_written hlib hsound hwrite hallowed] at hrequest
  cases hrequest
  obtain ⟨sent, hsent, hserialized⟩ := bind_eq_ok.mp hrest
  obtain ⟨written, hwritten, heq⟩ := serializeNormalized_ok hserialized
  obtain ⟨input, reduced, named, hinput, hreduced, hnamed, rfl⟩ := responsesPayload_ok hpayload
  obtain ⟨hitems, hinstructions, htools⟩ := find?_setInput input
    (keepObfuscation (streamOptions object) (normalizeChatToolChoiceField named))
  obtain ⟨tools, hnamedTools, hdefinitions⟩ := sentAs_normalizeChatToolsField hnamed
  rw [(touches_keepObfuscation (P := Utf8.Valid) (streamOptions object) _).kept _ (by decide),
    (touches_normalizeChatToolChoiceField (P := Utf8.Valid) named).kept _ (by decide)] at htools
  have carried := carried_normalizeFields hsound hitems hinstructions (by rw [htools, hnamedTools]) hsent
  refine ⟨messages, sent, written, hmessages, hwritten, heq, ?_, ?_, ?_⟩
  · obtain ⟨sanitized, hsanitized, hfind⟩ := carried.input
    have hsentAs : ∀ item item', sanitizeInputItem item = .ok item' → sentUtterances item = itemUtterances item' := by
      intro item item' heq
      rw [sentUtterances, heq]
    have hcollect := flatMap_mapM appends_eq hsentAs hsanitized
    rw [arrayField, hfind, ← hcollect]
    split_ifs with hempty
    · have hsaid := said_convertMessages hinput
      rw [hempty] at hsaid
      exact hsaid.trans (List.nil_sublist _)
    · exact said_convertMessages hinput
  · rw [carried.instructions, convertMessages_instructions hinput, heldInstructions]
    split_ifs with htexts
    · rw [htexts]
      rfl
    · rfl
  · have herased := hobject.foldl_erase kErasedChatFields
    have hmapped := (touches_mapReasoningEffort herased).sound herased
    have hgiven : arrayField reduced (ofString "tools") = arrayField object (ofString "tools") := by
      rw [arrayField, arrayField, (touches_applyResponseFormatMapping hmapped hreduced).kept _ (by decide),
        (touches_mapReasoningEffort herased).kept _ (by decide), find?_foldl_erase, if_neg (by decide)]
    have hsentTools : arrayField sent (ofString "tools") = tools.map normalizeTypeAlias := by
      rw [arrayField, carried.tools]
    rw [hsentTools, toolDefinitions_normalizeTypeAlias, ← hgiven]
    exact hdefinitions

end Request

section Samples

theorem transformChatRequest_rendered {object payload : JsonObject} {model : Bytes} {messages : List Json}
    (h : isAsciiJson (.object object) = true) (hmodel : requiredModel object = .ok model)
    (hmessages : requiredMessages object = .ok messages) (hpayload : responsesPayload object messages = .ok payload)
    (hascii : isAsciiJson (.object payload) = true) :
    transformChatRequest renderingLibrary (rendered (.object object)) =
      .ok { model, streamRequested := jsonBool object (ofString "stream") false,
            includeUsage := jsonBool (streamOptions object) (ofString "include_usage") false,
            responsesBody := rendered (.object payload) } := by
  have hfields : requestFields renderingLibrary (rendered (.object object)) = .ok object := by
    rw [requestFields, renderingLibrary_read h]
  refine bind_eq_ok.mpr ⟨object, hfields, bind_eq_ok.mpr ⟨model, hmodel, bind_eq_ok.mpr ⟨messages, hmessages,
    bind_eq_ok.mpr ⟨payload, hpayload, ?_⟩⟩⟩⟩
  rw [renderingLibrary_write hascii]
  rfl

def said (role : String) (fields : List (String × Json)) : Json :=
  .object (fieldsJson (fields.filter (·.1 < "role") ++ ("role", textJson role) :: fields.filter ("role" < ·.1)))

def spokenItem (role type s : String) : Json := givenItem (partsOf type s) (textJson role)

def lookCall : Json :=
  .object (fieldsJson [("function", .object (fieldsJson [("arguments", textJson "[]"), ("name", textJson "look")])),
    ("id", textJson "call_1")])

def lookTool : Json :=
  .object (fieldsJson [("name", textJson "look"), ("strict", .boolean true), ("type", textJson "function")])

def conversation : JsonObject :=
  fieldsJson [("messages", .array [said "system" [("content", textJson "be brief")],
    said "user" [("content", textJson "rain?")],
      said "assistant" [("content", textJson "I look"), ("tool_calls", .array [lookCall])],
      said "tool" [("content", textJson "yes"), ("tool_call_id", textJson "call_1")]]),
    ("model", textJson "m"),
    ("tools", .array [lookTool, .object (fieldsJson [
      ("function", .object (fieldsJson [("description", textJson "d"), ("name", textJson "go")])),
        ("type", textJson "function")])])]

def conversationItems (type : String) : Json :=
  .array [spokenItem "user" "input_text" "rain?", spokenItem "assistant" type "I look",
    .object (fieldsJson [("arguments", textJson "[]"), ("call_id", textJson "call_1"), ("name", textJson "look"),
      ("type", textJson "function_call")]),
    .object (fieldsJson [("call_id", textJson "call_1"), ("output", textJson "yes"),
      ("type", textJson "function_call_output")])]

def conversationTools : Json :=
  .array [lookTool, .object
    (fieldsJson [("description", textJson "d"), ("name", textJson "go"), ("type", textJson "function")])]

def conversationPayload : JsonObject :=
  fieldsJson [("input", conversationItems "input_text"), ("instructions", textJson "be brief"), ("model", textJson "m"),
    ("stream", .boolean true), ("tools", conversationTools)]

def conversationSent : JsonObject :=
  fieldsJson [("include", .array []), ("input", conversationItems "output_text"), ("instructions", textJson "be brief"),
    ("model", textJson "m"), ("parallel_tool_calls", .boolean false), ("store", .boolean false),
      ("stream", .boolean true),
    ("tool_choice", textJson "auto"), ("tools", conversationTools)]

theorem sample_conversation_is_sent :
    ∃ messages sent written, conversation.find? (ofString "messages") = some (.array messages) ∧
      renderingLibrary.write (.object sent) = some written ∧
      rendered (.object conversationSent) = sanitizeSerializedJson written ∧ Conveys conversation messages sent := by
  have hascii : isAsciiJson (.object conversationPayload) = true := by decide +kernel
  have hobjectAscii : isAsciiJson (.object conversation) = true := by decide +kernel
  have htransform := transformChatRequest_rendered hobjectAscii rfl rfl (by decide +kernel) hascii
  have hobject := requestObject_rendered_self hascii (by decide +kernel)
  have hsent : normalizeRequest renderingLibrary (rendered (.object conversationPayload)) =
      .ok (rendered (.object conversationSent)) :=
    normalizeWithStrategy_rendered hobject (by decide +kernel) (by decide +kernel)
  exact conversation_is_sent faithful_renderingLibrary rendersJson_renderingLibrary.writesAllowed
    (valid_rendered hobjectAscii) (renderingLibrary_read hobjectAscii) (by decide +kernel) htransform hsent

def lossMessages : List Json :=
  [said "user" [("content", textJson "a\x7fb")],
    said "assistant" [("content",
      .array [.object (fieldsJson [("refusal", textJson "no"), ("type", textJson "refusal")])])]]

def lossRequest : JsonObject :=
  fieldsJson [("messages", .array lossMessages), ("model", textJson "m"),
    ("tools", .array [.object
      (fieldsJson [("function", .object (fieldsJson [("name", textJson "f"), ("strict", .boolean true)])),
      ("type", textJson "function")])])]

def lossTools : Json := .array [.object (fieldsJson [("name", textJson "f"), ("type", textJson "function")])]

def lossPayload (s : String) : JsonObject :=
  fieldsJson [("input", .array [spokenItem "user" "input_text" s, spokenItem "assistant" "input_text" ""]),
    ("instructions", textJson ""), ("model", textJson "m"), ("stream", .boolean true), ("tools", lossTools)]

def lossSent : JsonObject :=
  fieldsJson [("include", .array []),
    ("input", .array [spokenItem "user" "input_text" "ab", spokenItem "assistant" "output_text" ""]),
    ("instructions", textJson ""), ("model", textJson "m"), ("parallel_tool_calls", .boolean false),
    ("store", .boolean false), ("stream", .boolean true), ("tool_choice", textJson "auto"), ("tools", lossTools)]

/-- The byte 0x7F is dropped from a text; nothing is sent of a refusal, nor whether a tool is strict. -/
theorem deleted_byte_and_refusal_are_lost :
    renderingLibrary.read (rendered (.object lossRequest)) = some (.object lossRequest) ∧
    transformChatRequest renderingLibrary (rendered (.object lossRequest)) =
      .ok ⟨ofString "m", false, false, rendered (.object (lossPayload "a\x7fb"))⟩ ∧
    normalizeRequest renderingLibrary (rendered (.object (lossPayload "a\x7fb"))) =
      .ok (rendered (.object lossSent)) ∧
    renderingLibrary.read (rendered (.object lossSent)) = some (.object lossSent) ∧
    lossMessages.flatMap messageUtterances =
      [.text (ofString "user") (ofString "input_text") [97, 0x7F, 98]] ∧
    (arrayField lossSent (ofString "input")).flatMap itemUtterances =
      [.text (ofString "user") (ofString "input_text") (ofString "ab"),
        .text (ofString "assistant") (ofString "output_text") []] ∧
    ¬ (lossMessages.flatMap messageUtterances).Sublist
      ((arrayField lossSent (ofString "input")).flatMap itemUtterances) := by
  have hrequest : isAsciiJson (.object lossRequest) = true := by decide +kernel
  have hpayload : isAsciiJson (.object (lossPayload "a\x7fb")) = true := by decide +kernel
  have hsent : isAsciiJson (.object lossSent) = true := by decide +kernel
  have hdropped : requestObject renderingLibrary (rendered (.object (lossPayload "a\x7fb"))) = .ok (lossPayload "ab") :=
    requestObject_of_rendered hpayload (by decide +kernel) (by decide +kernel)
  have hsaid : lossMessages.flatMap messageUtterances =
      [.text (ofString "user") (ofString "input_text") [97, 0x7F, 98]] := by decide +kernel
  have hheard : (arrayField lossSent (ofString "input")).flatMap itemUtterances =
      [.text (ofString "user") (ofString "input_text") (ofString "ab"),
        .text (ofString "assistant") (ofString "output_text") []] := by decide +kernel
  refine ⟨renderingLibrary_read hrequest, transformChatRequest_rendered hrequest rfl rfl (by decide +kernel) hpayload,
    normalizeWithStrategy_rendered hdropped (by decide +kernel) hsent, renderingLibrary_read hsent, hsaid, hheard, ?_⟩
  rw [hsaid, hheard]
  decide

end Samples

end Tightrope.Proxy.Chat
