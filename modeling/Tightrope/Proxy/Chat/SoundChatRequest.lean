import Tightrope.Proxy.Chat.ChatRequest
import Tightrope.Proxy.Openai.NormalForm

namespace Tightrope.Proxy.Chat

open Bytes Tightrope.Core Openai Fallible

section Parts

variable {P : Bytes → Prop} {object : JsonObject} {part content : Json} {key text : Bytes}

theorem text_nonemptyString? (h : SoundObjectOver P object) (hstring : nonemptyString? object key = some text) :
    P text := h.string? (Option.filter_eq_some_iff.mp hstring).1

theorem text_contentPartText (h : SoundOver P part) (htext : contentPartText part = some text) : P text := by
  cases part with
  | string value =>
    cases htext
    exact h.valid
  | object fields => exact (sound_object_iff.mp h).string? htext
  | _ => cases htext

theorem text_imageUrlField (h : SoundObjectOver P object) {url : Bytes} {detail : Option Bytes}
    (hfield : imageUrlField object = (some url, detail)) :
    P url ∧ ∀ text, detail = some text → P text := by
  unfold imageUrlField at hfield
  split at hfield
  · next image hfind =>
    have himage := sound_object_iff.mp (h.find? hfind)
    obtain ⟨hurl, hdetail⟩ := Prod.ext_iff.mp hfield
    exact ⟨text_nonemptyString? himage hurl, fun text heq => text_nonemptyString? himage (hdetail.trans heq)⟩
  · next url' hfind =>
    split_ifs at hfield
    · cases hfield
    · cases hfield
      exact ⟨(h.find? hfind).valid, nofun⟩
  · cases hfield

variable [TextProperty P]

theorem sound_typedObject {type : Bytes} (h : P type) : SoundObjectOver P (typedObject type) :=
  SoundObjectOver.nil.set (TextProperty.plain (by decide)) (.string h)

theorem sound_inputTextPart (h : P text) : SoundOver P (inputTextPart text) :=
  sound_textPart (TextProperty.plain (by decide)) h

theorem sound_inputImagePart {url : Bytes} (h : P url) : SoundObjectOver P (inputImagePart url) :=
  (sound_typedObject (TextProperty.plain (by decide))).set (TextProperty.plain (by decide)) (.string h)

theorem sound_mapChatFilePart (h : SoundObjectOver P object) (hpart : mapChatFilePart object = .ok part) :
    SoundOver P part := by
  have hmapped : SoundObjectOver P (typedObject (ofString "input_file")) :=
    sound_typedObject (TextProperty.plain (by decide))
  have hset {fileUrl : Bytes} (hurl : P fileUrl) :
      SoundOver P (.object ((typedObject (ofString "input_file")).set (ofString "file_url") (.string fileUrl))) :=
    sound_object_iff.mpr (hmapped.set (TextProperty.plain (by decide)) (.string hurl))
  have hor {file : JsonObject} (hfile : SoundObjectOver P file) {key key' text : Bytes}
      (heq : (nonemptyString? file key).or (nonemptyString? file key') = some text) : P text := by
    obtain heq | ⟨-, heq⟩ := Option.or_eq_some_iff.mp heq <;> exact text_nonemptyString? hfile heq
  unfold mapChatFilePart at hpart
  split at hpart
  · next file hfind =>
    have hfile := sound_object_iff.mp (h.find? hfind)
    split_ifs at hpart
    · cases hpart
    · dsimp only at hpart
      split at hpart
      · next fileUrl hurl =>
        cases hpart
        exact hset (text_nonemptyString? hfile hurl)
      · split at hpart
        · cases hpart
          exact sound_object_iff.mpr hmapped
        · next fileData hdata =>
          cases hpart
          have hmime : P (((nonemptyString? file (ofString "mime_type")).or
              (nonemptyString? file (ofString "content_type"))).getD (ofString "application/octet-stream")) := by
            cases hmime : (nonemptyString? file (ofString "mime_type")).or
              (nonemptyString? file (ofString "content_type")) with
            | none => exact TextProperty.plain (by decide)
            | some mimeType => exact hor hfile hmime
          have hscheme : P (ofString "data:") := TextProperty.plain (by decide)
          have hprefix := TextProperty.append hscheme hmime
          exact hset (TextProperty.append (TextProperty.append hprefix (TextProperty.plain (by decide)))
            (hor hfile hdata))
  · cases hpart

theorem sound_mapChatImagePart (h : SoundObjectOver P object) {mapped : Option Json}
    (hpart : mapChatImagePart object = .ok mapped) : ∀ part ∈ mapped, SoundOver P part := by
  unfold mapChatImagePart at hpart
  split at hpart
  · cases hpart
  · next url detail hfield =>
    obtain ⟨hurl, hdetail⟩ := text_imageUrlField h hfield
    split_ifs at hpart
    · cases hpart
      nofun
    · split at hpart
      · cases hpart
        rintro part ⟨⟩
        exact sound_object_iff.mpr (sound_inputImagePart hurl)
      · cases hpart
        rintro part ⟨⟩
        exact sound_object_iff.mpr ((sound_inputImagePart hurl).set (TextProperty.plain (by decide))
          (.string (hdetail _ rfl)))

theorem sound_mapChatUserContentPart (h : SoundOver P part) {mapped : Option Json}
    (hpart : mapChatUserContentPart part = .ok mapped) : ∀ part ∈ mapped, SoundOver P part := by
  unfold mapChatUserContentPart at hpart
  split at hpart
  · cases hpart
    rintro part ⟨⟩
    exact sound_inputTextPart h.valid
  · next object =>
    have hobject := sound_object_iff.mp h
    dsimp only at hpart
    split_ifs at hpart
    · split at hpart
      · cases hpart
      · next text htext =>
        cases hpart
        rintro part ⟨⟩
        exact sound_inputTextPart (hobject.string? htext)
    · exact sound_mapChatImagePart hobject hpart
    · cases hpart
      rintro part ⟨⟩
      exact h
    · cases hpart
    · obtain ⟨filePart, hfile, rfl⟩ := map_eq_ok.mp hpart
      rintro part ⟨⟩
      exact sound_mapChatFilePart hobject hfile
    · cases hpart
    · cases hpart
      rintro part ⟨⟩
      exact h
  · cases hpart

theorem sound_parseContentPart (h : SoundOver P part) {parsed : List Json}
    (hpart : parseContentPart part = .ok parsed) :
    ∀ part ∈ parsed, SoundOver P part := by
  unfold parseContentPart at hpart
  split at hpart
  · cases hpart
    exact List.forall_mem_singleton.mpr (sound_inputTextPart h.valid)
  · next object =>
    have hobject := sound_object_iff.mp h
    dsimp only at hpart
    split at hpart
    · next url hurl =>
      cases hpart
      have hnested := (Option.filter_eq_some_iff.mp hurl).1
      unfold nestedImage at hnested
      split at hnested
      · next image hfind =>
        have himage := sound_object_iff.mp (hobject.find? hfind)
        exact List.forall_mem_singleton.mpr
          (sound_object_iff.mpr (sound_inputImagePart (text_nonemptyString? himage hnested)))
      · cases hnested
    · split_ifs at hpart
      · cases hpart
        exact List.forall_mem_singleton.mpr h
      · obtain ⟨filePart, hfile, rfl⟩ := map_eq_ok.mp hpart
        exact List.forall_mem_singleton.mpr (sound_mapChatFilePart hobject hfile)
      · split at hpart
        · next text htext =>
          cases hpart
          exact List.forall_mem_singleton.mpr (sound_inputTextPart (hobject.string? htext))
        · cases hpart
          nofun
  · cases hpart
    exact List.forall_mem_nil _

theorem sound_orEmptyText {parts : List Json} (h : ∀ part ∈ parts, SoundOver P part) :
    ∀ part ∈ orEmptyText parts, SoundOver P part := by
  unfold orEmptyText
  split_ifs
  · exact List.forall_mem_singleton.mpr (sound_inputTextPart (TextProperty.plain rfl))
  · exact h

theorem sound_toUserInputParts (h : SoundOver P content) {parts : List Json}
    (hparts : toUserInputParts content = .ok parts) :
    ∀ part ∈ parts, SoundOver P part := by
  unfold toUserInputParts at hparts
  split at hparts
  · cases hparts
    exact List.forall_mem_singleton.mpr (sound_inputTextPart (TextProperty.plain rfl))
  · obtain ⟨mapped, hmapped, rfl⟩ := map_eq_ok.mp hparts
    refine sound_orEmptyText fun part hpart => ?_
    obtain ⟨entry, hentry, heq⟩ := List.mem_filterMap.mp hpart
    obtain ⟨original, horiginal, hmap⟩ := mem_of_mapM_ok hmapped hentry
    exact sound_mapChatUserContentPart (h.items original horiginal) hmap part heq
  · obtain ⟨mapped, hmapped, rfl⟩ := map_eq_ok.mp hparts
    refine sound_orEmptyText fun part hpart => ?_
    exact sound_mapChatUserContentPart h hmapped part (Option.mem_toList.mp hpart)

theorem sound_toInputParts (h : SoundOver P content) {parts : List Json} (hparts : toInputParts content = .ok parts) :
    ∀ part ∈ parts, SoundOver P part := by
  unfold toInputParts at hparts
  split at hparts
  · cases hparts
    exact List.forall_mem_singleton.mpr (sound_inputTextPart h.valid)
  · obtain ⟨parsed, hparsed, rfl⟩ := map_eq_ok.mp hparts
    refine sound_orEmptyText fun part hpart => ?_
    obtain ⟨entry, hentry, hmem⟩ := List.mem_flatten.mp hpart
    obtain ⟨original, horiginal, hmap⟩ := mem_of_mapM_ok hparsed hentry
    exact sound_parseContentPart (h.items original horiginal) hmap part hmem
  · obtain ⟨parsed, hparsed, rfl⟩ := map_eq_ok.mp hparts
    exact sound_orEmptyText (sound_parseContentPart h hparsed)
  · cases hparts
    exact List.forall_mem_singleton.mpr (sound_inputTextPart (TextProperty.plain rfl))

theorem text_joinText {joined : Bytes} (h : P joined) (htext : P text) :
    P (joinText joined text) := by
  unfold joinText
  split_ifs
  · exact htext
  · exact TextProperty.append (TextProperty.append h (TextProperty.plain (by decide))) htext

theorem text_flattenTextContent (h : SoundOver P content) : P (flattenTextContent content) := by
  cases content with
  | string text => exact h.valid
  | array parts =>
    have hjoin (texts : List Bytes) (htexts : ∀ text ∈ texts, P text) (joined : Bytes)
        (hjoined : P joined) : P (texts.foldl joinText joined) := by
      induction texts generalizing joined with
      | nil => exact hjoined
      | cons text texts ih =>
        obtain ⟨htext, hrest⟩ := List.forall_mem_cons.mp htexts
        exact ih hrest _ (text_joinText hjoined htext)
    refine hjoin _ (fun text htext => ?_) [] (TextProperty.plain rfl)
    obtain ⟨part, hpart, heq⟩ := List.mem_filterMap.mp htext
    exact text_contentPartText (h.items part hpart) heq
  | object fields =>
    rw [flattenTextContent]
    cases htext : JsonObject.string? fields (ofString "text") with
    | none => exact (TextProperty.plain rfl)
    | some text => exact (sound_object_iff.mp h).string? htext
  | _ => exact (TextProperty.plain rfl)

end Parts

section Messages

variable {P : Bytes → Prop} {message : JsonObject} {item : Json}

theorem sound_messageContent (h : SoundObjectOver P message) : SoundOver P (messageContent message) := by
  unfold messageContent
  cases hfind : message.find? (ofString "content") with
  | none => exact .null
  | some content => exact h.find? hfind

theorem text_optionalToolCallId {callId : Bytes} (h : SoundObjectOver P message)
    (hcall : optionalToolCallId message = some callId) : P callId := by
  unfold optionalToolCallId at hcall
  rw [Option.or_eq_some_iff, Option.or_eq_some_iff] at hcall
  obtain hfirst | ⟨-, hsecond | ⟨-, hthird⟩⟩ := hcall
  · exact h.string? hfirst
  · exact h.string? hsecond
  · exact h.string? hthird

structure SoundInput (P : Bytes → Prop) (input : ChatInput) : Prop where
  items : ∀ item ∈ input.items, SoundOver P item
  instructions : ∀ text, input.instructions = some text → P text

theorem SoundInput.addItems {input : ChatInput} (h : SoundInput P input) {items : List Json}
    (hitems : ∀ item ∈ items, SoundOver P item) : SoundInput P (input.addItems items) :=
  ⟨List.forall_mem_append.mpr ⟨h.items, hitems⟩, h.instructions⟩

variable [TextProperty P]

theorem sound_messageItem {role : Bytes} {parts : List Json} (hrole : P role)
    (hparts : ∀ part ∈ parts, SoundOver P part) :
    SoundOver P (messageItem role parts) :=
  sound_object_iff.mpr ((SoundObjectOver.nil.set (TextProperty.plain (by decide)) (.string hrole)).set
    (TextProperty.plain (by decide)) (.array hparts))

theorem text_toolOutput {content : Json} {output : Bytes} (h : SoundOver P content)
    (houtput : normalizeToolOutputContent content = .ok output) : P output := by
  unfold normalizeToolOutputContent at houtput
  split at houtput
  · cases houtput
    exact h.valid
  · next parts =>
    dsimp only at houtput
    split_ifs at houtput
    · cases houtput
    · cases houtput
      have hflatten (texts : List Bytes) (htexts : ∀ text ∈ texts, P text) : P texts.flatten := by
        induction texts with
        | nil => exact (TextProperty.plain rfl)
        | cons text texts ih =>
          obtain ⟨htext, hrest⟩ := List.forall_mem_cons.mp htexts
          exact TextProperty.append htext (ih hrest)
      refine hflatten _ fun text htext => ?_
      obtain ⟨part, hpart, heq⟩ := List.mem_filterMap.mp htext
      exact text_contentPartText (h.items part hpart) heq
  · cases houtput

theorem sound_toolOutputItem (h : SoundObjectOver P message) (hitem : toolOutputItem message = .ok item) :
    SoundOver P item := by
  unfold toolOutputItem at hitem
  split at hitem
  · cases hitem
  · next callId hcall =>
    split at hitem
    · cases hitem
    · cases hitem
    · next content hnull hcontent =>
      obtain ⟨output, houtput, rfl⟩ := map_eq_ok.mp hitem
      have hvalid := text_optionalToolCallId h (Option.filter_eq_some_iff.mp hcall).1
      refine sound_object_iff.mpr (((sound_typedObject ?_).set ?_ (.string hvalid)).set ?_
        (.string (text_toolOutput (h.find? hcontent) houtput)))
      all_goals exact TextProperty.plain (by decide)

theorem sound_toolCallItem {toolCall : Json} (h : SoundOver P toolCall) (hitem : toolCallItem toolCall = .ok item) :
    SoundOver P item := by
  unfold toolCallItem at hitem
  split at hitem
  · next fields =>
    have hfields := sound_object_iff.mp h
    split at hitem
    · cases hitem
    · next callId hcall =>
      split at hitem
      · next function hfunction =>
        have hobject := sound_object_iff.mp (hfields.find? hfunction)
        split at hitem
        · cases hitem
        · next name hname =>
          split at hitem
          · cases hitem
          · next arguments harguments =>
            cases hitem
            refine sound_object_iff.mpr ((((sound_typedObject ?_).set ?_
              (.string (text_nonemptyString? hfields hcall))).set ?_
              (.string (text_nonemptyString? hobject hname))).set ?_ (.string (hobject.string? harguments)))
            all_goals exact TextProperty.plain (by decide)
      · cases hitem
  · cases hitem

theorem SoundInput.addInstruction {input : ChatInput} (h : SoundInput P input) {text : Bytes} (htext : P text) :
    SoundInput P (input.addInstruction text) := by
  unfold ChatInput.addInstruction
  split_ifs
  · exact h
  · split
    · refine ⟨h.items, ?_⟩
      rintro text' ⟨⟩
      exact htext
    · next held hheld =>
      refine ⟨h.items, ?_⟩
      rintro text' ⟨⟩
      exact TextProperty.append (TextProperty.append (h.instructions held hheld) (TextProperty.plain (by decide))) htext

theorem sound_convertMessage {input input' : ChatInput} {message : Json} (h : SoundInput P input)
    (hmessage : SoundOver P message)
    (hconvert : convertMessage input message = .ok input') : SoundInput P input' := by
  unfold convertMessage at hconvert
  split at hconvert
  · next fields =>
    have hfields := sound_object_iff.mp hmessage
    have hcontent := sound_messageContent hfields
    split at hconvert
    · cases hconvert
    · next role hrole =>
      have hvalid := hfields.string? (Option.filter_eq_some_iff.mp hrole).1
      dsimp only at hconvert
      split_ifs at hconvert
      · obtain ⟨-, -, hconvert⟩ := bind_eq_ok.mp hconvert
        cases hconvert
        exact h.addInstruction (text_flattenTextContent hcontent)
      · obtain ⟨item, hitem, hconvert⟩ := bind_eq_ok.mp hconvert
        cases hconvert
        exact h.addItems (List.forall_mem_singleton.mpr (sound_toolOutputItem hfields hitem))
      · obtain ⟨parts, hparts, hconvert⟩ := bind_eq_ok.mp hconvert
        cases hconvert
        exact h.addItems (List.forall_mem_singleton.mpr
          (sound_messageItem hvalid (sound_toUserInputParts hcontent hparts)))
      · obtain ⟨parts, hparts, hconvert⟩ := bind_eq_ok.mp hconvert
        obtain ⟨calls, hcalls, hconvert⟩ := bind_eq_ok.mp hconvert
        cases hconvert
        refine h.addItems (List.forall_mem_cons.mpr
          ⟨sound_messageItem hvalid (sound_toInputParts hcontent hparts), fun call hcall => ?_⟩)
        unfold toolCallItems at hcalls
        split at hcalls
        · next toolCalls hfind =>
          obtain ⟨toolCall, hmem, heq⟩ := mem_of_mapM_ok hcalls hcall
          exact sound_toolCallItem ((hfields.find? hfind).items toolCall hmem) heq
        · cases hcalls
          cases hcall
  · cases hconvert

theorem sound_convertMessages {messages : List Json} {input : ChatInput} (h : ∀ message ∈ messages, SoundOver P message)
    (hconvert : convertMessages messages = .ok input) : SoundInput P input :=
  foldlM_keeps (P := SoundInput P) (fun _ message hmessage _ hs heq => sound_convertMessage hs (h message hmessage) heq)
    ⟨by simp, by rintro text ⟨⟩⟩ hconvert

end Messages

section Fields

variable {P : Bytes → Prop} [TextProperty P] {object mapped payload : JsonObject}

theorem touches_mapReasoningEffort (hsound : SoundObjectOver P object) :
    TouchesOver P [ofString "reasoning", ofString "reasoning_effort"] object (mapReasoningEffort object) := by
  unfold mapReasoningEffort
  cases heffort : object.string? (ofString "reasoning_effort") with
  | none => exact (TouchesOver.refl object).mono (by simp)
  | some effort =>
    have hreasoning : SoundObjectOver P (setDefault (ofString "effort") (.string effort)
        (Openai.objectField object (ofString "reasoning"))) :=
      (touches_setDefault (TextProperty.plain (by decide)) (.string (hsound.string? heffort))).sound
        (sound_objectField hsound _)
    exact (touches_set (TextProperty.plain (by decide)) fun _ => sound_object_iff.mpr hreasoning).trans
      (touches_erase _)

theorem sound_jsonSchemaFormat {schema : JsonObject} (h : SoundObjectOver P schema) :
    SoundObjectOver P (jsonSchemaFormat schema) := by
  have htyped : SoundObjectOver P (typedObject (ofString "json_schema")) :=
    sound_typedObject (TextProperty.plain (by decide))
  have hvalued {format : JsonObject} {value : Json} (hformat : SoundObjectOver P format)
      (hvalue : schema.find? (ofString "schema") = some value) :
        SoundObjectOver P (format.set (ofString "schema") value) :=
    hformat.set (TextProperty.plain (by decide)) (h.find? hvalue)
  have hstrict {format : JsonObject} (strict : Bool) (hformat : SoundObjectOver P format) :
      SoundObjectOver P (format.set (ofString "strict") (.boolean strict)) :=
    hformat.set (TextProperty.plain (by decide)) (.boolean strict)
  unfold jsonSchemaFormat
  cases hname : nonemptyString? schema (ofString "name") with
  | none =>
    cases hvalue : schema.find? (ofString "schema") with
    | none =>
      simp only
      split
      · exact hstrict _ htyped
      · exact htyped
    | some value =>
      simp only
      split
      · exact hstrict _ (hvalued htyped hvalue)
      · exact hvalued htyped hvalue
  | some name =>
    have hnamed : SoundObjectOver P ((typedObject (ofString "json_schema")).set (ofString "name") (.string name)) :=
      htyped.set (TextProperty.plain (by decide)) (.string (text_nonemptyString? h hname))
    cases hvalue : schema.find? (ofString "schema") with
    | none =>
      simp only
      split
      · exact hstrict _ hnamed
      · exact hnamed
    | some value =>
      simp only
      split
      · exact hstrict _ (hvalued hnamed hvalue)
      · exact hvalued hnamed hvalue

theorem sound_responseFormatToTextFormat {responseFormat format : Json} (h : SoundOver P responseFormat)
    (hformat : responseFormatToTextFormat responseFormat = .ok format) : SoundOver P format := by
  unfold responseFormatToTextFormat at hformat
  split at hformat
  · split_ifs at hformat
    · cases hformat
      exact sound_object_iff.mpr (sound_typedObject h.valid)
    · cases hformat
    · cases hformat
  · next fields =>
    have hfields := sound_object_iff.mp h
    split at hformat
    · cases hformat
    · next type htype =>
      split_ifs at hformat
      · cases hformat
        exact sound_object_iff.mpr (sound_typedObject (text_nonemptyString? hfields htype))
      · cases hformat
      · split at hformat
        · next schema hschema =>
          split_ifs at hformat
          · cases hformat
            exact sound_object_iff.mpr (sound_jsonSchemaFormat (sound_object_iff.mp (hfields.find? hschema)))
          · cases hformat
        · cases hformat
  · cases hformat

theorem touches_applyResponseFormatMapping (hsound : SoundObjectOver P object)
    (h : applyResponseFormatMapping object = .ok mapped) :
    TouchesOver P [ofString "text", ofString "response_format"] object mapped := by
  unfold applyResponseFormatMapping at h
  split at h
  · cases h
    exact (TouchesOver.refl object).mono (by simp)
  · next responseFormat hfind =>
    obtain ⟨controls, hcontrols, h⟩ := bind_eq_ok.mp h
    obtain ⟨format, hformat, h⟩ := bind_eq_ok.mp h
    cases h
    have hsoundControls : SoundObjectOver P controls := by
      unfold textControls at hcontrols
      split at hcontrols
      · cases hcontrols
        exact .nil
      · next text htext =>
        split_ifs at hcontrols
        · cases hcontrols
        · cases hcontrols
          exact sound_object_iff.mp (hsound.find? htext)
      · cases hcontrols
    have hset : SoundObjectOver P (controls.set (ofString "format") format) :=
      hsoundControls.set (TextProperty.plain (by decide))
        (sound_responseFormatToTextFormat (hsound.find? hfind) hformat)
    exact (touches_set (TextProperty.plain (by decide)) fun _ => sound_object_iff.mpr hset).trans (touches_erase _)

theorem text_normalizeToolTypeAlias {type : Bytes} (h : P type) :
    P (normalizeToolTypeAlias type) := by
  unfold normalizeToolTypeAlias
  split_ifs
  · exact TextProperty.plain (by decide)
  · exact h

theorem sound_functionTool {type : Bytes} {function tool : JsonObject} (htype : P type)
    (h : SoundObjectOver P function) (htool : functionTool type function = some tool) : SoundObjectOver P tool := by
  obtain ⟨name, hname, rfl⟩ := Option.map_eq_some_iff.mp htool
  have hnamed : SoundObjectOver P ((typedObject type).set (ofString "name") (.string name)) :=
    (sound_typedObject htype).set (TextProperty.plain (by decide)) (.string (text_nonemptyString? h hname))
  have hparameters {described : JsonObject} {parameters : Json} (hdescribed : SoundObjectOver P described)
      (hparameters : function.find? (ofString "parameters") = some parameters) :
      SoundObjectOver P (described.set (ofString "parameters") parameters) :=
    hdescribed.set (TextProperty.plain (by decide)) (h.find? hparameters)
  cases hdescription : function.string? (ofString "description") with
  | none =>
    simp only
    split
    · next parameters hfound => exact hparameters hnamed hfound
    · exact hnamed
  | some description =>
    have hdescribed : SoundObjectOver P
        (((typedObject type).set (ofString "name") (.string name)).set (ofString "description")
          (.string description)) :=
      hnamed.set (TextProperty.plain (by decide)) (.string (h.string? hdescription))
    simp only
    split
    · next parameters hfound => exact hparameters hdescribed hfound
    · exact hdescribed

theorem sound_normalizeChatTool {tool : Json} {mapped : Option Json} (h : SoundOver P tool)
    (htool : normalizeChatTool tool = .ok mapped) : ∀ normalized ∈ mapped, SoundOver P normalized := by
  unfold normalizeChatTool at htool
  split at htool
  · next fields =>
    have hfields := sound_object_iff.mp h
    dsimp only at htool
    split_ifs at htool
    have htype : P (normalizeToolTypeAlias
        ((nonemptyString? fields (ofString "type")).getD (ofString "function"))) := by
      refine text_normalizeToolTypeAlias ?_
      cases htype : nonemptyString? fields (ofString "type") with
      | none => exact TextProperty.plain (by decide)
      | some type => exact text_nonemptyString? hfields htype
    split at htool
    · next function hfunction =>
      cases htool
      intro normalized hnormalized
      obtain ⟨converted, hconverted, rfl⟩ := Option.map_eq_some_iff.mp hnormalized
      obtain ⟨value, hfind, hvalue⟩ := Option.bind_eq_some_iff.mp hfunction
      cases value with
      | object object =>
        cases hvalue
        exact sound_object_iff.mpr
          (sound_functionTool htype (sound_object_iff.mp (hfields.find? hfind)) hconverted)
      | _ => cases hvalue
    · cases htool
      intro normalized hnormalized
      obtain ⟨converted, hconverted, rfl⟩ := Option.map_eq_some_iff.mp hnormalized
      unfold plainTool at hconverted
      dsimp only at hconverted
      split_ifs at hconverted
      · cases hconverted
        exact sound_object_iff.mpr (hfields.set (TextProperty.plain (by decide)) (.string htype))
  · cases htool
    nofun

theorem touches_normalizeChatToolsField (hsound : SoundObjectOver P object)
    (h : normalizeChatToolsField object = .ok mapped) :
    TouchesOver P [ofString "tools"] object mapped := by
  unfold normalizeChatToolsField at h
  split at h
  · cases h
    exact (TouchesOver.refl object).mono (by simp)
  · next tools hfind =>
    obtain ⟨normalized, hnormalized, rfl⟩ := map_eq_ok.mp h
    refine touches_set (TextProperty.plain (by decide)) fun _ => .array fun tool htool => ?_
    obtain ⟨entry, hentry, heq⟩ := List.mem_filterMap.mp htool
    obtain ⟨original, horiginal, hmap⟩ := mem_of_mapM_ok hnormalized hentry
    exact sound_normalizeChatTool ((hsound.find? hfind).items original horiginal) hmap tool heq
  · cases h

theorem sound_normalizeChatToolChoice {choice : JsonObject} (h : SoundObjectOver P choice) :
    SoundObjectOver P (normalizeChatToolChoice choice) := by
  have htype {type : Bytes} (heq : nonemptyString? choice (ofString "type") = some type) :
      P (normalizeToolTypeAlias type) := text_normalizeToolTypeAlias (text_nonemptyString? h heq)
  unfold normalizeChatToolChoice
  dsimp only
  split
  · next name hname =>
    obtain ⟨function, hfunction, hname⟩ := Option.bind_eq_some_iff.mp hname
    obtain ⟨value, hfind, hvalue⟩ := Option.bind_eq_some_iff.mp hfunction
    cases value with
    | object object =>
      cases hvalue
      refine (sound_typedObject ?_).set (TextProperty.plain (by decide))
        (.string (text_nonemptyString? (sound_object_iff.mp (h.find? hfind)) hname))
      cases heq : nonemptyString? choice (ofString "type") with
      | none => exact TextProperty.plain (by decide)
      | some type => exact htype heq
    | _ => cases hvalue
  · split
    · next type heq => exact h.set (TextProperty.plain (by decide)) (.string (htype heq))
    · exact h

theorem touches_normalizeChatToolChoiceField (object : JsonObject) :
    TouchesOver P [ofString "tool_choice"] object (normalizeChatToolChoiceField object) := by
  unfold normalizeChatToolChoiceField
  split
  · next choice hfind =>
    refine touches_set (TextProperty.plain (by decide)) fun hsound => ?_
    exact sound_object_iff.mpr (sound_normalizeChatToolChoice (sound_object_iff.mp (hsound.find? hfind)))
  · exact (TouchesOver.refl object).mono (by simp)

theorem touches_keepObfuscation (options object : JsonObject) :
    TouchesOver P [ofString "stream_options"] object (keepObfuscation options object) := by
  unfold keepObfuscation
  split
  · refine touches_set (TextProperty.plain (by decide)) fun _ => sound_object_iff.mpr ?_
    exact SoundObjectOver.nil.set (TextProperty.plain (by decide)) (.boolean _)
  · exact (TouchesOver.refl object).mono (by simp)

theorem responsesPayload_ok {messages : List Json} (h : responsesPayload object messages = .ok payload) :
    ∃ input reduced named, convertMessages messages = .ok input ∧
      applyResponseFormatMapping (mapReasoningEffort (kErasedChatFields.foldl JsonObject.erase object)) = .ok reduced ∧
      normalizeChatToolsField reduced = .ok named ∧
      payload = setInput input (keepObfuscation (streamOptions object) (normalizeChatToolChoiceField named)) := by
  obtain ⟨input, hinput, h⟩ := bind_eq_ok.mp h
  obtain ⟨reduced, hreduced, h⟩ := bind_eq_ok.mp h
  obtain ⟨named, hnamed, h⟩ := bind_eq_ok.mp h
  cases h
  exact ⟨input, reduced, named, hinput, hreduced, hnamed, rfl⟩

theorem sound_setInput {input : ChatInput} (hinput : SoundInput P input) (h : SoundObjectOver P object) :
    SoundObjectOver P (setInput input object) := by
  have hitems : ∀ item ∈ (if input.items = [] then [fallbackItem] else input.items), SoundOver P item := by
    split_ifs
    · exact List.forall_mem_singleton.mpr (sound_messageItem (TextProperty.plain (by decide))
        (List.forall_mem_singleton.mpr (sound_inputTextPart (TextProperty.plain rfl))))
    · exact hinput.items
  have hinstructions : P (input.instructions.getD []) := by
    cases heq : input.instructions with
    | none => exact (TextProperty.plain rfl)
    | some text => exact hinput.instructions text heq
  exact ((h.set (TextProperty.plain (by decide)) (.array hitems)).set (TextProperty.plain (by decide))
    (.string hinstructions)).set (TextProperty.plain (by decide)) (.boolean true)

theorem sound_responsesPayload {messages : List Json} (hsound : SoundObjectOver P object)
    (hmessages : ∀ message ∈ messages, SoundOver P message) (h : responsesPayload object messages = .ok payload) :
    SoundObjectOver P payload := by
  obtain ⟨input, reduced, named, hinput, hreduced, hnamed, rfl⟩ := responsesPayload_ok h
  have herased := hsound.foldl_erase kErasedChatFields
  have hmapped := (touches_mapReasoningEffort herased).sound herased
  have hformat := (touches_applyResponseFormatMapping hmapped hreduced).sound hmapped
  have htools := (touches_normalizeChatToolsField hformat hnamed).sound hformat
  have hchoice := (touches_normalizeChatToolChoiceField named).sound htools
  exact sound_setInput (sound_convertMessages hmessages hinput)
    ((touches_keepObfuscation (streamOptions object) _).sound hchoice)

end Fields

end Tightrope.Proxy.Chat
