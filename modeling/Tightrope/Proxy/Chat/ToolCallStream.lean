import Tightrope.Proxy.Chat.Reassembly
import Mathlib.Algebra.Order.BigOperators.Group.List

namespace Tightrope.Proxy.Chat

open Bytes Tightrope.Core Routing

variable {calls : List FunctionCallItem} {labels : List EventLabel}

section Keys

def deltaKey (delta : ToolCallDelta) : Option Bytes := indexKey delta.callId delta.name

def idKey (call : FunctionCallItem) : Bytes := ofString "id:" ++ call.callId

def nameKey (call : FunctionCallItem) : Bytes := ofString "name:" ++ call.name

theorem deltaKey_item (call : FunctionCallItem) (arguments : Bytes) :
    deltaKey (itemDelta call arguments) = some (idKey call) := by
  simp [deltaKey, indexKey, itemDelta, Option.filter_some, call.callId_ne, call.name_ne, idKey]

theorem deltaKey_argument (call : FunctionCallItem) (named : Bool) (arguments : Option Bytes) (mode : ArgumentsMode) :
    deltaKey (argumentDelta call named arguments mode) =
      if call.tagged then some (idKey call) else if named then some (nameKey call) else none := by
  cases htagged : call.tagged <;> cases named <;>
    simp [deltaKey, indexKey, argumentDelta, htagged, Option.filter_some, call.callId_ne, call.name_ne, idKey, nameKey]

theorem idKey_ne_nameKey (call call' : FunctionCallItem) : idKey call ≠ nameKey call' := by
  intro h
  have hhead : (105 : UInt8) = 110 := (List.cons.inj h).1
  exact absurd hhead (by decide)

def IsArguments (part : CallPart) : Prop := part ≠ .added ∧ part ≠ .done

/-- Whether the arguments of every call come under its own index: under its `call_id`, or else with neither `call_id`
nor name, and then for the first call or for one without arguments. -/
def ReachTheirCall (calls : List FunctionCallItem) (labels : List EventLabel) : Prop :=
  ∀ item call, calls[item]? = some call → call.tagged = false →
    (item = 0 ∨ call.arguments = []) ∧ ∀ part, .call item true part ∈ labels → ¬ IsArguments part

def NoneByName (calls : List FunctionCallItem) (labels : List EventLabel) : Prop :=
  ∀ item call, calls[item]? = some call → call.tagged = false →
    ∀ part, .call item true part ∈ labels → ¬ IsArguments part

theorem partDelta_key {call : FunctionCallItem} {named : Bool} {part : CallPart} {delta : ToolCallDelta}
    (hdelta : partDelta call named part = some delta)
    (hnamed : call.tagged = false → named = true → ¬ IsArguments part) :
    deltaKey delta = some (idKey call) ∨ deltaKey delta = none ∧ IsArguments part ∧ call.tagged = false ∧
      named = false := by
  have hargument (arguments : Option Bytes) (mode : ArgumentsMode) (hpart : IsArguments part) :
      deltaKey (argumentDelta call named arguments mode) = some (idKey call) ∨
        deltaKey (argumentDelta call named arguments mode) = none ∧ IsArguments part ∧ call.tagged = false ∧
          named = false := by
    rw [deltaKey_argument]
    cases htagged : call.tagged with
    | true => exact .inl rfl
    | false =>
      cases named with
      | true => exact absurd hpart (hnamed htagged rfl)
      | false => exact .inr ⟨rfl, hpart, rfl, rfl⟩
  cases part with
  | added =>
    obtain rfl := Option.some.inj hdelta
    exact .inl (deltaKey_item call [])
  | done =>
    obtain rfl := Option.some.inj hdelta
    exact .inl (deltaKey_item call call.arguments)
  | argumentsDone =>
    obtain rfl := Option.some.inj hdelta
    exact hargument _ _ ⟨fun h => (by cases h), fun h => (by cases h)⟩
  | delta text =>
    rw [partDelta, Option.ite_none_left_eq_some] at hdelta
    obtain rfl := Option.some.inj hdelta.2
    exact hargument _ _ ⟨fun h => (by cases h), fun h => (by cases h)⟩

end Keys

section Order

theorem filterMap_range {α β : Type} (l : List α) (f : α → β) :
    (List.range l.length).filterMap (fun i => l[i]?.map f) = l.map f := by
  induction l using List.reverseRecOn with
  | nil => rfl
  | append_singleton l a ih =>
    have hinit : (List.range l.length).filterMap (fun i => (l ++ [a])[i]?.map f) = l.map f := by
      rw [← ih]
      apply List.filterMap_congr
      intro i hi
      rw [List.getElem?_append_left (List.mem_range.mp hi)]
    rw [List.length_append, List.length_singleton, List.range_succ, List.filterMap_append, hinit, List.map_append]
    simp

def deltasOf (calls : List FunctionCallItem) (labels : List EventLabel) : List ToolCallDelta :=
  labels.filterMap (labelDelta calls)

def addedKeys (calls : List FunctionCallItem) (labels : List EventLabel) : List Bytes :=
  (labels.filterMap addedItem).filterMap fun item => calls[item]?.map idKey

theorem addedKeys_append (labels labels' : List EventLabel) :
    addedKeys calls (labels ++ labels') = addedKeys calls labels ++ addedKeys calls labels' := by
  rw [addedKeys, List.filterMap_append, List.filterMap_append]
  rfl

theorem WellFormed.key_not_mem (h : WellFormed calls labels) {before after : List EventLabel} {item : ℕ} {named : Bool}
    {call : FunctionCallItem} (hlabels : labels = before ++ .call item named .added :: after)
    (hcall : calls[item]? = some call) : idKey call ∉ addedKeys calls before := by
  intro hmem
  obtain ⟨item', hadded, hkey⟩ := List.mem_filterMap.mp hmem
  obtain ⟨call', hcall', hkey'⟩ := Option.map_eq_some_iff.mp hkey
  have hcallId : call'.callId = call.callId := List.append_cancel_left hkey'
  have hbound : item' < (calls.map (·.callId)).length := by
    rw [List.length_map]
    exact (List.getElem?_eq_some_iff.mp hcall').1
  have hitems : item' = item := by
    apply (List.getElem?_inj hbound h.distinct).mp
    rw [List.getElem?_map, List.getElem?_map, hcall, hcall', Option.map_some, Option.map_some, hcallId]
  have hnodup : (labels.filterMap addedItem).Nodup := h.inOrder ▸ List.nodup_range
  have hcons : (EventLabel.call item named .added :: after).filterMap addedItem =
      item :: after.filterMap addedItem := rfl
  rw [hlabels, List.filterMap_append, hcons] at hnodup
  exact (List.nodup_append.mp hnodup).2.2 item' hadded item List.mem_cons_self hitems

theorem order_label (h : WellFormed calls labels) (hnames : NoneByName calls labels) {before after : List EventLabel}
    {label : EventLabel} (hlabels : labels = before ++ label :: after) :
    order (addedKeys calls before) ((deltasOf calls [label]).filterMap deltaKey) =
      addedKeys calls (before ++ [label]) := by
  rw [addedKeys_append]
  cases label with
  | text | other => exact (List.append_nil _).symm
  | call item named part =>
    cases hcall : calls[item]? with
    | none =>
      have hdeltas : deltasOf calls [.call item named part] = [] := by simp [deltasOf, labelDelta, hcall]
      have hkeys : addedKeys calls [.call item named part] = [] := by cases part <;> simp [addedKeys, addedItem, hcall]
      rw [hdeltas, hkeys, List.append_nil]
      rfl
    | some call =>
      have hdeltas : deltasOf calls [.call item named part] = (partDelta call named part).toList := by
        cases hdelta : partDelta call named part <;> simp [deltasOf, labelDelta, hcall, hdelta]
      rw [hdeltas]
      by_cases hpart : part = .added
      · subst hpart
        have hkeys : addedKeys calls [.call item named .added] = [idKey call] := by simp [addedKeys, addedItem, hcall]
        have hnew := h.key_not_mem hlabels hcall
        simp [partDelta, deltaKey_item, hkeys, order, appear, hnew]
      · have hkeys : addedKeys calls [.call item named part] = [] := by
          cases part <;> simp_all [addedKeys, addedItem]
        have hseen : idKey call ∈ addedKeys calls before := by
          apply List.mem_filterMap.mpr
          refine ⟨item, h.added_before hlabels (List.getElem?_eq_some_iff.mp hcall).1 hpart, by rw [hcall]; rfl⟩
        rw [hkeys, List.append_nil]
        cases hdelta : partDelta call named part with
        | none => rfl
        | some delta =>
          have hnamed (htagged : call.tagged = false) (hname : named = true) : ¬ IsArguments part := by
            subst hname
            exact hnames item call hcall htagged part (by rw [hlabels]; simp)
          rcases partDelta_key hdelta hnamed with hkey | ⟨hkey, -⟩
          · simp [hkey, order, appear, hseen]
          · simp [hkey, order]

theorem order_deltas (h : WellFormed calls labels) (hnames : NoneByName calls labels) :
    order [] ((deltasOf calls labels).filterMap deltaKey) = calls.map idKey := by
  have hprefix (before after : List EventLabel) (hlabels : labels = before ++ after) :
      order [] ((deltasOf calls before).filterMap deltaKey) = addedKeys calls before := by
    induction before using List.reverseRecOn generalizing after with
    | nil => rfl
    | append_singleton before label ih =>
      have hlabels' : labels = before ++ label :: after := by rw [hlabels, List.append_assoc]; rfl
      rw [deltasOf, List.filterMap_append, List.filterMap_append, order_append]
      exact (congrArg (order · _) (ih (label :: after) hlabels')).trans (order_label h hnames hlabels')
  have hall := hprefix labels [] (List.append_nil labels).symm
  rwa [addedKeys, h.inOrder, filterMap_range] at hall

end Order

section Reassembled

def wanted (call : FunctionCallItem) : AssembledCall :=
  { ids := [call.callId], names := [call.name], arguments := call.arguments }

def inputsAt (calls : List FunctionCallItem) (labels : List EventLabel) (n : ℕ) : List ToolCallDelta :=
  (deltasOf calls labels).filter fun delta =>
    slot (order [] ((deltasOf calls labels).filterMap deltaKey)) (deltaKey delta) = n

def namedPart (n : ℕ) : EventLabel → Option (Bool × CallPart)
  | .call item named part => if item = n then some (named, part) else none
  | _ => none

theorem filterMap_namedPart (n : ℕ) (labels : List EventLabel) :
    (labels.filterMap (namedPart n)).map (·.2) = labels.filterMap (partOf n) := by
  rw [List.map_filterMap]
  apply List.filterMap_congr
  intro label _
  cases label with
  | call item named part => by_cases h : item = n <;> simp [namedPart, partOf, h]
  | text | other => rfl

theorem merge_quiet {delta : ToolCallDelta} (hcallId : delta.callId = none) (hname : delta.name = none)
    (harguments : delta.arguments = some []) (htype : delta.toolType = none) (state : ToolCallState) :
    mergeIntoState state delta = (state, none) := by
  simp [mergeIntoState, normalizeToolCallArguments, hcallId, hname, harguments, htype, Option.filter_some]

theorem ReachTheirCall.noneByName (h : ReachTheirCall calls labels) : NoneByName calls labels :=
  fun item call hcall htagged => (h item call hcall htagged).2

theorem slot_idKey (hdistinct : (calls.map (·.callId)).Nodup) {item : ℕ} {call : FunctionCallItem}
    (hcall : calls[item]? = some call) : slot (calls.map idKey) (some (idKey call)) = item := by
  have hkeys : (calls.map idKey).Nodup := by
    have hmap : calls.map idKey = (calls.map (·.callId)).map (ofString "id:" ++ ·) := by rw [List.map_map]; rfl
    rw [hmap]
    exact hdistinct.map fun _ _ => List.append_cancel_left
  obtain ⟨hitem, rfl⟩ := List.getElem?_eq_some_iff.mp hcall
  have hitem' : item < (calls.map idKey).length := by simpa using hitem
  have hget : (calls.map idKey)[item] = idKey calls[item] := List.getElem_map ..
  rw [slot, ← hget, hkeys.idxOf_getElem]

theorem quiet_of_unkeyed (h : WellFormed calls labels) {item : ℕ} {part : CallPart} {call : FunctionCallItem}
    {delta : ToolCallDelta} (hlabel : .call item false part ∈ labels) (hcall : calls[item]? = some call)
    (htagged : call.tagged = false) (hpart : IsArguments part) (hempty : call.arguments = [])
    (hdelta : partDelta call false part = some delta) (state : ToolCallState) :
    mergeIntoState state delta = (state, none) := by
  cases part with
  | added => exact absurd rfl hpart.1
  | done => exact absurd rfl hpart.2
  | argumentsDone =>
    obtain rfl := Option.some.inj hdelta
    exact merge_quiet (by simp [argumentDelta, htagged]) rfl (by rw [hempty]; rfl) rfl state
  | delta text =>
    obtain ⟨texts, hparts, htexts⟩ := h.complete item call hcall
    have hmem : CallPart.delta text ∈ labels.filterMap (partOf item) :=
      List.mem_filterMap.mpr ⟨_, hlabel, by simp [partOf]⟩
    rw [hparts] at hmem
    have htext : text ∈ texts := by simpa using hmem
    have hnil : text = [] := List.flatten_eq_nil_iff.mp (htexts.trans hempty) text htext
    rw [partDelta, if_pos ⟨hnil, htagged, rfl⟩] at hdelta
    cases hdelta

def callInput (calls : List FunctionCallItem) (n : ℕ) (label : EventLabel) : Option ToolCallDelta :=
  (namedPart n label).bind fun part => calls[n]?.bind fun call => partDelta call part.1 part.2

theorem callInput_of_eq (n : ℕ) (named : Bool) (part : CallPart) :
    callInput calls n (.call n named part) = labelDelta calls (.call n named part) := by
  simp [callInput, namedPart, labelDelta]

theorem callInput_of_ne {n item : ℕ} (h : item ≠ n) (named : Bool) (part : CallPart) :
    callInput calls n (.call item named part) = none := by simp [callInput, namedPart, h]

theorem routed_label (h : WellFormed calls labels) (hreach : ReachTheirCall calls labels) (n : ℕ) {label : EventLabel}
    (hlabel : label ∈ labels) :
    let routed := (labelDelta calls label).filter fun delta => slot (calls.map idKey) (deltaKey delta) = n
    routed = callInput calls n label ∨ ∀ delta, routed = some delta ∨ callInput calls n label = some delta →
      ∀ state, mergeIntoState state delta = (state, none) := by
  intro routed
  cases label with
  | text | other => exact .inl rfl
  | call item named part =>
    have hown {delta : ToolCallDelta} (hdelta : labelDelta calls (.call item named part) = some delta)
        (hslot : slot (calls.map idKey) (deltaKey delta) = item) :
          routed = callInput calls n (.call item named part) := by
      by_cases hn : item = n
      · subst hn
        rw [callInput_of_eq]
        simp [routed, hdelta, Option.filter_some, hslot]
      · rw [callInput_of_ne hn]
        simp [routed, hdelta, Option.filter_some, hslot, hn]
    cases hdelta : labelDelta calls (.call item named part) with
    | none =>
      left
      by_cases hn : item = n
      · subst hn
        rw [callInput_of_eq, hdelta]
        simp [routed, hdelta]
      · rw [callInput_of_ne hn]
        simp [routed, hdelta]
    | some delta =>
      obtain ⟨call, hcall, hpartDelta⟩ := Option.bind_eq_some_iff.mp hdelta
      have hnamed (htagged : call.tagged = false) (hname : named = true) : ¬ IsArguments part := by
        subst hname
        exact (hreach item call hcall htagged).2 part hlabel
      rcases partDelta_key hpartDelta hnamed with hkey | ⟨hkey, hpart, htagged, rfl⟩
      · exact .inl (hown hdelta (by rw [hkey, slot_idKey h.distinct hcall]))
      · rcases (hreach item call hcall htagged).1 with rfl | hempty
        · exact .inl (hown hdelta (by rw [hkey, slot]))
        · right
          have hquiet := quiet_of_unkeyed h hlabel hcall htagged hpart hempty hpartDelta
          rintro delta' (hdelta' | hdelta')
          · have hsome := (Option.filter_eq_some_iff.mp hdelta').1
            rw [hdelta] at hsome
            rwa [← Option.some.inj hsome]
          · by_cases hn : item = n
            · subst hn
              rw [callInput_of_eq, hdelta] at hdelta'
              rwa [← Option.some.inj hdelta']
            · rw [callInput_of_ne hn] at hdelta'
              cases hdelta'

theorem assembledOf_inputsAt (h : WellFormed calls labels) (hreach : ReachTheirCall calls labels) (n : ℕ) :
    assembledOf (runCell mergeIntoState {} (inputsAt calls labels n)) = calls[n]?.map wanted := by
  have hinputs : runCell mergeIntoState {} (inputsAt calls labels n) =
      runCell mergeIntoState {} (labels.filterMap (callInput calls n)) := by
    rw [inputsAt, order_deltas h hreach.noneByName, deltasOf, List.filter_filterMap]
    exact runCell_filterMap_congr mergeIntoState {} labels fun label hlabel => routed_label h hreach n hlabel
  rw [hinputs]
  cases hcall : calls[n]? with
  | none =>
    have hnone : labels.filterMap (callInput calls n) = [] :=
      List.filterMap_eq_nil_iff.mpr fun label _ => by simp [callInput, hcall]
    rw [hnone]
    rfl
  | some call =>
    obtain ⟨texts, hparts, htexts⟩ := h.complete n call hcall
    have hparts' : labels.filterMap (callInput calls n) = partsDeltas call (labels.filterMap (namedPart n)) := by
      rw [partsDeltas, List.filterMap_filterMap]
      apply List.filterMap_congr
      intro label _
      rw [callInput, hcall]
      rfl
    rw [hparts', assembledOf_call ((filterMap_namedPart n labels).trans hparts) htexts]
    rfl

end Reassembled

section Astray

variable {state : ToolCallState} {delta : ToolCallDelta} {inputs : List ToolCallDelta}

theorem merge_silent (h : (mergeIntoState state delta).2 = none) (hstate : state.emittedName = none) :
    delta.name.filter (· ≠ []) = none ∧ (mergeIntoState state delta).1.emittedName = none := by
  have hfresh : ((delta.name.filter (· ≠ [])).filter fun name => state.emittedName ≠ some name) =
      delta.name.filter (· ≠ []) := by
    rw [hstate]
    cases delta.name.filter (· ≠ []) <;> rfl
  have hsilent : delta.name.filter (· ≠ []) = none := by
    simp only [mergeIntoState, hfresh, ite_eq_left_iff, reduceCtorEq, imp_false, not_not] at h
    exact h.2.1
  refine ⟨hsilent, ?_⟩
  simp only [mergeIntoState, hsilent, hstate]
  rfl

theorem runCell_ne_nil (hstate : state.emittedName = none) (h : ∃ delta ∈ inputs, delta.name.filter (· ≠ []) ≠ none) :
    runCell mergeIntoState state inputs ≠ [] := by
  induction inputs generalizing state with
  | nil =>
    obtain ⟨_, hmem, -⟩ := h
    cases hmem
  | cons first inputs ih =>
    rw [runCell]
    cases hout : (mergeIntoState state first).2 with
    | some emitted => exact List.cons_ne_nil _ _
    | none =>
      obtain ⟨hsilent, hstate'⟩ := merge_silent hout hstate
      obtain ⟨delta, hmem, hname⟩ := h
      rcases List.mem_cons.mp hmem with rfl | hmem
      · exact absurd hsilent hname
      · exact ih hstate' ⟨delta, hmem, hname⟩

theorem merge_callId {emitted : ToolCallDelta} (h : (mergeIntoState state delta).2 = some emitted)
    (hcallId : delta.callId = none) : emitted.callId = none := by
  simp only [mergeIntoState, hcallId, Option.ite_none_left_eq_some, Option.some.injEq] at h
  rw [← h.2]
  rfl

theorem callIds_runCell (h : ∀ delta ∈ inputs, delta.callId = none) :
    ∀ emitted ∈ runCell mergeIntoState state inputs, emitted.callId = none := by
  induction inputs generalizing state with
  | nil => exact fun emitted hmem => absurd hmem List.not_mem_nil
  | cons first inputs ih =>
    intro emitted hmem
    rcases List.mem_append.mp hmem with hmem | hmem
    · exact merge_callId (Option.mem_toList.mp hmem) (h first List.mem_cons_self)
    · exact ih (fun delta hdelta => h delta (List.mem_cons_of_mem first hdelta)) emitted hmem

theorem partDelta_callId {call : FunctionCallItem} {named : Bool} {part : CallPart}
    (hdelta : partDelta call named part = some delta) : delta.callId = none ∨ deltaKey delta = some (idKey call) := by
  have hargument (arguments : Option Bytes) (mode : ArgumentsMode) :
      (argumentDelta call named arguments mode).callId = none ∨
        deltaKey (argumentDelta call named arguments mode) = some (idKey call) := by
    rw [deltaKey_argument]
    cases htagged : call.tagged with
    | false => exact .inl (by simp [argumentDelta, htagged])
    | true => exact .inr rfl
  cases part with
  | added =>
    obtain rfl := Option.some.inj hdelta
    exact .inr (deltaKey_item call [])
  | done =>
    obtain rfl := Option.some.inj hdelta
    exact .inr (deltaKey_item call call.arguments)
  | argumentsDone =>
    obtain rfl := Option.some.inj hdelta
    exact hargument _ _
  | delta text =>
    rw [partDelta, Option.ite_none_left_eq_some] at hdelta
    obtain rfl := Option.some.inj hdelta.2
    exact hargument _ _

theorem callId_of_mem_inputsAt {call : FunctionCallItem}
    (hmem : delta ∈ inputsAt calls labels
      (slot (order [] ((deltasOf calls labels).filterMap deltaKey)) (some (nameKey call)))) : delta.callId = none := by
  obtain ⟨hdelta, hslot⟩ := List.mem_filter.mp hmem
  obtain ⟨label, -, hlabel⟩ := List.mem_filterMap.mp hdelta
  cases label with
  | text | other => cases hlabel
  | call item named part =>
    obtain ⟨call', -, hpartDelta⟩ := Option.bind_eq_some_iff.mp hlabel
    rcases partDelta_callId hpartDelta with hcallId | hkey'
    · exact hcallId
    · rw [hkey', decide_eq_true_eq, slot, slot] at hslot
      have hkeyMem : idKey call' ∈ order [] ((deltasOf calls labels).filterMap deltaKey) :=
        mem_order (List.mem_filterMap.mpr ⟨delta, hdelta, hkey'⟩)
      exact absurd ((List.idxOf_inj hkeyMem).mp hslot) (idKey_ne_nameKey call' call)

theorem noneByName_of_reassembled
    (h : ∀ n, assembledOf (runCell mergeIntoState {} (inputsAt calls labels n)) = calls[n]?.map wanted) :
    NoneByName calls labels := by
  intro item call hcall htagged part hlabel hpart
  obtain ⟨arguments, mode, hdelta⟩ : ∃ arguments mode,
      partDelta call true part = some (argumentDelta call true arguments mode) := by
    cases part with
    | added => exact absurd rfl hpart.1
    | done => exact absurd rfl hpart.2
    | argumentsDone => exact ⟨_, _, rfl⟩
    | delta text => exact ⟨_, _, if_neg fun hsilent => by cases hsilent.2.2⟩
  set delta := argumentDelta call true arguments mode with hargument
  have hkey : deltaKey delta = some (nameKey call) := by rw [hargument, deltaKey_argument, htagged]; rfl
  have hmem : delta ∈ deltasOf calls labels :=
    List.mem_filterMap.mpr ⟨_, hlabel, by rw [labelDelta, hcall, Option.bind_some, hdelta]⟩
  set n := slot (order [] ((deltasOf calls labels).filterMap deltaKey)) (some (nameKey call)) with hn
  have hinput : delta ∈ inputsAt calls labels n := List.mem_filter.mpr ⟨hmem, by rw [hkey, hn, decide_eq_true_eq]⟩
  have hemitted : runCell mergeIntoState {} (inputsAt calls labels n) ≠ [] :=
    runCell_ne_nil rfl ⟨delta, hinput, by simp [hargument, argumentDelta, Option.filter_some, call.name_ne]⟩
  have hassembled := h n
  rw [assembledOf, if_neg hemitted] at hassembled
  obtain ⟨call', -, hcall'⟩ := Option.map_eq_some_iff.mp hassembled.symm
  have hids : [call'.callId] = _ := congrArg AssembledCall.ids hcall'
  rw [List.filterMap_eq_nil_iff.mpr fun emitted hmem' => by
    rw [callIds_runCell (fun delta' => callId_of_mem_inputsAt) emitted hmem', Option.filter_none]] at hids
  cases hids

theorem merge_arguments : ((mergeIntoState state delta).2.toList.filterMap (·.arguments)).flatten =
    (normalizeToolCallArguments state.arguments delta).1.getD [] := by
  simp only [mergeIntoState]
  cases hargs : (normalizeToolCallArguments state.arguments delta).1 with
  | none => split <;> simp
  | some arguments => simp

def deltaLength (delta : ToolCallDelta) : ℕ :=
  if delta.argumentsMode = .delta then (delta.arguments.getD []).length else 0

theorem deltaLength_le_merge : deltaLength delta ≤
    ((normalizeToolCallArguments state.arguments delta).1.getD []).length := by
  unfold deltaLength
  split
  case isFalse => exact Nat.zero_le _
  case isTrue hmode =>
    cases harguments : delta.arguments with
    | none => exact Nat.zero_le _
    | some arguments =>
      by_cases hempty : arguments = [] <;>
        simp [normalizeToolCallArguments, harguments, hmode, hempty, Option.filter_some]

theorem sum_deltaLength_le : (inputs.map deltaLength).sum ≤
    ((runCell mergeIntoState state inputs).filterMap (·.arguments)).flatten.length := by
  induction inputs generalizing state with
  | nil => exact Nat.zero_le _
  | cons first inputs ih =>
    rw [runCell, List.filterMap_append, List.flatten_append, List.length_append, merge_arguments, List.map_cons,
      List.sum_cons]
    exact Nat.add_le_add deltaLength_le_merge ih

def textLength (item : ℕ) (label : EventLabel) : ℕ := ((partOf item label).elim [] partText).length

theorem sum_textLength (h : WellFormed calls labels) {item : ℕ} {call : FunctionCallItem}
    (hcall : calls[item]? = some call) : (labels.map (textLength item)).sum = call.arguments.length := by
  obtain ⟨texts, hparts, htexts⟩ := h.complete item call hcall
  have hsum (labels : List EventLabel) : (labels.map (textLength item)).sum =
      ((labels.filterMap (partOf item)).map fun part => (partText part).length).sum := by
    induction labels with
    | nil => rfl
    | cons label labels ih =>
      rw [List.map_cons, List.sum_cons, ih, List.filterMap_cons, textLength]
      cases partOf item label <;> simp
  have hdeltas : (texts.map CallPart.delta).map (fun part => (partText part).length) = texts.map List.length := by
    rw [List.map_map]
    rfl
  rw [hsum, hparts, List.map_cons, List.map_append, hdeltas, List.sum_cons, List.sum_append, ← List.length_flatten,
    htexts]
  simp [partText]

theorem textLength_call (n item : ℕ) (named : Bool) (part : CallPart) :
    textLength n (.call item named part) = if item = n then (partText part).length else 0 := by
  by_cases h : item = n <;> simp [textLength, partOf, h]

theorem sum_inputsAt (n : ℕ) : ((inputsAt calls labels n).map deltaLength).sum =
    (labels.map fun label => (((labelDelta calls label).filter fun delta =>
      slot (order [] ((deltasOf calls labels).filterMap deltaKey)) (deltaKey delta) = n).elim 0 deltaLength)).sum := by
  have hsum {α : Type} (f : α → Option ToolCallDelta) (l : List α) :
      ((l.filterMap f).map deltaLength).sum = (l.map fun a => (f a).elim 0 deltaLength).sum := by
    induction l with
    | nil => rfl
    | cons a l ih =>
      rw [List.filterMap_cons, List.map_cons, List.sum_cons, ← ih]
      cases f a <;> simp
  rw [inputsAt, deltasOf, List.filter_filterMap, hsum]

theorem length_le_of_slot (h : WellFormed calls labels) (hnames : NoneByName calls labels) {item : ℕ} {named : Bool}
    {part : CallPart} {call : FunctionCallItem} (hlabel : .call item named part ∈ labels)
    (hcall : calls[item]? = some call) (hfirst : item = 0 ∨ call.tagged = false) :
    (partText part).length ≤ ((labelDelta calls (.call item named part)).filter fun delta =>
      slot (calls.map idKey) (deltaKey delta) = 0).elim 0 deltaLength := by
  by_cases htext : partText part = []
  · rw [htext]
    exact Nat.zero_le _
  · obtain ⟨text, rfl⟩ : ∃ text, part = .delta text := by
      cases part with
      | delta text => exact ⟨text, rfl⟩
      | added | argumentsDone | done => exact absurd rfl htext
    rw [partText] at htext ⊢
    have hdelta : partDelta call named (.delta text) =
        some (argumentDelta call named (some text |>.filter (· ≠ [])) .delta) :=
      if_neg fun hsilent => htext hsilent.1
    have hnamed (htagged : call.tagged = false) (hname : named = true) : ¬ IsArguments (.delta text) := by
      subst hname
      exact hnames item call hcall htagged _ hlabel
    have hslot : slot (calls.map idKey)
        (deltaKey (argumentDelta call named (some text |>.filter (· ≠ [])) .delta)) = 0 := by
      rw [deltaKey_argument]
      cases htagged : call.tagged with
      | true =>
        rcases hfirst with rfl | hfalse
        · exact slot_idKey h.distinct hcall
        · exact absurd (htagged.symm.trans hfalse) (by decide)
      | false =>
        cases named with
        | true => exact absurd ⟨fun h => (by cases h), fun h => (by cases h)⟩ (hnamed htagged rfl)
        | false => rfl
    rw [labelDelta, hcall, Option.bind_some, hdelta, Option.filter_some, if_pos (by rw [hslot]; rfl), Option.elim_some]
    simp [deltaLength, argumentDelta, modeOf, htext, Option.filter_some]

theorem first_or_empty_of_reassembled (h : WellFormed calls labels) (hnames : NoneByName calls labels)
    (hall : ∀ n, assembledOf (runCell mergeIntoState {} (inputsAt calls labels n)) = calls[n]?.map wanted)
    {item : ℕ} {call : FunctionCallItem} (hcall : calls[item]? = some call) (htagged : call.tagged = false) :
    item = 0 ∨ call.arguments = [] := by
  by_contra hne
  rw [not_or] at hne
  have hlength := (List.getElem?_eq_some_iff.mp hcall).1
  obtain ⟨first, hfirst⟩ : ∃ first, calls[0]? = some first := ⟨_, List.getElem?_eq_getElem (by omega)⟩
  have hpoint : ∀ label ∈ labels, textLength 0 label + textLength item label ≤
      ((labelDelta calls label).filter fun delta => slot (calls.map idKey) (deltaKey delta) = 0).elim 0
        deltaLength := by
    intro label hlabel
    cases label with
    | text | other => exact Nat.zero_le _
    | call item' named part =>
      rw [textLength_call, textLength_call]
      by_cases hitem : item' = item
      · subst hitem
        rw [if_neg hne.1, if_pos rfl, Nat.zero_add]
        exact length_le_of_slot h hnames hlabel hcall (.inr htagged)
      · rw [if_neg hitem, Nat.add_zero]
        by_cases hzero : item' = 0
        · subst hzero
          rw [if_pos rfl]
          exact length_le_of_slot h hnames hlabel hfirst (.inl rfl)
        · rw [if_neg hzero]
          exact Nat.zero_le _
  have hsum := List.sum_le_sum hpoint
  have hinputs := @sum_inputsAt calls labels 0
  rw [order_deltas h hnames] at hinputs
  rw [List.sum_map_add, sum_textLength h hfirst, sum_textLength h hcall, ← hinputs] at hsum
  have hemitted := hsum.trans (@sum_deltaLength_le {} _)
  have hassembled := hall 0
  rw [hfirst, Option.map_some, assembledOf, Option.ite_none_left_eq_some] at hassembled
  have harguments := congrArg AssembledCall.arguments (Option.some.inj hassembled.2)
  dsimp only [wanted] at harguments
  rw [harguments] at hemitted
  have hpos := List.length_pos_iff.mpr hne.2
  omega

theorem reassembled_iff (h : WellFormed calls labels) :
    (∀ n, assembledOf (runCell mergeIntoState {} (inputsAt calls labels n)) = calls[n]?.map wanted) ↔
      ReachTheirCall calls labels := by
  constructor
  · intro hall item call hcall htagged
    have hnames := noneByName_of_reassembled hall
    exact ⟨first_or_empty_of_reassembled h hnames hall hcall htagged, hnames item call hcall htagged⟩
  · exact assembledOf_inputsAt h

end Astray

section Stream

variable {model : Bytes} {includeUsage : Bool} {event : JsonObject}

theorem convertEvent_final (h : IsFinal event) (state : ConverterState) : ∃ type, event.string? typeKey = some type ∧
    convertEvent model includeUsage state event = (finalEvents model includeUsage state type event, none) := by
  obtain ⟨type, htype, hmem⟩ := h.type_mem
  have htool : convertToolCall model includeUsage state event = none := by
    simp [convertToolCall, extractToolCallDelta, toolCallFields_of_not h.notToolCall]
  have hne : type ≠ textDeltaType ∧ ¬(type = failedType ∨ type = errorType) ∧
      (type = completedType ∨ type = incompleteType) := by
    rcases List.mem_pair.mp hmem with rfl | rfl <;> decide
  refine ⟨type, htype, ?_⟩
  simp [convertEvent, htype, hne.1, htool, closingEvents, hne.2.1, hne.2.2]

theorem toolChunks_finalEvents (state : ConverterState) (type : Bytes) (event : JsonObject) :
    toolChunks (finalEvents model includeUsage state type event) = [] := by
  cases includeUsage <;> rfl

theorem toolChunks_stream (lib : JsonLibrary) {events : List Bytes} (stream : List (StreamEvent calls))
    {final : JsonObject} {rest : List JsonObject} (hfinal : IsFinal final)
    (hread : events.filterMap lib.readObject = stream.map (·.event) ++ final :: rest) :
    toolChunks (responsesEventsToChatEvents model includeUsage lib events) =
      toolRun {} (fun _ => {}) (deltasOf calls (stream.map (·.label))) := by
  obtain ⟨out, state, hrun, hconverts⟩ := @converts_run calls model includeUsage {} stream (final :: rest)
  obtain ⟨type, -, hclosing⟩ := @convertEvent_final model includeUsage final hfinal state
  have hchunks := hconverts.chunks []
  rw [List.append_nil, toolRun, List.append_nil] at hchunks
  rw [responsesEventsToChatEvents, hread, hrun, convertEvents, hclosing, toolChunks_append, toolChunks_finalEvents,
    List.append_nil, deltasOf, hchunks]

/-- The chunks of a stream reassemble into its calls exactly where all arguments come under the index of their call. -/
theorem tool_calls_reassemble_iff (lib : JsonLibrary) (model : Bytes) (includeUsage : Bool) {events : List Bytes}
    (stream : List (StreamEvent calls)) (hwf : WellFormed calls (stream.map (·.label))) {final : JsonObject}
    {rest : List JsonObject} (hfinal : IsFinal final)
    (hread : events.filterMap lib.readObject = stream.map (·.event) ++ final :: rest) :
    (∀ n, assembled n (toolChunks (responsesEventsToChatEvents model includeUsage lib events)) =
      calls[n]?.map wanted) ↔ ReachTheirCall calls (stream.map (·.label)) := by
  rw [toolChunks_stream lib stream hfinal hread, ← reassembled_iff hwf]
  apply forall_congr'
  intro n
  rw [assembled_toolRun]
  rfl

end Stream

section Samples

def field (name : String) (value : Json) : Bytes × Json := (ofString name, value)

def stringField (name : String) (value : Bytes) : Bytes × Json := (ofString name, .string value)

def outputIndex (item : ℕ) : Bytes × Json := field "output_index" (.number (if item = 0 then 0 else 0x3FF0000000000000))

def itemEvent (type arguments : Bytes) (item : ℕ) (call : FunctionCallItem) : JsonObject :=
  [field "item" (.object [stringField "arguments" arguments, stringField "call_id" call.callId,
      stringField "id" (ofString "fc_" ++ call.callId), stringField "name" call.name,
      stringField "type" (ofString "function_call")]),
    outputIndex item, stringField "type" type]

def argumentEvent (type : Bytes) (item : ℕ) (call : FunctionCallItem) (fields : JsonObject) : JsonObject :=
  (if call.tagged then [stringField "call_id" call.callId] else []) ++ fields ++
    [stringField "item_id" (ofString "fc_" ++ call.callId), outputIndex item, stringField "type" type]

def completedEvent : JsonObject :=
  [field "response" (.object [stringField "id" (ofString "resp_1"), stringField "status" (ofString "completed")]),
    stringField "type" completedType]

mutual

def Json.render : Json → Bytes
  | .null => ofString "null"
  | .boolean value => ofString (if value then "true" else "false")
  | .number value => ofString (if value = 0 then "0" else "1")
  | .string value => [34] ++ value ++ [34]
  | .array items => [91] ++ renderItems items ++ [93]
  | .object fields => [123] ++ renderFields fields ++ [125]

def renderItems : List Json → Bytes
  | [] => []
  | [item] => Json.render item
  | item :: items => Json.render item ++ [44] ++ renderItems items

def renderFields : List (Bytes × Json) → Bytes
  | [] => []
  | [(key, value)] => [34] ++ key ++ [34, 58] ++ Json.render value
  | (key, value) :: fields => [34] ++ key ++ [34, 58] ++ Json.render value ++ [44] ++ renderFields fields

end

def documentLibrary (documents : List Json) : JsonLibrary where
  read text := documents.find? fun document => Json.render document = text
  write document := if document ∈ documents then some (Json.render document) else none

def lookupCall : FunctionCallItem := { callId := ofString "call_a", name := ofString "f", arguments := ofString "1" }

def secondCall : FunctionCallItem := { callId := ofString "call_b", name := ofString "f", arguments := ofString "2" }

theorem isItemEvent_itemEvent (type arguments : Bytes) (item : ℕ) (call : FunctionCallItem) :
    IsItemEvent call type arguments (itemEvent type arguments item call) where
  type_eq := rfl
  item := ⟨_, rfl, rfl, rfl, rfl, rfl, rfl, rfl⟩

theorem isArgumentEvent_delta (item : ℕ) (call : FunctionCallItem) (text : Bytes) :
    IsArgumentEvent call argumentsDeltaType false none (some (.string text))
      (argumentEvent argumentsDeltaType item call [stringField "delta" text]) := by
  unfold argumentEvent
  constructor <;> cases call.tagged <;> rfl

theorem isArgumentEvent_done (item : ℕ) (call : FunctionCallItem) :
    IsArgumentEvent call argumentsDoneType false (some call.arguments) none
      (argumentEvent argumentsDoneType item call [stringField "arguments" call.arguments]) := by
  unfold argumentEvent
  constructor <;> cases call.tagged <;> rfl

section Parts

variable (calls : List FunctionCallItem) {item : ℕ} {call : FunctionCallItem} (hcall : calls[item]? = some call)

def addedPart : StreamEvent calls :=
  ⟨.call item false .added, itemEvent addedType [] item call, call, hcall, isItemEvent_itemEvent _ _ _ _⟩

def deltaPart (text : Bytes) : StreamEvent calls :=
  ⟨.call item false (.delta text), _, call, hcall, isArgumentEvent_delta item call text⟩

def argumentsDonePart : StreamEvent calls :=
  ⟨.call item false .argumentsDone, _, call, hcall, isArgumentEvent_done item call⟩

def donePart : StreamEvent calls :=
  ⟨.call item false .done, itemEvent doneType call.arguments item call, call, hcall, isItemEvent_itemEvent _ _ _ _⟩

def callStream : List (StreamEvent calls) :=
  [addedPart calls hcall, deltaPart calls hcall call.arguments, argumentsDonePart calls hcall, donePart calls hcall]

end Parts

theorem isFinal_completedEvent : IsFinal completedEvent := ⟨by decide, completedType, by decide, by decide⟩

def documentsOf {calls : List FunctionCallItem} (stream : List (StreamEvent calls)) : List Json :=
  (stream.map (·.event) ++ [completedEvent]).map .object

def sampleEvents {calls : List FunctionCallItem} (stream : List (StreamEvent calls)) : List Bytes :=
  (documentsOf stream).map Json.render

def taggedCall : FunctionCallItem :=
  { callId := ofString "call_a", name := ofString "f", arguments := ofString "1", tagged := true }

def taggedSecond : FunctionCallItem :=
  { callId := ofString "call_b", name := ofString "f", arguments := ofString "23", tagged := true }

def crossingCalls : List (StreamEvent [taggedCall, taggedSecond]) :=
  let calls := [taggedCall, taggedSecond]
  have hfirst : calls[0]? = some taggedCall := rfl
  have hsecond : calls[1]? = some taggedSecond := rfl
  [addedPart calls hfirst, addedPart calls hsecond, deltaPart calls hsecond (ofString "2"),
    deltaPart calls hfirst (ofString "1"), deltaPart calls hsecond (ofString "3"), argumentsDonePart calls hfirst,
    argumentsDonePart calls hsecond, donePart calls hsecond, donePart calls hfirst]

theorem wellFormed_crossingCalls : WellFormed [taggedCall, taggedSecond] (crossingCalls.map (·.label)) where
  distinct := by decide
  inOrder := rfl
  complete
    | 0, _, hcall => ⟨[ofString "1"], rfl, by rw [← Option.some.inj hcall]; rfl⟩
    | 1, _, hcall => ⟨[ofString "2", ofString "3"], rfl, by rw [← Option.some.inj hcall]; rfl⟩
    | _ + 2, _, hcall => nomatch hcall

theorem reachTheirCall_crossingCalls : ReachTheirCall [taggedCall, taggedSecond] (crossingCalls.map (·.label)) := by
  intro item call hcall htagged
  have htags : ∀ call ∈ [taggedCall, taggedSecond], call.tagged = true := by simp [taggedCall, taggedSecond]
  rw [htags call (List.mem_of_getElem? hcall)] at htagged
  cases htagged

theorem crossing_calls_reassemble :
    [0, 1].map (assembled · (toolChunks (responsesEventsToChatEvents (ofString "gpt") false
      (documentLibrary (documentsOf crossingCalls)) (sampleEvents crossingCalls)))) =
        [some (wanted taggedCall), some (wanted taggedSecond)] := by
  have hread : (sampleEvents crossingCalls).filterMap (documentLibrary (documentsOf crossingCalls)).readObject =
      crossingCalls.map (·.event) ++ completedEvent :: [] := by decide +kernel
  have hassembled := (tool_calls_reassemble_iff _ (ofString "gpt") false crossingCalls wellFormed_crossingCalls
    isFinal_completedEvent hread).mpr reachTheirCall_crossingCalls
  rw [List.map_cons, List.map_singleton, hassembled 0, hassembled 1]
  rfl

def twoCalls : List (StreamEvent [lookupCall, secondCall]) :=
  @callStream [lookupCall, secondCall] 0 lookupCall rfl ++ @callStream [lookupCall, secondCall] 1 secondCall rfl

theorem wellFormed_twoCalls : WellFormed [lookupCall, secondCall] (twoCalls.map (·.label)) where
  distinct := by decide
  inOrder := rfl
  complete
    | 0, _, hcall => ⟨[lookupCall.arguments], rfl, by rw [← Option.some.inj hcall]; rfl⟩
    | 1, _, hcall => ⟨[secondCall.arguments], rfl, by rw [← Option.some.inj hcall]; rfl⟩
    | _ + 2, _, hcall => nomatch hcall

/-- The arguments of the second call are sent under the index of the first one. -/
theorem second_call_goes_to_the_first : WellFormed [lookupCall, secondCall] (twoCalls.map (·.label)) ∧
    ¬ ∀ n, assembled n (toolChunks (responsesEventsToChatEvents (ofString "gpt") false
      (documentLibrary (documentsOf twoCalls)) (sampleEvents twoCalls))) = [lookupCall, secondCall][n]?.map wanted := by
  refine ⟨wellFormed_twoCalls, fun h => ?_⟩
  have hfirst : assembled 0 (toolChunks (responsesEventsToChatEvents (ofString "gpt") false
      (documentLibrary (documentsOf twoCalls)) (sampleEvents twoCalls))) =
      some { ids := [ofString "call_a"], names := [ofString "f"], arguments := ofString "12" } := by decide +kernel
  exact absurd (hfirst.symm.trans (h 0)) (by decide)

end Samples

end Tightrope.Proxy.Chat
