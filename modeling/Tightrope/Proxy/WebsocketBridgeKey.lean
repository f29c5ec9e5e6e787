import Tightrope.Proxy.Openai.UpstreamHeaders

namespace Tightrope.Proxy.WebsocketBridge

open Bytes Tightrope.Core Openai

def separator : Bytes := ofString "|"

def part (label : String) (value : Bytes) : List Bytes := if value = [] then [] else [ofString label ++ value]

def joinParts (parts : List Bytes) : Bytes := separator.intercalate parts

def continuityKeyFromHeaders (headers : HeaderMap) : Option Bytes :=
  let key := joinParts (part "codex:" (headers.findCaseInsensitive codexSessionIdName) ++
    part "client:" (headers.findCaseInsensitive sessionIdName) ++
    part "turn:" (headers.findCaseInsensitive turnStateName))
  if key = [] then none else some key

def sessionScope (headers : HeaderMap) : Bytes :=
  joinParts (part "client:" (headers.findCaseInsensitive sessionIdName) ++
    part "codex:" (headers.findCaseInsensitive codexSessionIdName))

def scopePart (label : String) (scope : Bytes) : Bytes :=
  if scope = [] then [] else ofString label ++ scope ++ separator

def scopedContinuityKey (continuityKey apiKeyScope sessionScope : Bytes) : Bytes :=
  scopePart "api_key_scope:" apiKeyScope ++ scopePart "session_scope:" sessionScope ++ continuityKey

def bridgeKeyFromHeaders (headers : HeaderMap) : Option Bytes :=
  (continuityKeyFromHeaders headers).map fun key =>
    scopedContinuityKey key (headers.findCaseInsensitive apiKeyIdName) (sessionScope headers)

section Plan

variable (order : IterationOrder)

def planHeaders (headers : HeaderMap) (accessToken accountId : Bytes) : HeaderMap :=
  buildUpstreamWebsocketHeaders order (filterInboundHeaders order headers) accessToken accountId []

def executionBridgeKey (headers : HeaderMap) (accessToken accountId : Bytes) : Option Bytes :=
  bridgeKeyFromHeaders (planHeaders order headers accessToken accountId)

end Plan

def cancelBridgeKey (headers : HeaderMap) : Option Bytes := bridgeKeyFromHeaders headers

structure KeyedConnection (keyId : Bytes) (headers : HeaderMap) : Prop where
  scope : headers.findCaseInsensitive apiKeyIdName = keyId
  keyed : keyId ≠ []
  continued : continuityKeyFromHeaders headers ≠ none

def rekey (keyId : Bytes) (header : Bytes × Bytes) : Bytes × Bytes :=
  if toLowerAscii header.1 = apiKeyIdName then (header.1, keyId) else header

def SameClient (headers headers' : HeaderMap) : Prop := headers.map (rekey []) = headers'.map (rekey [])

variable {order : IterationOrder} {headers headers' : HeaderMap} {token account keyId keyId' : Bytes}

theorem dropped_of_scope_name {name : Bytes} (hname : toLowerAscii name = apiKeyIdName) :
    shouldDropInboundHeader name = true := by
  rw [shouldDropInboundHeader, hname]
  decide

theorem planHeaders_scope : (planHeaders order headers token account).findCaseInsensitive apiKeyIdName = [] := by
  apply Lacks.find_eq_nil
  rw [show toLowerAscii apiKeyIdName = apiKeyIdName by decide]
  apply Lacks.buildUpstreamWebsocketHeaders _ (by decide)
  exact lacks_filterInboundHeaders fun name hname => dropped_of_scope_name hname

theorem head?_append_some {a b : Bytes} {c : UInt8} (h : a.head? = some c) : (a ++ b).head? = some c := by
  rw [List.head?_append, h]
  rfl

theorem head?_joinParts (label : String) {value : Bytes} {c : UInt8} (tail : List Bytes) (hvalue : value ≠ [])
    (hlabel : (ofString label).head? = some c) : (joinParts (part label value ++ tail)).head? = some c := by
  rw [part, if_neg hvalue, joinParts, List.singleton_append]
  cases tail with
  | nil =>
    rw [List.intercalate_singleton]
    exact head?_append_some hlabel
  | cons next tail =>
    rw [List.intercalate_cons_cons, List.append_assoc, List.append_assoc]
    exact head?_append_some hlabel

theorem head?_scopePart {label : String} {scope rest : Bytes} {c : UInt8} (hscope : scope ≠ [])
    (hlabel : (ofString label).head? = some c) : (scopePart label scope ++ rest).head? = some c := by
  rw [scopePart, if_neg hscope, List.append_assoc, List.append_assoc]
  exact head?_append_some hlabel

theorem sessionScope_eq_nil (h : sessionScope headers = []) :
    headers.findCaseInsensitive sessionIdName = [] ∧ headers.findCaseInsensitive codexSessionIdName = [] := by
  have hclient : headers.findCaseInsensitive sessionIdName = [] := by
    by_contra hclient
    have hhead := head?_joinParts (c := 99) "client:"
      (part "codex:" (headers.findCaseInsensitive codexSessionIdName)) hclient (by decide)
    rw [sessionScope] at h
    rw [h] at hhead
    cases hhead
  refine ⟨hclient, ?_⟩
  by_contra hcodex
  have hhead := head?_joinParts (c := 99) "codex:" [] hcodex (by decide)
  rw [sessionScope, hclient, part, if_pos rfl, List.nil_append] at h
  rw [List.append_nil, h] at hhead
  cases hhead

theorem bridgeKey_of_scope (hscope : headers.findCaseInsensitive apiKeyIdName ≠ [])
    (hcontinued : continuityKeyFromHeaders headers ≠ none) :
    ∃ key, bridgeKeyFromHeaders headers = some key ∧ key.head? = some 97 := by
  obtain ⟨continuity, hcontinuity⟩ := Option.ne_none_iff_exists'.mp hcontinued
  refine ⟨scopedContinuityKey continuity (headers.findCaseInsensitive apiKeyIdName) (sessionScope headers), ?_, ?_⟩
  · rw [bridgeKeyFromHeaders, hcontinuity]
    rfl
  rw [scopedContinuityKey, List.append_assoc]
  exact head?_scopePart hscope (by decide)

theorem bridgeKey_without_scope (hscope : headers.findCaseInsensitive apiKeyIdName = []) {key : Bytes}
    (h : bridgeKeyFromHeaders headers = some key) : key.head? = some 115 ∨ key.head? = some 116 := by
  obtain ⟨continuity, hcontinuity, rfl⟩ := Option.map_eq_some_iff.mp h
  rw [scopedContinuityKey, hscope, scopePart, if_pos rfl, List.nil_append]
  by_cases hsession : sessionScope headers = []
  · right
    obtain ⟨hclient, hcodex⟩ := sessionScope_eq_nil hsession
    simp only [continuityKeyFromHeaders, hclient, hcodex, part, ↓reduceIte, List.nil_append] at hcontinuity
    split_ifs at hcontinuity with hturn hempty hempty
    · exact absurd rfl hempty
    · obtain rfl := Option.some.inj hcontinuity
      rw [hsession, scopePart, if_pos rfl, List.nil_append, joinParts, List.intercalate_singleton]
      exact head?_append_some (by decide)
  · left
    exact head?_scopePart hsession (by decide)

theorem cancelBridgeKey_ne (h : KeyedConnection keyId headers) :
    cancelBridgeKey headers ≠ executionBridgeKey order headers token account := by
  obtain ⟨key, hcancel, hhead⟩ := bridgeKey_of_scope (h.scope.symm ▸ h.keyed) h.continued
  rw [cancelBridgeKey, hcancel]
  intro hexec
  obtain hs | ht := bridgeKey_without_scope planHeaders_scope hexec.symm
  · rw [hhead] at hs
    cases hs
  · rw [hhead] at ht
    cases ht

@[simp] theorem rekey_fst (header : Bytes × Bytes) : (rekey keyId header).1 = header.1 := by
  unfold rekey
  split_ifs <;> rfl

theorem rekey_of_ne {header : Bytes × Bytes} (h : toLowerAscii header.1 ≠ apiKeyIdName) :
    rekey keyId header = header := if_neg h

@[simp] theorem rekey_rekey (header : Bytes × Bytes) : rekey keyId (rekey keyId' header) = rekey keyId header := by
  unfold rekey
  split_ifs <;> rfl

theorem sameClient_rekey (keyId : Bytes) (headers : HeaderMap) : SameClient headers (headers.map (rekey keyId)) := by
  simp [SameClient, Function.comp_def]

theorem findCaseInsensitive_rekey {name : Bytes} (hname : toLowerAscii name ≠ apiKeyIdName) :
    HeaderMap.findCaseInsensitive (headers.map (rekey keyId)) name = headers.findCaseInsensitive name := by
  induction headers with
  | nil => rfl
  | cons header headers ih =>
    obtain ⟨first, value⟩ := header
    rw [List.map_cons, HeaderMap.findCaseInsensitive_cons first value]
    by_cases hmatch : equalsCaseInsensitive first name = true
    · have hother : toLowerAscii first ≠ apiKeyIdName := by rwa [equalsCaseInsensitive_iff.mp hmatch]
      rw [rekey_of_ne hother, HeaderMap.findCaseInsensitive_cons, if_pos hmatch, if_pos hmatch]
    · have hskip : equalsCaseInsensitive (rekey keyId (first, value)).1 name ≠ true := by rwa [rekey_fst]
      rw [if_neg hmatch, HeaderMap.findCaseInsensitive_cons, if_neg hskip, ih]

theorem findCaseInsensitive_rekey_self (htrimmed : Trimmed keyId)
    (h : headers.findCaseInsensitive apiKeyIdName ≠ []) :
    HeaderMap.findCaseInsensitive (headers.map (rekey keyId)) apiKeyIdName = keyId := by
  induction headers with
  | nil => exact absurd rfl h
  | cons header headers ih =>
    obtain ⟨first, value⟩ := header
    rw [HeaderMap.findCaseInsensitive_cons] at h
    by_cases hmatch : equalsCaseInsensitive first apiKeyIdName = true
    · have hname : toLowerAscii first = apiKeyIdName := (equalsCaseInsensitive_iff.mp hmatch).trans (by decide)
      rw [List.map_cons, rekey, if_pos hname, HeaderMap.findCaseInsensitive_cons, if_pos hmatch,
        trimAscii_eq_self.mpr htrimmed]
    · rw [if_neg hmatch] at h
      have hskip : equalsCaseInsensitive (rekey keyId (first, value)).1 apiKeyIdName ≠ true := by rwa [rekey_fst]
      rw [List.map_cons, HeaderMap.findCaseInsensitive_cons, if_neg hskip]
      exact ih h

theorem filterInboundHeaders_rekey :
    filterInboundHeaders order (headers.map (rekey keyId)) = filterInboundHeaders order headers := by
  have hkept : ∀ header ∈ headers.filter (fun header => !shouldDropInboundHeader header.1),
      rekey keyId header = header := by
    intro header hmem
    apply rekey_of_ne
    intro hname
    have hdropped := (List.mem_filter.mp hmem).2
    rw [dropped_of_scope_name hname] at hdropped
    cases hdropped
  have hfiltered : (headers.map (rekey keyId)).filter (fun header => !shouldDropInboundHeader header.1) =
      headers.filter (fun header => !shouldDropInboundHeader header.1) := by
    rw [List.filter_map]
    simp only [Function.comp_def, rekey_fst]
    exact (List.map_congr_left hkept).trans (List.map_id' _)
  rw [filterInboundHeaders, hfiltered, filterInboundHeaders]

theorem keyedConnection_rekey (h : KeyedConnection keyId headers) (hkeyed : keyId' ≠ []) (htrimmed : Trimmed keyId') :
    KeyedConnection keyId' (headers.map (rekey keyId')) where
  scope := findCaseInsensitive_rekey_self htrimmed (h.scope.symm ▸ h.keyed)
  keyed := hkeyed
  continued := by
    have hcontinued := h.continued
    unfold continuityKeyFromHeaders at hcontinued ⊢
    rwa [findCaseInsensitive_rekey (by decide), findCaseInsensitive_rekey (by decide),
      findCaseInsensitive_rekey (by decide)]

/-- For every connection of one API key: a connection of any other key whose client sends the same headers uses the
same upstream session, and the cancel of the connection asks for another key than its messages run under. -/
theorem bridge_key_ignores_api_key (h : KeyedConnection keyId headers) (hkeyed : keyId' ≠ [])
    (htrimmed : Trimmed keyId') :
    (∃ headers', SameClient headers headers' ∧ KeyedConnection keyId' headers' ∧
      executionBridgeKey order headers' token account = executionBridgeKey order headers token account) ∧
      cancelBridgeKey headers ≠ executionBridgeKey order headers token account := by
  refine ⟨⟨headers.map (rekey keyId'), sameClient_rekey keyId' headers, keyedConnection_rekey h hkeyed htrimmed, ?_⟩,
    cancelBridgeKey_ne h⟩
  rw [executionBridgeKey, planHeaders, filterInboundHeaders_rekey, executionBridgeKey, planHeaders]

def turnHeaders (keyId : Bytes) : HeaderMap := [(turnStateName, ofString "turn_1"), (apiKeyIdName, keyId)]

theorem keyedConnection_turnHeaders : KeyedConnection (ofString "key_1") (turnHeaders (ofString "key_1")) :=
  ⟨by decide +kernel, by decide, by decide +kernel⟩

theorem key_1_shares_its_session :
    (∃ headers', SameClient (turnHeaders (ofString "key_1")) headers' ∧
      KeyedConnection (ofString "key_2") headers' ∧
      executionBridgeKey .insertionOrder headers' [] [] =
        executionBridgeKey .insertionOrder (turnHeaders (ofString "key_1")) [] []) ∧
      cancelBridgeKey (turnHeaders (ofString "key_1")) ≠
        executionBridgeKey .insertionOrder (turnHeaders (ofString "key_1")) [] [] :=
  bridge_key_ignores_api_key keyedConnection_turnHeaders (by decide) (by decide)

theorem two_keys_run_on_one_session :
    executionBridgeKey .insertionOrder (turnHeaders (ofString "key_1")) [] [] =
      executionBridgeKey .insertionOrder (turnHeaders (ofString "key_2")) [] [] ∧
    cancelBridgeKey (turnHeaders (ofString "key_1")) ≠
      executionBridgeKey .insertionOrder (turnHeaders (ofString "key_1")) [] [] := by
  decide +kernel

end Tightrope.Proxy.WebsocketBridge
