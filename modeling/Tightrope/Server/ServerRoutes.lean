import Tightrope.Proxy.Session.HttpBridge
import Tightrope.Server.ApiKeyFilter

namespace Tightrope.Server

open Bytes Tightrope.Core Proxy Proxy.Session

inductive ProxyRoute where
  | responses
  | compact
  | memoriesTraceSummarize
  | chatCompletions
  | websocket
  deriving DecidableEq, Repr

structure RequestEnv where
  requestId : Bytes := []
  startMs : Bytes := []
  ingressTurnState : Bytes := []
  serviceTurnState : Bytes := []
  decompressedLength : Option Bytes := none
  deriving DecidableEq

def requestIdName : Bytes := ofString "x-request-id"

def requestStartName : Bytes := ofString "x-tightrope-request-start-ms"

def contentEncodingName : Bytes := ofString "content-encoding"

def contentLengthName : Bytes := ofString "content-length"

def ProxyRoute.attachesScope : ProxyRoute → Bool
  | .responses | .websocket => true
  | .compact | .memoriesTraceSummarize | .chatCompletions => false

def ProxyRoute.reachesBridge : ProxyRoute → Bool
  | .responses | .websocket | .chatCompletions => true
  | .compact | .memoriesTraceSummarize => false

section Pipeline

variable (order : IterationOrder) (env : RequestEnv) (policy : ApiKeyModelPolicy) (raw : List (Bytes × Bytes))

def requestHeaders : HeaderMap := raw.foldl order.emplace []

def requestContext : HeaderMap :=
  order.assign (order.assign (requestHeaders order raw) requestIdName env.requestId) requestStartName env.startMs

def attachApiKeyScopeHeader (headers : HeaderMap) : HeaderMap :=
  match policy.keyId with
  | none => headers
  | some keyId => if keyId = [] then headers else order.assign headers apiKeyIdName keyId

def stripContentEncodingHeaders (headers : HeaderMap) (bodySize : Bytes) : HeaderMap :=
  order.assign (order.arrange (headers.filter fun header =>
      !equalsCaseInsensitive header.1 contentEncodingName && !equalsCaseInsensitive header.1 contentLengthName))
    contentLengthName bodySize

def decodedHeaders (headers : HeaderMap) : HeaderMap :=
  match env.decompressedLength with
  | none => headers
  | some bodySize => stripContentEncodingHeaders order headers bodySize

def serviceHeaders : ProxyRoute → HeaderMap
  | .responses => decodedHeaders order env (ensureTurnStateHeader order
      (attachApiKeyScopeHeader order policy (requestContext order env raw)) env.ingressTurnState)
  | .websocket => order.assign (ensureTurnStateHeader order
      (attachApiKeyScopeHeader order policy (requestContext order env raw)) env.ingressTurnState)
      requestStartName env.startMs
  | .compact | .memoriesTraceSummarize | .chatCompletions => decodedHeaders order env (requestContext order env raw)

def bridgedHeaders (route : ProxyRoute) : HeaderMap :=
  ensureTurnStateHeader order (order.arrange (serviceHeaders order env policy raw route)) env.serviceTurnState

def bridgeScope (route : ProxyRoute) : Option Bytes :=
  if route.reachesBridge then some (apiKeyScopeFromHeaders (bridgedHeaders order env policy raw route)) else none

end Pipeline

def ApiKeyModelPolicy.authenticatedKeyId (policy : ApiKeyModelPolicy) : Bytes := policy.keyId.getD []

def ScopeNamed (header : Bytes × Bytes) : Prop := toLowerAscii header.1 = apiKeyIdName

def FirstOf (raw : List (Bytes × Bytes)) (header : Bytes × Bytes) : Prop :=
  raw.find? (fun other => other.1 = header.1) = some header

def ScopeTrusted (route : ProxyRoute) (policy : ApiKeyModelPolicy) (raw : List (Bytes × Bytes)) : Prop :=
  if route.attachesScope = true ∧ policy.authenticatedKeyId ≠ [] then
    Trimmed policy.authenticatedKeyId ∧ ∀ header, FirstOf raw header → ScopeNamed header → header.1 ≠ apiKeyIdName →
      trimAscii header.2 = policy.authenticatedKeyId
  else
    (∀ header, FirstOf raw header → ScopeNamed header → trimAscii header.2 = policy.authenticatedKeyId) ∧
      (policy.authenticatedKeyId = [] ∨ ∃ header, FirstOf raw header ∧ ScopeNamed header)

section Members

variable {order : IterationOrder} {env : RequestEnv} {policy : ApiKeyModelPolicy} {raw : List (Bytes × Bytes)}
  {headers : HeaderMap} {header : Bytes × Bytes} {route : ProxyRoute} {name value : Bytes}

instance : DecidablePred ScopeNamed := fun header => inferInstanceAs (Decidable (toLowerAscii header.1 = apiKeyIdName))

theorem hasKey_iff : headers.hasKey name = true ↔ ∃ other ∈ headers, other.1 = name := by
  simp [HeaderMap.hasKey]

theorem mem_emplace :
    header ∈ order.emplace headers (name, value) ↔
      header ∈ headers ∨ (headers.hasKey name = false ∧ header = (name, value)) := by
  unfold IterationOrder.emplace
  split_ifs with hkey
  · simp [show headers.hasKey name = true from hkey]
  · rw [IterationOrder.mem_arrange, List.mem_cons, or_comm]
    simp [show headers.hasKey name = false from Bool.eq_false_iff.mpr hkey]

theorem mem_foldl_emplace :
    header ∈ raw.foldl order.emplace headers ↔
      header ∈ headers ∨ (headers.hasKey header.1 = false ∧ FirstOf raw header) := by
  induction raw generalizing headers with
  | nil => simp [FirstOf]
  | cons first raw ih =>
    obtain ⟨name, value⟩ := first
    have hkey : (order.emplace headers (name, value)).hasKey header.1 = false ↔
        headers.hasKey header.1 = false ∧ name ≠ header.1 := by
      simp only [← Bool.not_eq_true, hasKey_iff, not_exists, not_and]
      constructor
      · intro hnone
        have hold : ∀ other ∈ headers, ¬ other.1 = header.1 :=
          fun other hmem => hnone other (mem_emplace.mpr (.inl hmem))
        refine ⟨hold, ?_⟩
        rintro rfl
        by_cases hfresh : headers.hasKey header.1 = false
        · exact hnone (header.1, value) (mem_emplace.mpr (.inr ⟨hfresh, rfl⟩)) rfl
        · obtain ⟨other, hmem, hname⟩ := hasKey_iff.mp (Bool.eq_true_of_not_eq_false hfresh)
          exact hold other hmem hname
      · rintro ⟨hold, hname⟩ other hmem
        obtain hmem | ⟨-, rfl⟩ := mem_emplace.mp hmem
        · exact hold other hmem
        · exact hname
    rw [List.foldl_cons, ih, mem_emplace, hkey, FirstOf, FirstOf, List.find?_cons]
    by_cases hname : name = header.1
    · subst hname
      have hsame : (some (header.1, value) = some header) ↔ header = (header.1, value) := by
        rw [Option.some.injEq, eq_comm]
      simp [hsame]
    · have hother : header ≠ (name, value) := by
        rintro rfl
        exact hname rfl
      simp [hname, hother]

theorem mem_requestHeaders : header ∈ requestHeaders order raw ↔ FirstOf raw header := by
  rw [requestHeaders, mem_foldl_emplace]
  simp [HeaderMap.hasKey]

theorem mem_assign_iff_of_ne (hname : header.1 ≠ name) :
    header ∈ order.assign headers name value ↔ header ∈ headers := by
  have hset : ∀ other : Bytes × Bytes, HeaderMap.setValue name value other = header ↔ other = header := by
    intro other
    unfold HeaderMap.setValue
    split_ifs with hother
    · constructor
      · rintro rfl
        exact absurd rfl hname
      · rintro rfl
        exact absurd hother hname
    · exact Iff.rfl
  unfold IterationOrder.assign
  split_ifs
  · simp only [List.mem_map, hset, exists_eq_right]
  · rw [IterationOrder.mem_arrange, List.mem_cons, or_iff_right]
    rintro rfl
    exact hname rfl

theorem mem_assign_self (order : IterationOrder) (headers : HeaderMap) :
    header ∈ order.assign headers name value ∧ header.1 = name ↔ header = (name, value) := by
  constructor
  · rintro ⟨hmem, hname⟩
    unfold IterationOrder.assign at hmem
    split_ifs at hmem with hkey
    · obtain ⟨other, -, rfl⟩ := List.mem_map.mp hmem
      unfold HeaderMap.setValue at hname ⊢
      split_ifs with hother
      · rfl
      · rw [if_neg hother] at hname
        exact absurd hname hother
    · obtain rfl | hold := List.mem_cons.mp (IterationOrder.mem_arrange.mp hmem)
      · rfl
      · exact absurd (hasKey_iff.mpr ⟨header, hold, hname⟩) hkey
  · rintro rfl
    refine ⟨?_, rfl⟩
    unfold IterationOrder.assign
    split_ifs with hkey
    · obtain ⟨other, hother, rfl⟩ := hasKey_iff.mp hkey
      exact List.mem_map.mpr ⟨other, hother, if_pos rfl⟩
    · exact IterationOrder.mem_arrange.mpr List.mem_cons_self

theorem ScopeNamed.ne (h : ScopeNamed header) (hname : toLowerAscii name ≠ apiKeyIdName) : header.1 ≠ name := by
  rintro rfl
  exact hname h

theorem ScopeNamed.mem_assign_iff (h : ScopeNamed header) (hname : toLowerAscii name ≠ apiKeyIdName) :
    header ∈ order.assign headers name value ↔ header ∈ headers := mem_assign_iff_of_ne (h.ne hname)

theorem ScopeNamed.mem_ensureTurnStateHeader (h : ScopeNamed header) :
    header ∈ ensureTurnStateHeader order headers value ↔ header ∈ headers := h.mem_assign_iff (by decide)

theorem ScopeNamed.mem_requestContext (h : ScopeNamed header) :
    header ∈ requestContext order env raw ↔ FirstOf raw header := by
  rw [requestContext, h.mem_assign_iff (by decide), h.mem_assign_iff (by decide), mem_requestHeaders]

theorem ScopeNamed.mem_decodedHeaders (h : ScopeNamed header) :
    header ∈ decodedHeaders order env headers ↔ header ∈ headers := by
  have hkept : (!equalsCaseInsensitive header.1 contentEncodingName &&
      !equalsCaseInsensitive header.1 contentLengthName) = true := by
    have hencoding : equalsCaseInsensitive header.1 contentEncodingName = false := by
      rw [Bool.eq_false_iff, ne_eq, equalsCaseInsensitive_iff, show toLowerAscii header.1 = apiKeyIdName from h]
      decide
    have hlength : equalsCaseInsensitive header.1 contentLengthName = false := by
      rw [Bool.eq_false_iff, ne_eq, equalsCaseInsensitive_iff, show toLowerAscii header.1 = apiKeyIdName from h]
      decide
    rw [hencoding, hlength]
    rfl
  unfold decodedHeaders
  split
  · rfl
  · rw [stripContentEncodingHeaders, h.mem_assign_iff (by decide), IterationOrder.mem_arrange, List.mem_filter,
      and_iff_left hkept]

def ScopeSource (route : ProxyRoute) (policy : ApiKeyModelPolicy) (raw : List (Bytes × Bytes))
    (header : Bytes × Bytes) : Prop :=
  if route.attachesScope = true ∧ policy.authenticatedKeyId ≠ [] then
    header = (apiKeyIdName, policy.authenticatedKeyId) ∨ (header.1 ≠ apiKeyIdName ∧ FirstOf raw header)
  else FirstOf raw header

theorem attachApiKeyScopeHeader_of_keyed (hkeyed : policy.authenticatedKeyId ≠ []) :
    attachApiKeyScopeHeader order policy headers = order.assign headers apiKeyIdName policy.authenticatedKeyId := by
  unfold ApiKeyModelPolicy.authenticatedKeyId at hkeyed ⊢
  unfold attachApiKeyScopeHeader
  cases hkey : policy.keyId with
  | none => simp [hkey] at hkeyed
  | some keyId => simp_all

theorem attachApiKeyScopeHeader_of_unkeyed (hkeyed : policy.authenticatedKeyId = []) :
    attachApiKeyScopeHeader order policy headers = headers := by
  unfold ApiKeyModelPolicy.authenticatedKeyId at hkeyed
  unfold attachApiKeyScopeHeader
  cases hkey : policy.keyId with
  | none => rfl
  | some keyId => simp_all

theorem ScopeNamed.mem_attached (h : ScopeNamed header) (route : ProxyRoute) (hroute : route.attachesScope = true) :
    header ∈ attachApiKeyScopeHeader order policy (requestContext order env raw) ↔
      ScopeSource route policy raw header := by
  unfold ScopeSource
  by_cases hkeyed : policy.authenticatedKeyId = []
  · rw [attachApiKeyScopeHeader_of_unkeyed hkeyed, h.mem_requestContext, if_neg (by simp [hkeyed])]
  · rw [attachApiKeyScopeHeader_of_keyed hkeyed, if_pos ⟨hroute, hkeyed⟩,
      ← mem_assign_self order (requestContext order env raw)]
    by_cases hexact : header.1 = apiKeyIdName
    · simp [hexact]
    · simp only [hexact, and_false, ne_eq, not_false_eq_true, true_and, false_or]
      rw [mem_assign_iff_of_ne hexact, h.mem_requestContext]

theorem ScopeNamed.mem_serviceHeaders (h : ScopeNamed header) :
    header ∈ serviceHeaders order env policy raw route ↔ ScopeSource route policy raw header := by
  cases route with
  | responses =>
    rw [serviceHeaders, h.mem_decodedHeaders, h.mem_ensureTurnStateHeader, h.mem_attached .responses rfl]
  | websocket =>
    rw [serviceHeaders, h.mem_assign_iff (by decide), h.mem_ensureTurnStateHeader, h.mem_attached .websocket rfl]
  | compact => rw [serviceHeaders, h.mem_decodedHeaders, h.mem_requestContext]; rfl
  | memoriesTraceSummarize => rw [serviceHeaders, h.mem_decodedHeaders, h.mem_requestContext]; rfl
  | chatCompletions => rw [serviceHeaders, h.mem_decodedHeaders, h.mem_requestContext]; rfl

theorem ScopeNamed.mem_bridgedHeaders (h : ScopeNamed header) :
    header ∈ bridgedHeaders order env policy raw route ↔ ScopeSource route policy raw header := by
  rw [bridgedHeaders, h.mem_ensureTurnStateHeader, IterationOrder.mem_arrange, h.mem_serviceHeaders]

theorem find?_apiKeyIdName (headers : HeaderMap) : headers.findCaseInsensitive apiKeyIdName =
    ((headers.find? fun header => ScopeNamed header).map fun header => trimAscii header.2).getD [] := by
  have hsame : (fun header : Bytes × Bytes => equalsCaseInsensitive header.1 apiKeyIdName) =
      fun header => decide (ScopeNamed header) := by
    funext header
    rw [Bool.eq_iff_iff, equalsCaseInsensitive_iff, decide_eq_true_iff]
    exact Iff.rfl
  rw [HeaderMap.findCaseInsensitive, hsame]
  cases headers.find? fun header => ScopeNamed header <;> rfl

theorem apiKeyScope_of_all {scope : Bytes} (hall : ∀ header ∈ headers, ScopeNamed header → trimAscii header.2 = scope)
    (hsome : scope = [] ∨ ∃ header ∈ headers, ScopeNamed header) : apiKeyScopeFromHeaders headers = scope := by
  rw [apiKeyScopeFromHeaders, find?_apiKeyIdName]
  cases hfound : headers.find? fun header => ScopeNamed header with
  | none =>
    obtain rfl | ⟨header, hmem, hnamed⟩ := hsome
    · rfl
    · rw [List.find?_eq_none] at hfound
      exact absurd (decide_eq_true hnamed) (hfound header hmem)
  | some header =>
    have hnamed := List.find?_some hfound
    exact hall header (List.mem_of_find?_eq_some hfound) (of_decide_eq_true hnamed)

end Members

section Orders

variable {headers : HeaderMap} {header : Bytes × Bytes} {value : Bytes}

def frontOrder (name : Bytes) : IterationOrder where
  arrange headers := headers.filter (fun header => header.1 = name) ++ headers.filter (fun header => !(header.1 = name))
  perm headers := List.filter_append_perm _ headers

theorem frontOrder_eq_cons (hmem : header ∈ headers) (honly : ∀ other ∈ headers, other.1 = header.1 → other = header) :
    ∃ rest, (frontOrder header.1).arrange headers = header :: rest := by
  have hfront : header ∈ headers.filter fun other => other.1 = header.1 := List.mem_filter.mpr ⟨hmem, by simp⟩
  change ∃ rest, headers.filter (fun other => other.1 = header.1) ++
    headers.filter (fun other => !(other.1 = header.1)) = header :: rest
  cases hfilter : headers.filter fun other => other.1 = header.1 with
  | nil =>
    rw [hfilter] at hfront
    cases hfront
  | cons first rest =>
    have hfirst : first ∈ headers.filter fun other => other.1 = header.1 := hfilter ▸ List.mem_cons_self
    obtain ⟨hfirstMem, hname⟩ := List.mem_filter.mp hfirst
    obtain rfl := honly first hfirstMem (of_decide_eq_true hname)
    exact ⟨_, rfl⟩

theorem scope_frontOrder (hnamed : ScopeNamed header) (hmem : header ∈ headers)
    (honly : ∀ other ∈ headers, other.1 = header.1 → other = header) :
    apiKeyScopeFromHeaders (ensureTurnStateHeader (frontOrder header.1) ((frontOrder header.1).arrange headers) value) =
      trimAscii header.2 := by
  have hturn : turnStateName ≠ header.1 := (hnamed.ne (by decide)).symm
  obtain ⟨rest, hrest⟩ := frontOrder_eq_cons hmem honly
  have hhead : ∀ turn, ∃ tail, (frontOrder header.1).assign ((frontOrder header.1).arrange headers) turnStateName turn =
      header :: tail := by
    intro turn
    unfold IterationOrder.assign
    split_ifs
    · rw [hrest, List.map_cons, HeaderMap.setValue, if_neg hturn.symm]
      exact ⟨_, rfl⟩
    · apply frontOrder_eq_cons
      · exact List.mem_cons_of_mem _ (IterationOrder.mem_arrange.mpr hmem)
      · intro other hother hname
        obtain rfl | hold := List.mem_cons.mp hother
        · exact absurd hname hturn
        · exact honly other (IterationOrder.mem_arrange.mp hold) hname
  obtain ⟨tail, htail⟩ := hhead _
  rw [ensureTurnStateHeader, htail, apiKeyScopeFromHeaders, find?_apiKeyIdName, List.find?_cons_of_pos]
  · rfl
  · exact decide_eq_true hnamed

end Orders

section Scope

variable {policy : ApiKeyModelPolicy} {raw : List (Bytes × Bytes)} {route : ProxyRoute}

theorem scopeTrusted_iff :
    ScopeTrusted route policy raw ↔
      (∀ header, ScopeSource route policy raw header → ScopeNamed header →
        trimAscii header.2 = policy.authenticatedKeyId) ∧
      (policy.authenticatedKeyId = [] ∨ ∃ header, ScopeSource route policy raw header ∧ ScopeNamed header) := by
  unfold ScopeTrusted ScopeSource
  split_ifs with hattached
  · have hexact : ScopeNamed (apiKeyIdName, policy.authenticatedKeyId) := by
      change toLowerAscii apiKeyIdName = apiKeyIdName
      decide
    constructor
    · rintro ⟨htrimmed, hall⟩
      refine ⟨?_, .inr ⟨_, .inl rfl, hexact⟩⟩
      rintro header (rfl | ⟨hother, hfirst⟩) hnamed
      · exact trimAscii_eq_self.mpr htrimmed
      · exact hall header hfirst hnamed hother
    · rintro ⟨hall, -⟩
      refine ⟨trimAscii_eq_self.mp (hall _ (.inl rfl) hexact), ?_⟩
      intro header hfirst hnamed hother
      exact hall header (.inr ⟨hother, hfirst⟩) hnamed
  · exact Iff.rfl

theorem scopeSource_unique {header other : Bytes × Bytes} (h : ScopeSource route policy raw header)
    (hother : ScopeSource route policy raw other) (hname : other.1 = header.1) : other = header := by
  have hfirst : FirstOf raw header → FirstOf raw other → other = header := by
    unfold FirstOf
    intro hfound hfound'
    rw [hname] at hfound'
    exact Option.some.inj (hfound'.symm.trans hfound)
  unfold ScopeSource at h hother
  split_ifs at h hother
  · obtain rfl | ⟨hne, hraw⟩ := h
    · obtain rfl | ⟨hne, -⟩ := hother
      · rfl
      · exact absurd hname hne
    · obtain rfl | ⟨-, hraw'⟩ := hother
      · exact absurd hname.symm hne
      · exact hfirst hraw hraw'
  · exact hfirst h hother

/-- The bridge uses the authenticated key id as its scope, whatever the order of the map, exactly when no header of
the client can stand for it with another text. -/
theorem bridge_scope_is_key_iff (env : RequestEnv) (route : ProxyRoute) (policy : ApiKeyModelPolicy)
    (raw : List (Bytes × Bytes)) :
    (∀ order scope, bridgeScope order env policy raw route = some scope → scope = policy.authenticatedKeyId) ↔
      (route.reachesBridge = true → ScopeTrusted route policy raw) := by
  constructor
  · intro hall hreaches
    rw [scopeTrusted_iff]
    constructor
    · intro header hsource hnamed
      have honly : ∀ other ∈ serviceHeaders (frontOrder header.1) env policy raw route,
          other.1 = header.1 → other = header := by
        intro other hother hname
        have hotherNamed : ScopeNamed other := by rwa [ScopeNamed, hname]
        exact scopeSource_unique hsource (hotherNamed.mem_serviceHeaders.mp hother) hname
      apply hall (frontOrder header.1)
      rw [bridgeScope, if_pos hreaches, bridgedHeaders,
        scope_frontOrder hnamed (hnamed.mem_serviceHeaders.mpr hsource) honly]
    · by_contra hnone
      obtain ⟨hkeyed, hnosource⟩ := not_or.mp hnone
      apply hkeyed
      -- With no header of that name in the map the scope is empty.
      have hempty : apiKeyScopeFromHeaders (bridgedHeaders .insertionOrder env policy raw route) = [] := by
        apply apiKeyScope_of_all _ (.inl rfl)
        intro header hmem hnamed
        exact absurd ⟨header, hnamed.mem_bridgedHeaders.mp hmem, hnamed⟩ hnosource
      exact (hall .insertionOrder [] (by rw [bridgeScope, if_pos hreaches, hempty])).symm
  · intro htrusted order scope hscope
    unfold bridgeScope at hscope
    split_ifs at hscope with hreaches
    obtain rfl := Option.some.inj hscope
    obtain ⟨hall, hsome⟩ := scopeTrusted_iff.mp (htrusted hreaches)
    apply apiKeyScope_of_all
    · intro header hmem hnamed
      exact hall header (hnamed.mem_bridgedHeaders.mp hmem) hnamed
    · refine hsome.imp id ?_
      rintro ⟨header, hsource, hnamed⟩
      exact ⟨header, hnamed.mem_bridgedHeaders.mpr hsource, hnamed⟩

theorem chat_completions_take_the_client_scope :
    bridgeScope .insertionOrder {} { keyId := some (ofString "key_1") } [(apiKeyIdName, ofString "key_2")]
      .chatCompletions = some (ofString "key_2") ∧
    bridgeScope .insertionOrder {} { keyId := some (ofString "key_1") } [] .chatCompletions = some [] := by
  decide +kernel

end Scope

end Tightrope.Server
