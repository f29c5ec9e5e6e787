import Tightrope.Proxy.Openai.NormalizedModel
import Tightrope.Proxy.RenderedRequests
import Tightrope.Server.ApiKeyFilter

namespace Tightrope.Server

open Bytes Tightrope.Core Proxy Proxy.Openai Fallible

def ReadsBack (lib : JsonLibrary) : Prop :=
  ∀ object text key, lib.write (.object object) = some text →
    lib.readString (sanitizeSerializedJson text) key = JsonObject.string? object key

inductive RequestTransport where
  | http
  | websocketText
  | websocketBinary
  deriving DecidableEq, Repr

section Upstream

variable (lib : JsonLibrary)

def websocketTextPayload (body : Bytes) : Normalized Bytes := do
  let prepared ← prepareWebsocketRequestPayload lib body
  match prepared.mode with
  | .passthrough => return prepared.body
  | .normalizeResponseCreate => websocketRequestBody lib prepared.body

def upstreamPayload : RequestTransport → Bytes → Option Bytes
  | .http, body => (normalizeRequest lib body).toOption
  | .websocketText, body => (websocketTextPayload lib body).toOption
  | .websocketBinary, body => some body

def requestedModel (text : Bytes) : Option Bytes := (requestObject lib text).toOption.bind (·.string? modelKey)

-- The model of a websocket message in which the object was found; what is no response.create goes out as it is.
def messageModel (found : Option JsonObject) (asItIs : Option Bytes) : Option Bytes :=
  match found.filter isResponseCreate with
  | none => asItIs
  | some object => ((mergedRequest object).mapStrings (repairedString escapedByte)).asMap.string? modelKey

-- The model that the sender finds in a body.
def foundModel : RequestTransport → Bytes → Option Bytes
  | .http, body => requestedModel lib body
  | .websocketText, body => messageModel (websocketObject lib body) (lib.readString body modelKey)
  | .websocketBinary, body => lib.readString body modelKey

end Upstream

def ApiKeyModelPolicy.ConstrainsModel (policy : ApiKeyModelPolicy) : Prop :=
  policy.allowedModels ≠ [] ∨ (nonempty? policy.enforcedModel).isSome

def ApiKeyModelPolicy.Conforms (policy : ApiKeyModelPolicy) (model : Option Bytes) : Prop :=
  match nonempty? policy.enforcedModel with
  | some enforced => model = some enforced
  | none => ∃ allowed ∈ policy.allowedModels, model = some allowed

def PolicyHolds (lib : JsonLibrary) (transport : RequestTransport) (policy : ApiKeyModelPolicy) (body : Bytes) : Prop :=
  (enforceApiKeyRequestPolicy lib policy body).1.allow = true →
    ∀ payload, upstreamPayload lib transport (enforceApiKeyRequestPolicy lib policy body).2 = some payload →
      policy.Conforms (lib.readString payload modelKey)

-- The fields of the text that the filter writes.
def filteredFields (policy : ApiKeyModelPolicy) (object : JsonObject) : JsonObject :=
  setReasoningEffort policy (setEffectiveModel policy object)

section Rewritten

variable (lib : JsonLibrary) (number : UInt64 → Bytes)

def writtenModel (fields : JsonObject) : Option Bytes := (acceptedObject lib number fields).bind (·.string? modelKey)

def messageObject (fields : JsonObject) : Option JsonObject :=
  (acceptedObject lib number (fields.mapStrings stripInvalidUtf8Bytes)).or
    (acceptedObject lib number (fields.mapStrings (repairedString writtenByte)))

/-- The model that goes upstream for fields that the filter has written. Over HTTP the strings lose what a repair of
their text takes out. A websocket text is taken in the first of two forms that the reader accepts, with its invalid
bytes stripped or with its strings repaired too. Only a text with a NUL byte may be taken for UTF-16, and then its
model is found in the bytes. -/
def sentModel : RequestTransport → JsonObject → Option Bytes
  | .http, fields => (fields.mapStrings (repairedString writtenByte)).asMap.string? modelKey
  | .websocketText, fields =>
    if 0 ∈ renderObject number fields then foundModel lib .websocketText (renderObject number fields)
    else messageModel (messageObject lib number fields) (writtenModel lib number fields)
  | .websocketBinary, fields => writtenModel lib number fields

/-- The model that the policy asks for is kept: of a body that goes on as it came, in what the sender finds there; of
an object that the filter has rewritten, in the strings of its fields. -/
def ModelKept (transport : RequestTransport) (policy : ApiKeyModelPolicy) (body : Bytes) : Prop :=
  match (filteredObject lib body).filter fun object =>
      (lib.write (.object (filteredFields policy object))).isSome with
  | none => policy.Conforms (foundModel lib transport body)
  | some object => policy.Conforms (sentModel lib number transport (filteredFields policy object))

end Rewritten

section Filter

variable {lib : JsonLibrary} {policy : ApiKeyModelPolicy} {body : Bytes}

theorem policyHasConstraints_of_constrainsModel (h : policy.ConstrainsModel) : policyHasConstraints policy = true := by
  unfold policyHasConstraints
  obtain hallowed | henforced := h
  · simp [hallowed]
  · simp [henforced]

theorem enforce_body (h : policy.ConstrainsModel)
    (hallow : (enforceApiKeyRequestPolicy lib policy body).1.allow = true) :
    (enforceApiKeyRequestPolicy lib policy body).2 = rewrittenBody lib policy body := by
  rw [enforceApiKeyRequestPolicy, policyHasConstraints_of_constrainsModel h] at hallow ⊢
  cases hobject : filteredObject lib body with
  | none => simp [rewrittenBody, hobject]
  | some object =>
    simp only [hobject, Bool.not_true, Bool.false_eq_true, if_false] at hallow ⊢
    split at hallow
    · next hpass => rw [if_pos hpass]
    · next hdeny => exact absurd hallow hdeny

theorem rewrittenBody_of_read {object : JsonObject} (h : filteredObject lib body = some object) :
    rewrittenBody lib policy body = (lib.write (.object (filteredFields policy object))).getD body := by
  simp only [rewrittenBody, h, filteredFields]

end Filter

section Carried

variable {lib : JsonLibrary} {body payload : Bytes}

theorem readString_serializeNormalized (hlib : ReadsBack lib) {object : JsonObject}
    (h : serializeNormalized lib object = .ok payload) (key : Bytes) :
    lib.readString payload key = object.string? key := by
  unfold serializeNormalized at h
  split at h
  · cases h
  · next text hwrite =>
    cases h
    exact hlib object text key hwrite

theorem readString_normalizeRequest (hlib : ReadsBack lib) (h : normalizeRequest lib body = .ok payload) :
    lib.readString payload modelKey = requestedModel lib body := by
  obtain ⟨object, hobject, h⟩ := bind_eq_ok.mp h
  obtain ⟨normalized, hnormalized, h⟩ := bind_eq_ok.mp h
  rw [readString_serializeNormalized hlib h, (normalizeFields_ok hnormalized).2.string?, requestedModel, hobject]
  rfl

theorem readString_buildWebsocketResponseCreatePayloadJson (hlib : ReadsBack lib) {normalized : Bytes}
    (h : buildWebsocketResponseCreatePayloadJson lib normalized = .ok payload) :
    lib.readString payload modelKey = lib.readString normalized modelKey := by
  unfold buildWebsocketResponseCreatePayloadJson at h
  split at h
  · cases h
  · next object hread =>
    split at h
    · cases h
    · next text hwrite =>
      cases h
      have hkey : modelKey ≠ ofString "type" := by decide
      rw [hlib _ text modelKey hwrite, (sameModel_set hkey _).string?, JsonLibrary.readString, JsonLibrary.readObject,
        hread]
      rfl
  · cases h

theorem requestedModel_ok {object : JsonObject} (h : requestObject lib body = .ok object) :
    requestedModel lib body = object.string? modelKey := by
  rw [requestedModel, h]
  rfl

theorem readString_websocketTextPayload {number : UInt64 → Bytes} (hlib : RendersJson lib number)
    (hback : ReadsBack lib) (h : websocketTextPayload lib body = .ok payload) :
    lib.readString payload modelKey = foundModel lib .websocketText body := by
  obtain ⟨prepared, hprepared, h⟩ := bind_eq_ok.mp h
  unfold prepareWebsocketRequestPayload responseCreateRequest at hprepared
  rw [foundModel, messageModel]
  cases hfound : (websocketObject lib body).filter isResponseCreate with
  | none =>
    rw [hfound] at hprepared
    cases hprepared
    cases h
    rfl
  | some object =>
    simp only [hfound, Option.map_some] at hprepared
    cases hcreate : responseCreateBody lib (mergedRequest object) with
    | error text =>
      rw [hcreate] at hprepared
      cases hprepared
    | ok text =>
      rw [hcreate] at hprepared
      cases hprepared
      obtain ⟨request, hnormalize, h⟩ := bind_eq_ok.mp h
      obtain ⟨normalized, hnormalized, -⟩ := bind_eq_ok.mp hnormalize
      rw [readString_buildWebsocketResponseCreatePayloadJson hback h, readString_normalizeRequest hback hnormalize,
        requestedModel_ok hnormalized, requestObject_responseCreateBody hlib hcreate hnormalized]

theorem toOption_eq_some {α : Type} {x : Normalized α} {a : α} (h : x.toOption = some a) : x = .ok a := by
  cases x with
  | error text => cases h
  | ok b => exact congrArg Except.ok (Option.some.inj h)

theorem readString_upstreamPayload {number : UInt64 → Bytes} (hlib : RendersJson lib number) (hback : ReadsBack lib)
    {transport : RequestTransport} (h : upstreamPayload lib transport body = some payload) :
    lib.readString payload modelKey = foundModel lib transport body := by
  cases transport with
  | http => exact readString_normalizeRequest hback (toOption_eq_some h)
  | websocketText => exact readString_websocketTextPayload hlib hback (toOption_eq_some h)
  | websocketBinary =>
    cases h
    rfl

end Carried

section Kept

variable {lib : JsonLibrary} {number : UInt64 → Bytes} {policy : ApiKeyModelPolicy} {transport : RequestTransport}
  {fields : JsonObject} {body payload : Bytes}

theorem readString_rendered (hlib : RendersJson lib number) (fields : JsonObject) :
    lib.readString (renderObject number fields) modelKey = writtenModel lib number fields := by
  rw [JsonLibrary.readString, readObject_rendered hlib, writtenModel]

theorem foundModel_rendered (hlib : RendersJson lib number)
    (h : upstreamPayload lib transport (renderObject number fields) = some payload) :
    foundModel lib transport (renderObject number fields) = sentModel lib number transport fields := by
  cases transport with
  | http =>
    obtain ⟨object, hobject, -⟩ := bind_eq_ok.mp (toOption_eq_some h)
    rw [foundModel, requestedModel_ok hobject, sentModel,
      requestObject_rendered isEscapeTable_writtenByte hlib.numbers hlib.read hobject]
  | websocketText =>
    rw [sentModel]
    split_ifs with hzero
    · rfl
    · rw [foundModel, websocketObject_rendered hlib hzero, readString_rendered hlib, messageObject]
  | websocketBinary => exact readString_rendered hlib fields

end Kept

section Samples

theorem readsBack_renderingLibrary : ReadsBack renderingLibrary := by
  intro object text key hwrite
  rw [JsonLibrary.readString, JsonLibrary.readObject, renderingLibrary_readsBack hwrite]
  rfl

def requestFor (model : String) : JsonObject := fieldsJson [("input", textJson "i"), ("model", textJson model)]

def prefixedRequestText : Bytes := 120 :: rendered (.object (requestFor "b"))

def nestedRequestText : Bytes :=
  rendered (.object (fieldsJson [("model", textJson "a"), ("response", .object (requestFor "b")),
    ("type", textJson "response.create")]))

def allowsOnlyA : ApiKeyModelPolicy := { allowedModels := [ofString "a"] }

theorem not_policyHolds_of_sent {body : Bytes} {transport : RequestTransport}
    (hallow : (enforceApiKeyRequestPolicy renderingLibrary allowsOnlyA body).1.allow = true)
    (hsent : (upstreamPayload renderingLibrary transport
      (enforceApiKeyRequestPolicy renderingLibrary allowsOnlyA body).2).any
        (fun payload => renderingLibrary.readString payload modelKey = some (ofString "b")) = true) :
    ¬ PolicyHolds renderingLibrary transport allowsOnlyA body := by
  intro hholds
  obtain ⟨payload, hpayload, hmodel⟩ := (Option.any_eq_true _ _).mp hsent
  obtain ⟨allowed, hallowed, hcarried⟩ := hholds hallow payload hpayload
  rw [of_decide_eq_true hmodel, List.mem_singleton.mp hallowed] at hcarried
  exact absurd hcarried (by decide)

theorem filteredObject_requestForA : ((filteredObject renderingLibrary (rendered (.object (requestFor "a")))).filter
    fun object => (renderingLibrary.write (.object (filteredFields allowsOnlyA object))).isSome) =
      some (requestFor "a") := by
  decide +kernel

theorem modelKept_requestForA (transport : RequestTransport) :
    ModelKept renderingLibrary numberText transport allowsOnlyA (rendered (.object (requestFor "a"))) := by
  have hmodel : sentModel renderingLibrary numberText transport (filteredFields allowsOnlyA (requestFor "a")) =
      some (ofString "a") := by cases transport <;> decide +kernel
  rw [ModelKept, filteredObject_requestForA]
  exact ⟨ofString "a", List.mem_singleton_self _, hmodel⟩

end Samples

end Tightrope.Server
