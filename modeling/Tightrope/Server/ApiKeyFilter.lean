import Tightrope.Core.Ascii
import Tightrope.Core.Json
import Tightrope.Proxy.Openai.PayloadText

namespace Tightrope.Server

open Bytes Tightrope.Core Proxy.Openai

structure ApiKeyModelPolicy where
  keyId : Option Bytes := none
  allowedModels : List Bytes := []
  enforcedModel : Option Bytes := none
  enforcedReasoningEffort : Option Bytes := none
  deriving DecidableEq

structure ApiKeyRequestPolicyDecision where
  allow : Bool := true
  status : ℕ := 200
  errorCode : Bytes := []
  errorMessage : Bytes := []
  errorType : Bytes := []
  errorBody : Bytes := []
  deriving DecidableEq

-- `has_value() && !empty()`
def nonempty? (text : Option Bytes) : Option Bytes := text.filter fun value => !value.isEmpty

def policyHasConstraints (policy : ApiKeyModelPolicy) : Bool :=
  !policy.allowedModels.isEmpty || (nonempty? policy.enforcedModel).isSome ||
    (nonempty? policy.enforcedReasoningEffort).isSome

def effectiveModel (policy : ApiKeyModelPolicy) (object : JsonObject) : Option Bytes :=
  (nonempty? policy.enforcedModel).or (object.string? (ofString "model"))

def modelNotAllowed (model : Bytes) : ApiKeyRequestPolicyDecision :=
  let errorCode := ofString "model_not_allowed"
  let errorMessage := ofString "This API key does not have access to model '" ++ model ++ ofString "'"
  let errorType := ofString "permission_error"
  { allow := false
    status := 403
    errorCode := errorCode
    errorMessage := errorMessage
    errorType := errorType
    errorBody := buildErrorEnvelope errorCode errorMessage errorType [] }

def requestedModelDecision (policy : ApiKeyModelPolicy) (object : JsonObject) : ApiKeyRequestPolicyDecision :=
  match nonempty? (effectiveModel policy object) with
  | none => {}
  | some model =>
    if policy.allowedModels.isEmpty || policy.allowedModels.contains model then {} else modelNotAllowed model

def setEffectiveModel (policy : ApiKeyModelPolicy) (object : JsonObject) : JsonObject :=
  match nonempty? (effectiveModel policy object) with
  | none => object
  | some model => object.set (ofString "model") (.string model)

def setReasoningEffort (policy : ApiKeyModelPolicy) (object : JsonObject) : JsonObject :=
  match nonempty? policy.enforcedReasoningEffort with
  | none => object
  | some effort =>
    let reasoning := ((object.find? (ofString "reasoning")).bind Json.object?).getD []
    object.set (ofString "reasoning") (.object (reasoning.set (ofString "effort") (.string effort)))

def filteredObject (lib : JsonLibrary) (requestBody : Bytes) : Option JsonObject :=
  if requestBody.isEmpty then none else lib.readObject requestBody

def rewrittenBody (lib : JsonLibrary) (policy : ApiKeyModelPolicy) (requestBody : Bytes) : Bytes :=
  match filteredObject lib requestBody with
  | none => requestBody
  | some object =>
    (lib.write (.object (setReasoningEffort policy (setEffectiveModel policy object)))).getD requestBody

def enforceApiKeyRequestPolicy (lib : JsonLibrary) (policy : ApiKeyModelPolicy) (requestBody : Bytes) :
    ApiKeyRequestPolicyDecision × Bytes :=
  if !policyHasConstraints policy then ({}, requestBody)
  else match filteredObject lib requestBody with
    | none => ({}, requestBody)
    | some object =>
      let decision := requestedModelDecision policy object
      if decision.allow then (decision, rewrittenBody lib policy requestBody) else (decision, requestBody)

def isProxyApiKeyProtectedPath (path : Bytes) : Bool :=
  if path = ofString "/v1" || startsWith path (ofString "/v1/") then true
  else if path = ofString "/backend-api/codex" || startsWith path (ofString "/backend-api/codex/") then true
  else path = ofString "/backend-api/transcribe"

end Tightrope.Server
