import Tightrope.Core.Json
import Tightrope.Proxy.Headers

namespace Tightrope.Proxy

open Bytes Tightrope.Core

structure UpstreamExecutionResult where
  status : ℤ := 500
  body : Bytes := []
  events : List Bytes := []
  headers : HeaderMap := []
  accepted : Bool := false
  closeCode : ℤ := 1000
  errorCode : Bytes := []
  deriving DecidableEq

structure UpstreamErrorDetails where
  code : Bytes := []
  message : Bytes := []
  type : Bytes := []
  param : Bytes := []
  deriving DecidableEq

section Details

def mapCodeAlias (code : Bytes) : Bytes :=
  if code = ofString "upstream_transport_failed" || code = ofString "upstream_transport_init_failed" then
    ofString "upstream_unavailable"
  else if code = ofString "upstream_transport_timeout" then ofString "upstream_request_timeout"
  else code

def normalizeUpstreamErrorCode (code errorType : Bytes) : Bytes :=
  if code ≠ [] then mapCodeAlias (toLowerAscii code)
  else if errorType ≠ [] then mapCodeAlias (toLowerAscii errorType)
  else ofString "upstream_error"

def detailsFromErrorObject (errorObject : JsonObject) : UpstreamErrorDetails :=
  let code := ((errorObject.string? (ofString "code")).map fun code => normalizeUpstreamErrorCode code []).getD []
  let type := errorObject.string? (ofString "type")
  { code := if code = [] then (type.map fun type => normalizeUpstreamErrorCode [] type).getD [] else code
    message := (errorObject.string? (ofString "message")).getD []
    type := type.getD []
    param := (errorObject.string? (ofString "param")).getD [] }

def mergeErrorDetails (base overlay : UpstreamErrorDetails) : UpstreamErrorDetails where
  code := if base.code = [] then overlay.code else base.code
  message := if base.message = [] then overlay.message else base.message
  type := if base.type = [] then overlay.type else base.type
  param := if base.param = [] then overlay.param else base.param

def objectField (object : JsonObject) (key : Bytes) : Option JsonObject := (object.find? key).bind Json.object?

def ownError (object : JsonObject) : Option JsonObject := objectField object (ofString "error")

def responseError (object : JsonObject) : Option JsonObject :=
  (objectField object (ofString "response")).bind ownError

def errorObjectOf (object : JsonObject) : Option JsonObject :=
  let type := object.string? (ofString "type")
  let ofEvent :=
    if type = some (ofString "error") then ownError object
    else if type = some (ofString "response.failed") then (ownError object).or (responseError object)
    else none
  ofEvent.or ((ownError object).or (responseError object))

variable (lib : JsonLibrary)

def extractErrorDetailsFromPayload (payload : Bytes) : Option UpstreamErrorDetails :=
  ((lib.readObject payload).bind errorObjectOf).map detailsFromErrorObject

def mergePayload (details : UpstreamErrorDetails) (payload : Bytes) : UpstreamErrorDetails :=
  match extractErrorDetailsFromPayload lib payload with
  | none => details
  | some overlay => mergeErrorDetails details overlay

def mergeEvents (details : UpstreamErrorDetails) : List Bytes → UpstreamErrorDetails
  | [] => details
  | event :: events =>
    let merged := mergePayload lib details event
    if merged.code ≠ [] ∧ merged.message ≠ [] ∧ merged.type ≠ [] then merged else mergeEvents merged events

def extractUpstreamErrorDetails (upstream : UpstreamExecutionResult) : UpstreamErrorDetails :=
  let own : UpstreamErrorDetails :=
    { code := if upstream.errorCode = [] then [] else normalizeUpstreamErrorCode upstream.errorCode [] }
  let withBody := if upstream.body = [] then own else mergePayload lib own upstream.body
  let details := mergeEvents lib withBody upstream.events
  let code := if details.code = [] then ofString "upstream_error" else details.code
  { details with
    code
    type :=
      if details.type = [] then
        if code = ofString "upstream_request_timeout" then ofString "timeout_error" else ofString "server_error"
      else details.type }

def resolvedUpstreamErrorCode (upstream : UpstreamExecutionResult) : Bytes :=
  (extractUpstreamErrorDetails lib upstream).code

def extractErrorCodeFromStreamEvents : List Bytes → Bytes
  | [] => []
  | event :: events =>
    match extractErrorDetailsFromPayload lib event with
    | none => extractErrorCodeFromStreamEvents events
    | some details => if details.code = [] then extractErrorCodeFromStreamEvents events else details.code

end Details
section Exhaustion

inductive ExhaustedStatus where
  | quotaBlocked
  | rateLimited
  deriving DecidableEq

def quotaMarkers : List Bytes :=
  ["quota", "insufficient_quota", "quota_exceeded", "usage limit", "credits", "billing", "hard limit"].map ofString

def rateLimitMarkers : List Bytes :=
  ["rate limit", "rate_limited", "rate_limit_exceeded", "too many requests"].map ofString

def containsMarker (markers : List Bytes) (value : Bytes) : Bool :=
  value ≠ [] && markers.any fun marker => containsText (toLowerAscii value) marker

def containsQuotaMarker (value : Bytes) : Bool := containsMarker quotaMarkers value

def containsRateLimitMarker (value : Bytes) : Bool := containsMarker rateLimitMarkers value

def anyHeaderMatches (headers : HeaderMap) (predicate : Bytes → Bool) : Bool :=
  headers.any fun header => predicate header.1 || predicate header.2

def quotaCodes : List Bytes :=
  ["insufficient_quota", "quota_exceeded", "credits_exhausted", "billing_hard_limit_reached",
    "billing_not_active"].map ofString

def rateLimitCodes : List Bytes := ["rate_limit_exceeded", "rate_limited", "too_many_requests"].map ofString

def rateLimitTypes : List Bytes := ["rate_limit_exceeded", "rate_limited"].map ofString

variable (lib : JsonLibrary)

def exhaustedAccountStatusFromUpstream (upstream : UpstreamExecutionResult) : Option ExhaustedStatus :=
  let details := extractUpstreamErrorDetails lib upstream
  let code := toLowerAscii details.code
  let type := toLowerAscii details.type
  let failedResponse : Bool := 400 ≤ upstream.status
  if quotaCodes.contains code then some .quotaBlocked
  else if failedResponse && (containsQuotaMarker details.message || containsQuotaMarker upstream.body ||
      upstream.events.any containsQuotaMarker || anyHeaderMatches upstream.headers containsQuotaMarker) then
    some .quotaBlocked
  else if rateLimitCodes.contains code then some .rateLimited
  else if rateLimitTypes.contains type then some .rateLimited
  else if failedResponse && (containsRateLimitMarker details.message || containsRateLimitMarker upstream.body ||
      upstream.events.any containsRateLimitMarker || anyHeaderMatches upstream.headers containsRateLimitMarker) then
    some .rateLimited
  else if upstream.status = 429 then some .rateLimited
  else none

end Exhaustion

section Retries

variable (lib : JsonLibrary)

def shouldRetryStreamResult (upstream : UpstreamExecutionResult) : Bool :=
  if (exhaustedAccountStatusFromUpstream lib upstream).isSome then false
  else if 400 ≤ upstream.status then
    upstream.status = 500 || normalizeUpstreamErrorCode upstream.errorCode [] = ofString "server_error"
  else extractErrorCodeFromStreamEvents lib upstream.events = ofString "server_error"

def incompleteCodes : List Bytes := ["stream_incomplete", "upstream_incomplete"].map ofString

def shouldRetryStreamResultWithIncomplete (upstream : UpstreamExecutionResult) : Bool :=
  if shouldRetryStreamResult lib upstream then true
  else incompleteCodes.contains (normalizeUpstreamErrorCode (resolvedUpstreamErrorCode lib upstream) [])

def shouldRetryCompactResult (upstream : UpstreamExecutionResult) : Bool :=
  if (exhaustedAccountStatusFromUpstream lib upstream).isSome then false
  else if upstream.status < 400 then false
  else upstream.status = 401 || upstream.status = 500 || upstream.status = 502 || upstream.status = 503 ||
    upstream.status = 504

inductive RetryPredicate where
  | streamResult
  | streamResultWithIncomplete
  | compactResult
  deriving DecidableEq

def RetryPredicate.shouldRetry : RetryPredicate → UpstreamExecutionResult → Bool
  | .streamResult => shouldRetryStreamResult lib
  | .streamResultWithIncomplete => shouldRetryStreamResultWithIncomplete lib
  | .compactResult => shouldRetryCompactResult lib

def resolvedResult (upstream : UpstreamExecutionResult) : UpstreamExecutionResult :=
  let resolved := { upstream with errorCode := resolvedUpstreamErrorCode lib upstream }
  match exhaustedAccountStatusFromUpstream lib resolved with
  | none => resolved
  | some exhausted =>
    if resolved.errorCode = [] ∨ resolved.errorCode = ofString "upstream_error" then
      { resolved with
        errorCode :=
          if exhausted = .quotaBlocked then ofString "insufficient_quota" else ofString "rate_limit_exceeded" }
    else resolved

variable (shouldRetry : UpstreamExecutionResult → Bool) (upstreams : ℕ → UpstreamExecutionResult)

def retryLoop (attempt : ℕ) : ℕ → UpstreamExecutionResult × ℕ
  | 0 => (resolvedResult lib (upstreams attempt), attempt + 1)
  | left + 1 =>
    let upstream := resolvedResult lib (upstreams attempt)
    if shouldRetry upstream then retryLoop (attempt + 1) left else (upstream, attempt + 1)

def executeUpstreamWithRetryBudget (retryBudget : ℤ) : UpstreamExecutionResult × ℕ :=
  retryLoop lib shouldRetry upstreams 0 retryBudget.toNat

end Retries

end Tightrope.Proxy
