import Tightrope.Proxy.Headers

namespace Tightrope.Proxy.Openai

open Bytes Tightrope.Core

def ignoredInboundHeaders : List Bytes :=
  [ofString "authorization", ofString "chatgpt-account-id", ofString "content-encoding", ofString "content-length",
    ofString "host", ofString "forwarded", ofString "x-real-ip", ofString "true-client-ip", ofString "x-forwarded-for"]

def hopByHopHeaderNames : List Bytes :=
  [ofString "accept", ofString "connection", ofString "content-type", ofString "keep-alive",
    ofString "proxy-authenticate", ofString "proxy-authorization", ofString "proxy-connection", ofString "te",
    ofString "trailer", ofString "transfer-encoding", ofString "upgrade"]

def responsesWebsocketBetaToken : Bytes := ofString "responses_websockets=2026-02-06"

def betaName : Bytes := ofString "openai-beta"

def tightropeStart : Bytes := ofString "x-tightrope-"

def comma : UInt8 := 44

def shouldDropInboundHeader (name : Bytes) : Bool :=
  ignoredInboundHeaders.contains (toLowerAscii name) || startsWith (toLowerAscii name) (ofString "x-forwarded-") ||
    startsWith (toLowerAscii name) (ofString "cf-") || startsWith (toLowerAscii name) tightropeStart

def splitCsvTokens (value : Bytes) : List Bytes := ((value.splitOn comma).map trimAscii).filter (· ≠ [])

def connectionTokens (inbound : HeaderMap) : List Bytes :=
  (inbound.filter fun header => toLowerAscii header.1 = ofString "connection").flatMap
    fun header => (splitCsvTokens header.2).map toLowerAscii

def forwardable (inbound : HeaderMap) (name : Bytes) : Bool :=
  !(connectionTokens inbound ++ hopByHopHeaderNames).contains (toLowerAscii name) && !shouldDropInboundHeader name

def joinTokens (tokens : List Bytes) : Bytes := (ofString ", ").intercalate tokens

def gatherBeta (held : Bytes × Bytes) : HeaderMap → HeaderMap × (Bytes × Bytes)
  | [] => ([], held)
  | header :: headers =>
    if toLowerAscii header.1 ≠ betaName then
      ((header :: (gatherBeta held headers).1), (gatherBeta held headers).2)
    else if held.2 = [] then
      ((header :: (gatherBeta header headers).1), (gatherBeta header headers).2)
    else gatherBeta held headers

def withBetaToken (tokens : List Bytes) : List Bytes :=
  if tokens.any fun token => equalsCaseInsensitive token responsesWebsocketBetaToken then tokens
  else tokens ++ [responsesWebsocketBetaToken]

section Build

variable (order : IterationOrder)

def ensureResponsesWebsocketBetaHeader (headers : HeaderMap) : HeaderMap :=
  order.assign (gatherBeta (betaName, []) headers).1 (gatherBeta (betaName, []) headers).2.1
    (joinTokens (withBetaToken (splitCsvTokens (gatherBeta (betaName, []) headers).2.2)))

def filterInboundHeaders (headers : HeaderMap) : HeaderMap :=
  order.arrange (headers.filter fun header => !shouldDropInboundHeader header.1)

def eraseCaseInsensitive (headers : HeaderMap) (nameLower : Bytes) : HeaderMap :=
  headers.filter fun header => toLowerAscii header.1 ≠ nameLower

def addRequestId (headers : HeaderMap) (requestId : Bytes) : HeaderMap :=
  if !headers.hasKeyCaseInsensitive (ofString "x-request-id") && !headers.hasKeyCaseInsensitive (ofString "request-id")
      && requestId ≠ [] then
    order.assign headers (ofString "x-request-id") requestId
  else headers

def addAccountId (headers : HeaderMap) (accountId : Bytes) : HeaderMap :=
  if accountId ≠ [] then order.assign headers accountIdName accountId else headers

def forwardedHeaders (inbound : HeaderMap) : HeaderMap :=
  eraseCaseInsensitive (order.arrange (inbound.filter fun header => forwardable inbound header.1)) (ofString "cookie")

def buildUpstreamWebsocketHeaders (inbound : HeaderMap) (accessToken accountId requestId : Bytes) : HeaderMap :=
  ensureResponsesWebsocketBetaHeader order
    (addAccountId order
      (order.assign (addRequestId order (forwardedHeaders order inbound) requestId) (ofString "Authorization")
        (ofString "Bearer " ++ accessToken))
      accountId)

def plainHeaders (inbound : HeaderMap) : HeaderMap :=
  eraseCaseInsensitive
    (eraseCaseInsensitive
      (eraseCaseInsensitive (order.arrange (inbound.filter fun header => forwardable inbound header.1))
        (ofString "authorization"))
      accountIdName)
    (ofString "cookie")

def buildUpstreamHeaders (inbound : HeaderMap) (accessToken accountId accept requestId : Bytes) : HeaderMap :=
  let headers := addRequestId order (plainHeaders order inbound) requestId
  let headers := order.assign headers (ofString "Authorization") (ofString "Bearer " ++ accessToken)
  let headers := order.assign headers (ofString "Accept") accept
  let headers := order.assign headers (ofString "Content-Type") (ofString "application/json")
  addAccountId order headers accountId

def transcribeHeader (name : Bytes) : Bool :=
  toLowerAscii name = ofString "user-agent" || startsWith (toLowerAscii name) (ofString "x-openai-") ||
    startsWith (toLowerAscii name) (ofString "x-codex-")

def copyTranscribeHeader (headers : HeaderMap) (header : Bytes × Bytes) : HeaderMap :=
  if transcribeHeader header.1 then order.assign headers header.1 header.2 else headers

def buildUpstreamTranscribeHeaders (inbound : HeaderMap) (accessToken accountId : Bytes) : HeaderMap :=
  inbound.foldl (copyTranscribeHeader order)
    (addAccountId order (order.assign [] (ofString "Authorization") (ofString "Bearer " ++ accessToken)) accountId)

end Build

section Names

variable {order : IterationOrder} {headers inbound : HeaderMap} {header held : Bytes × Bytes}

theorem mem_gatherBeta (h : header ∈ (gatherBeta held headers).1) : header ∈ headers := by
  induction headers generalizing held with
  | nil => exact h
  | cons first headers ih =>
    rw [gatherBeta] at h
    split_ifs at h
    · obtain rfl | hmem := List.mem_cons.mp h
      · exact List.mem_cons_self
      · exact List.mem_cons_of_mem _ (ih hmem)
    · obtain rfl | hmem := List.mem_cons.mp h
      · exact List.mem_cons_self
      · exact List.mem_cons_of_mem _ (ih hmem)
    · exact List.mem_cons_of_mem _ (ih h)

theorem lower_gatherBeta (hheld : toLowerAscii held.1 = betaName) :
    toLowerAscii (gatherBeta held headers).2.1 = betaName := by
  induction headers generalizing held with
  | nil => exact hheld
  | cons first headers ih =>
    rw [gatherBeta]
    split_ifs with hname hempty
    · exact ih hheld
    · exact ih (not_not.mp hname)
    · exact ih hheld

def Lacks (headers : HeaderMap) (nameLower : Bytes) : Prop :=
  ∀ header ∈ headers, toLowerAscii header.1 ≠ nameLower

theorem Lacks.assign {nameLower name value : Bytes} (h : Lacks headers nameLower)
    (hname : toLowerAscii name ≠ nameLower) : Lacks (order.assign headers name value) nameLower := by
  intro header hmem
  obtain rfl | hold := IterationOrder.mem_assign hmem
  · exact hname
  · exact h header hold

theorem Lacks.ensureBeta {nameLower : Bytes} (h : Lacks headers nameLower) (hbeta : betaName ≠ nameLower) :
    Lacks (ensureResponsesWebsocketBetaHeader order headers) nameLower := by
  have hgathered : Lacks (gatherBeta (betaName, []) headers).1 nameLower :=
    fun header hmem => h header (mem_gatherBeta hmem)
  apply hgathered.assign
  rw [lower_gatherBeta (by decide)]
  exact hbeta

def NotAdded (nameLower : Bytes) : Prop :=
  betaName ≠ nameLower ∧ ofString "x-request-id" ≠ nameLower ∧ ofString "authorization" ≠ nameLower ∧
    accountIdName ≠ nameLower

instance : DecidablePred NotAdded := fun _ => inferInstanceAs (Decidable (_ ∧ _))

theorem Lacks.buildUpstreamWebsocketHeaders {nameLower token account requestId : Bytes} (h : Lacks inbound nameLower)
    (hadded : NotAdded nameLower) :
    Lacks (buildUpstreamWebsocketHeaders order inbound token account requestId) nameLower := by
  obtain ⟨hbeta, hrequestId, hauthorization, haccount⟩ := hadded
  have hforwarded : Lacks (forwardedHeaders order inbound) nameLower := by
    intro header hmem
    have harranged := IterationOrder.mem_arrange.mp (List.mem_filter.mp hmem).1
    exact h header (List.mem_filter.mp harranged).1
  have hrequest : Lacks (addRequestId order (forwardedHeaders order inbound) requestId) nameLower := by
    unfold addRequestId
    split_ifs
    · apply hforwarded.assign
      rwa [show toLowerAscii (ofString "x-request-id") = ofString "x-request-id" by decide]
    · exact hforwarded
  apply Lacks.ensureBeta _ hbeta
  unfold addAccountId
  split_ifs
  · apply Lacks.assign _ (by rwa [show toLowerAscii accountIdName = accountIdName by decide])
    apply hrequest.assign
    rwa [show toLowerAscii (ofString "Authorization") = ofString "authorization" by decide]
  · apply hrequest.assign
    rwa [show toLowerAscii (ofString "Authorization") = ofString "authorization" by decide]

theorem lacks_filterInboundHeaders {nameLower : Bytes}
    (hdropped : ∀ name, toLowerAscii name = nameLower → shouldDropInboundHeader name = true) :
    Lacks (filterInboundHeaders order headers) nameLower := by
  intro header hmem hname
  have hkept := (List.mem_filter.mp (IterationOrder.mem_arrange.mp hmem)).2
  rw [hdropped header.1 hname] at hkept
  cases hkept

theorem Lacks.find_eq_nil {name : Bytes} (h : Lacks headers (toLowerAscii name)) :
    headers.findCaseInsensitive name = [] := by
  apply HeaderMap.findCaseInsensitive_eq_nil
  intro header hmem
  rw [Bool.eq_false_iff, ne_eq, equalsCaseInsensitive_iff]
  exact h header hmem

end Names

end Tightrope.Proxy.Openai
