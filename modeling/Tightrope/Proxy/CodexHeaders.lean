import Tightrope.Proxy.ErrorPolicy

namespace Tightrope.Proxy

open Bytes Tightrope.Core

section Evidence

def isCodexHeader (header : Bytes × Bytes) : Bool := startsWith (toLowerAscii header.1) (ofString "x-codex-")

def codexHeaders (headers : HeaderMap) : HeaderMap := headers.filter isCodexHeader

def otherHeaders (headers : HeaderMap) : HeaderMap := headers.filter fun header => !isCodexHeader header

variable (lib : JsonLibrary) (upstream : UpstreamExecutionResult)

def failed : Bool := 400 ≤ upstream.status

def markedApart (marker : Bytes → Bool) : Bool :=
  marker (extractUpstreamErrorDetails lib upstream).message || marker upstream.body || upstream.events.any marker ||
    anyHeaderMatches (otherHeaders upstream.headers) marker

def quotaKnown : Bool :=
  quotaCodes.contains (toLowerAscii (extractUpstreamErrorDetails lib upstream).code) ||
    failed upstream && markedApart lib upstream containsQuotaMarker

def rateLimitKnown : Bool :=
  rateLimitCodes.contains (toLowerAscii (extractUpstreamErrorDetails lib upstream).code) ||
    rateLimitTypes.contains (toLowerAscii (extractUpstreamErrorDetails lib upstream).type) ||
    failed upstream && markedApart lib upstream containsRateLimitMarker || decide (upstream.status = 429)

def codexMarked (marker : Bytes → Bool) : Bool := anyHeaderMatches (codexHeaders upstream.headers) marker

def verdict (quotaKnown rateLimitKnown failed quotaMarked rateLimitMarked : Bool) : Option ExhaustedStatus :=
  if quotaKnown || failed && quotaMarked then some .quotaBlocked
  else if rateLimitKnown || failed && rateLimitMarked then some .rateLimited
  else none

theorem anyHeaderMatches_split (headers : HeaderMap) (marker : Bytes → Bool) :
    anyHeaderMatches headers marker =
      (anyHeaderMatches (otherHeaders headers) marker || anyHeaderMatches (codexHeaders headers) marker) := by
  unfold anyHeaderMatches otherHeaders codexHeaders
  induction headers with
  | nil => rfl
  | cons header headers ih =>
    rw [List.any_cons, ih]
    cases hcodex : isCodexHeader header with
    | false =>
      rw [List.filter_cons_of_pos (by simp [hcodex]), List.filter_cons_of_neg (by simp [hcodex]), List.any_cons,
        Bool.or_assoc (_ || _)]
    | true =>
      rw [List.filter_cons_of_neg (by simp [hcodex]), List.filter_cons_of_pos (by simp [hcodex]), List.any_cons,
        Bool.or_left_comm]

theorem exhausted_eq : exhaustedAccountStatusFromUpstream lib upstream =
    verdict (quotaKnown lib upstream) (rateLimitKnown lib upstream) (failed upstream)
      (codexMarked upstream containsQuotaMarker) (codexMarked upstream containsRateLimitMarker) := by
  have hcascade : ∀ (quotaCode failed quota codexQuota code type rate codexRate tooMany : Bool),
      (if quotaCode then some ExhaustedStatus.quotaBlocked
        else if failed && (quota || codexQuota) then some .quotaBlocked
        else if code then some .rateLimited
        else if type then some .rateLimited
        else if failed && (rate || codexRate) then some .rateLimited
        else if tooMany then some .rateLimited
        else none) =
        verdict (quotaCode || failed && quota) (code || type || failed && rate || tooMany) failed codexQuota
          codexRate := by
    decide
  unfold exhaustedAccountStatusFromUpstream
  dsimp only
  rw [anyHeaderMatches_split upstream.headers containsQuotaMarker,
    anyHeaderMatches_split upstream.headers containsRateLimitMarker, ← Bool.or_assoc, ← Bool.or_assoc]
  have htooMany : (if upstream.status = 429 then some ExhaustedStatus.rateLimited else none) =
      if decide (upstream.status = 429) = true then some .rateLimited else none := by
    simp only [decide_eq_true_eq]
  rw [htooMany]
  exact hcascade _ _ _ _ _ _ _ _ _

end Evidence

section Noninterference

variable (lib : JsonLibrary)

/-- The results agree but for their `x-codex-` headers. -/
structure AgreeButCodex (a b : UpstreamExecutionResult) : Prop where
  status : a.status = b.status
  errorCode : a.errorCode = b.errorCode
  body : a.body = b.body
  events : a.events = b.events
  headers : ∀ header, header ∈ otherHeaders a.headers ↔ header ∈ otherHeaders b.headers

/-- Either the verdict does not come to the `x-codex-` headers, or both sets of them carry the same kinds of markers as
far as it does. -/
def SpeakAlike (a b : UpstreamExecutionResult) : Prop :=
  failed a = false ∨ quotaKnown lib a = true ∨
    codexMarked a containsQuotaMarker = codexMarked b containsQuotaMarker ∧
      (codexMarked a containsQuotaMarker = true ∨ rateLimitKnown lib a = true ∨
        codexMarked a containsRateLimitMarker = codexMarked b containsRateLimitMarker)

/-- A failed response that carries no marker and is no 429, its `x-codex-` headers apart. -/
structure Unmarked (upstream : UpstreamExecutionResult) : Prop where
  failed : failed upstream = true
  quota : quotaKnown lib upstream = false
  rateLimit : rateLimitKnown lib upstream = false

variable {lib} {a b : UpstreamExecutionResult}

theorem extractUpstreamErrorDetails_congr (h : AgreeButCodex a b) :
    extractUpstreamErrorDetails lib a = extractUpstreamErrorDetails lib b := by
  unfold extractUpstreamErrorDetails
  rw [h.errorCode, h.body, h.events]

theorem markedApart_congr (h : AgreeButCodex a b) (marker : Bytes → Bool) :
    markedApart lib a marker = markedApart lib b marker := by
  have hheaders : anyHeaderMatches (otherHeaders a.headers) marker =
      anyHeaderMatches (otherHeaders b.headers) marker := by
    rw [Bool.eq_iff_iff, anyHeaderMatches, anyHeaderMatches, List.any_eq_true, List.any_eq_true]
    simp only [h.headers]
  unfold markedApart
  rw [extractUpstreamErrorDetails_congr h, h.body, h.events, hheaders]

theorem quotaKnown_congr (h : AgreeButCodex a b) : quotaKnown lib a = quotaKnown lib b := by
  unfold quotaKnown failed
  rw [extractUpstreamErrorDetails_congr h, h.status, markedApart_congr h]

theorem rateLimitKnown_congr (h : AgreeButCodex a b) : rateLimitKnown lib a = rateLimitKnown lib b := by
  unfold rateLimitKnown failed
  rw [extractUpstreamErrorDetails_congr h, h.status, markedApart_congr h]

theorem verdict_eq_iff : ∀ quota rate failed quotaMarked quotaMarked' rateMarked rateMarked' : Bool,
    verdict quota rate failed quotaMarked rateMarked = verdict quota rate failed quotaMarked' rateMarked' ↔
      failed = false ∨ quota = true ∨ quotaMarked = quotaMarked' ∧
        (quotaMarked = true ∨ rate = true ∨ rateMarked = rateMarked') := by
  decide

theorem same_verdict_iff (h : AgreeButCodex a b) :
    exhaustedAccountStatusFromUpstream lib a = exhaustedAccountStatusFromUpstream lib b ↔ SpeakAlike lib a b := by
  have hfailed : failed b = failed a := by rw [failed, failed, h.status]
  rw [exhausted_eq, exhausted_eq, ← quotaKnown_congr h, ← rateLimitKnown_congr h, hfailed]
  exact verdict_eq_iff _ _ _ _ _ _ _

theorem not_exhausted_iff (h : Unmarked lib a) :
    exhaustedAccountStatusFromUpstream lib a = none ↔
      codexMarked a containsQuotaMarker = false ∧ codexMarked a containsRateLimitMarker = false := by
  rw [exhausted_eq, h.failed, h.quota, h.rateLimit]
  generalize codexMarked a containsQuotaMarker = quota
  generalize codexMarked a containsRateLimitMarker = rate
  revert quota rate
  decide

/-- The `x-codex-` headers leave the verdict alone exactly when they speak alike, and they condemn an account of which
nothing else in a failed response speaks exactly when they carry a marker. -/
theorem codex_headers_ignored_iff (lib : JsonLibrary) :
    (∀ a b, AgreeButCodex a b →
      (exhaustedAccountStatusFromUpstream lib a = exhaustedAccountStatusFromUpstream lib b ↔ SpeakAlike lib a b)) ∧
    ∀ a, Unmarked lib a → (exhaustedAccountStatusFromUpstream lib a = none ↔
      codexMarked a containsQuotaMarker = false ∧ codexMarked a containsRateLimitMarker = false) :=
  ⟨fun _ _ => same_verdict_iff, fun _ => not_exhausted_iff⟩

def plainFailure : UpstreamExecutionResult :=
  { status := 500, errorCode := ofString "server_error", headers := [(ofString "content-type", ofString "text/plain")] }

def creditedFailure : UpstreamExecutionResult :=
  { plainFailure with
    headers := (ofString "x-codex-credits-has-credits", ofString "true") :: plainFailure.headers }

theorem credits_header_condemns :
    AgreeButCodex plainFailure creditedFailure ∧
      exhaustedAccountStatusFromUpstream ⟨fun _ => none, fun _ => none⟩ plainFailure = none ∧
      exhaustedAccountStatusFromUpstream ⟨fun _ => none, fun _ => none⟩ creditedFailure = some .quotaBlocked :=
  ⟨⟨rfl, rfl, rfl, rfl, fun _ => Iff.rfl⟩, by decide, by decide⟩

end Noninterference

end Tightrope.Proxy
