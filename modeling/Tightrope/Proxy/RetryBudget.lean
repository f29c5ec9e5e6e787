import Tightrope.Proxy.ErrorPolicy

namespace Tightrope.Proxy

open Bytes Tightrope.Core

section Codes

variable {code errorType : Bytes}

def NormalCode (code : Bytes) : Prop := normalizeUpstreamErrorCode code [] = code

instance : DecidablePred NormalCode := fun _ => inferInstanceAs (Decidable (_ = _))

theorem normalCode_mapCodeAlias (code : Bytes) (h : code ≠ []) : NormalCode (mapCodeAlias (toLowerAscii code)) := by
  unfold mapCodeAlias
  split_ifs with hunavailable htimeout
  · decide
  · decide
  · have hne : toLowerAscii code ≠ [] := by
      rw [toLowerAscii, ne_eq, List.map_eq_nil_iff]
      exact h
    rw [NormalCode, normalizeUpstreamErrorCode, if_pos hne, toLowerAscii_toLowerAscii, mapCodeAlias,
      if_neg hunavailable,
      if_neg htimeout]

theorem normalCode_normalize (code errorType : Bytes) : NormalCode (normalizeUpstreamErrorCode code errorType) := by
  unfold normalizeUpstreamErrorCode
  split_ifs with hcode htype
  · exact normalCode_mapCodeAlias code hcode
  · exact normalCode_mapCodeAlias errorType htype
  · decide

theorem NormalCode.ne_nil (h : NormalCode code) : code ≠ [] := by
  rintro rfl
  revert h
  decide

end Codes

section Merging

variable (lib : JsonLibrary) {details details' : UpstreamErrorDetails} {upstream : UpstreamExecutionResult}

def CodeSettled (details : UpstreamErrorDetails) : Prop := details.code = [] ∨ NormalCode details.code

theorem codeSettled_details (errorObject : JsonObject) : CodeSettled (detailsFromErrorObject errorObject) := by
  unfold CodeSettled detailsFromErrorObject
  cases hcode : errorObject.string? (ofString "code") with
  | some code =>
    right
    have hnormal := normalCode_normalize code []
    simpa [hnormal.ne_nil] using hnormal
  | none =>
    cases htype : errorObject.string? (ofString "type") with
    | some type =>
      right
      simpa using normalCode_normalize [] type
    | none =>
      left
      rfl

theorem codeSettled_mergePayload (h : CodeSettled details) (payload : Bytes) :
    CodeSettled (mergePayload lib details payload) := by
  unfold mergePayload extractErrorDetailsFromPayload
  cases ((lib.readObject payload).bind errorObjectOf) with
  | none => exact h
  | some errorObject =>
    by_cases hcode : details.code = []
    · simpa [CodeSettled, mergeErrorDetails, hcode] using codeSettled_details errorObject
    · simpa [CodeSettled, mergeErrorDetails, hcode] using h

theorem codeSettled_mergeEvents (h : CodeSettled details) (events : List Bytes) :
    CodeSettled (mergeEvents lib details events) := by
  induction events generalizing details with
  | nil => exact h
  | cons event events ih =>
    have hmerged := codeSettled_mergePayload lib h event
    rw [mergeEvents]
    split_ifs
    · exact hmerged
    · exact ih hmerged

def ownDetails (upstream : UpstreamExecutionResult) : UpstreamErrorDetails :=
  { code := if upstream.errorCode = [] then [] else normalizeUpstreamErrorCode upstream.errorCode [] }

def gathered (upstream : UpstreamExecutionResult) : UpstreamErrorDetails :=
  mergeEvents lib
    (if upstream.body = [] then ownDetails upstream else mergePayload lib (ownDetails upstream) upstream.body)
    upstream.events

def finalCode (code : Bytes) : Bytes := if code = [] then ofString "upstream_error" else code

def finalType (type code : Bytes) : Bytes :=
  if type = [] then
    if code = ofString "upstream_request_timeout" then ofString "timeout_error" else ofString "server_error"
  else type

theorem extract_eq (upstream : UpstreamExecutionResult) : extractUpstreamErrorDetails lib upstream =
    { gathered lib upstream with
      code := finalCode (gathered lib upstream).code
      type := finalType (gathered lib upstream).type (finalCode (gathered lib upstream).code) } :=
  rfl

theorem codeSettled_gathered (upstream : UpstreamExecutionResult) : CodeSettled (gathered lib upstream) := by
  have hown : CodeSettled (ownDetails upstream) := by
    unfold ownDetails CodeSettled
    dsimp only
    split_ifs
    · exact .inl rfl
    · exact .inr (normalCode_normalize _ _)
  apply codeSettled_mergeEvents
  split_ifs
  · exact hown
  · exact codeSettled_mergePayload lib hown _

theorem normalCode_resolved (upstream : UpstreamExecutionResult) :
    NormalCode (resolvedUpstreamErrorCode lib upstream) := by
  rw [resolvedUpstreamErrorCode, extract_eq]
  change NormalCode (finalCode _)
  unfold finalCode
  split_ifs with hempty
  · decide
  · obtain hnil | hnormal := codeSettled_gathered lib upstream
    · exact absurd hnil hempty
    · exact hnormal

structure Fills (details details' : UpstreamErrorDetails) : Prop where
  code : details.code ≠ [] → details'.code = details.code
  message : details.message ≠ [] → details'.message = details.message
  type : details.type ≠ [] → details'.type = details.type

theorem Fills.refl (details : UpstreamErrorDetails) : Fills details details :=
  ⟨fun _ => rfl, fun _ => rfl, fun _ => rfl⟩

theorem Fills.trans {details'' : UpstreamErrorDetails} (h : Fills details details') (h' : Fills details' details'') :
    Fills details details'' where
  code hne := (h'.code (h.code hne ▸ hne)).trans (h.code hne)
  message hne := (h'.message (h.message hne ▸ hne)).trans (h.message hne)
  type hne := (h'.type (h.type hne ▸ hne)).trans (h.type hne)

theorem fills_mergePayload (details : UpstreamErrorDetails) (payload : Bytes) :
    Fills details (mergePayload lib details payload) := by
  unfold mergePayload
  cases extractErrorDetailsFromPayload lib payload with
  | none => exact .refl details
  | some overlay => exact ⟨fun hne => if_neg hne, fun hne => if_neg hne, fun hne => if_neg hne⟩

theorem fills_mergeEvents (details : UpstreamErrorDetails) (events : List Bytes) :
    Fills details (mergeEvents lib details events) := by
  induction events generalizing details with
  | nil => exact .refl details
  | cons event events ih =>
    rw [mergeEvents]
    split_ifs
    · exact fills_mergePayload lib details event
    · exact (fills_mergePayload lib details event).trans (ih _)

def SaysAlike (details details' : UpstreamErrorDetails) : Prop :=
  details.message = details'.message ∧ details.type = details'.type

theorem saysAlike_mergePayload (h : SaysAlike details details') (payload : Bytes) :
    SaysAlike (mergePayload lib details payload) (mergePayload lib details' payload) := by
  obtain ⟨hmessage, htype⟩ := h
  unfold mergePayload
  cases extractErrorDetailsFromPayload lib payload with
  | none => exact ⟨hmessage, htype⟩
  | some overlay =>
    unfold mergeErrorDetails
    rw [SaysAlike, hmessage, htype]
    exact ⟨rfl, rfl⟩

theorem saysAlike_mergeEvents (h : SaysAlike details details') (hcode : details'.code ≠ []) (events : List Bytes) :
    SaysAlike (mergeEvents lib details events) (mergeEvents lib details' events) := by
  induction events generalizing details details' with
  | nil => exact h
  | cons event events ih =>
    have hmerged := saysAlike_mergePayload lib h event
    have hcode' : (mergePayload lib details' event).code ≠ [] := by
      rw [(fills_mergePayload lib details' event).code hcode]
      exact hcode
    rw [mergeEvents, mergeEvents]
    by_cases hstop : (mergePayload lib details' event).message ≠ [] ∧ (mergePayload lib details' event).type ≠ []
    · rw [if_pos (c := _ ∧ (mergePayload lib details' event).message ≠ [] ∧ _) ⟨hcode', hstop⟩]
      split_ifs
      · exact hmerged
      · have hfills := fills_mergeEvents lib (mergePayload lib details event) events
        have hmessage := hfills.message (hmerged.1 ▸ hstop.1)
        have htype := hfills.type (hmerged.2 ▸ hstop.2)
        exact ⟨hmessage.trans hmerged.1, htype.trans hmerged.2⟩
    · have hgoes : ¬ ((mergePayload lib details event).message ≠ [] ∧ (mergePayload lib details event).type ≠ []) := by
        rwa [hmerged.1, hmerged.2]
      rw [if_neg fun hall => hgoes hall.2, if_neg fun hall => hstop hall.2]
      exact ih hmerged hcode'

theorem gathered_withCode {code : Bytes} (hcode : NormalCode code) (upstream : UpstreamExecutionResult) :
    (gathered lib { upstream with errorCode := code }).code = code ∧
      SaysAlike (gathered lib upstream) (gathered lib { upstream with errorCode := code }) := by
  have hown : ownDetails { upstream with errorCode := code } = { code } := by
    unfold ownDetails
    rw [if_neg hcode.ne_nil]
    exact congrArg (fun code => ({ code } : UpstreamErrorDetails)) hcode
  have halike : SaysAlike (ownDetails upstream) { code } := ⟨rfl, rfl⟩
  unfold gathered
  rw [hown]
  dsimp only
  by_cases hbody : upstream.body = []
  · rw [if_pos hbody, if_pos hbody]
    exact ⟨(fills_mergeEvents lib _ _).code hcode.ne_nil, saysAlike_mergeEvents lib halike hcode.ne_nil _⟩
  · have hmerged := (fills_mergePayload lib { code } upstream.body).code hcode.ne_nil
    have hne : (mergePayload lib { code } upstream.body).code ≠ [] := by
      rw [hmerged]
      exact hcode.ne_nil
    rw [if_neg hbody, if_neg hbody]
    exact ⟨((fills_mergeEvents lib _ _).code hne).trans hmerged,
      saysAlike_mergeEvents lib (saysAlike_mergePayload lib halike _) hne _⟩

end Merging

section Verdicts

variable (lib : JsonLibrary) {upstream : UpstreamExecutionResult} {code : Bytes}

theorem resolved_eq (upstream : UpstreamExecutionResult) :
    resolvedUpstreamErrorCode lib upstream = finalCode (gathered lib upstream).code :=
  rfl

theorem resolved_withCode (hcode : NormalCode code) (upstream : UpstreamExecutionResult) :
    resolvedUpstreamErrorCode lib { upstream with errorCode := code } = code := by
  rw [resolved_eq, (gathered_withCode lib hcode upstream).1]
  exact if_neg hcode.ne_nil

theorem message_withCode (hcode : NormalCode code) (upstream : UpstreamExecutionResult) :
    (extractUpstreamErrorDetails lib { upstream with errorCode := code }).message =
      (extractUpstreamErrorDetails lib upstream).message := by
  have hmessage := (gathered_withCode lib hcode upstream).2.1
  exact hmessage.symm

theorem type_withCode (hcode : NormalCode code) (upstream : UpstreamExecutionResult)
    (htimeout : code = ofString "upstream_request_timeout" ↔
      resolvedUpstreamErrorCode lib upstream = ofString "upstream_request_timeout") :
    (extractUpstreamErrorDetails lib { upstream with errorCode := code }).type =
      (extractUpstreamErrorDetails lib upstream).type := by
  obtain ⟨hgathered, -, htype⟩ := gathered_withCode lib hcode upstream
  have hfinal : finalCode code = code := if_neg hcode.ne_nil
  rw [extract_eq, extract_eq, hgathered, ← htype, hfinal, ← resolved_eq]
  unfold finalType
  simp only [htimeout]

def exhaustedAs (code : Bytes) (upstream : UpstreamExecutionResult) : Option ExhaustedStatus :=
  let details := extractUpstreamErrorDetails lib upstream
  let failedResponse : Bool := 400 ≤ upstream.status
  if quotaCodes.contains (toLowerAscii code) then some .quotaBlocked
  else if failedResponse && (containsQuotaMarker details.message || containsQuotaMarker upstream.body ||
      upstream.events.any containsQuotaMarker || anyHeaderMatches upstream.headers containsQuotaMarker) then
    some .quotaBlocked
  else if rateLimitCodes.contains (toLowerAscii code) then some .rateLimited
  else if rateLimitTypes.contains (toLowerAscii details.type) then some .rateLimited
  else if failedResponse && (containsRateLimitMarker details.message || containsRateLimitMarker upstream.body ||
      upstream.events.any containsRateLimitMarker || anyHeaderMatches upstream.headers containsRateLimitMarker) then
    some .rateLimited
  else if upstream.status = 429 then some .rateLimited
  else none

theorem exhausted_eq_as (upstream : UpstreamExecutionResult) : exhaustedAccountStatusFromUpstream lib upstream =
    exhaustedAs lib (resolvedUpstreamErrorCode lib upstream) upstream :=
  rfl

theorem exhausted_withCode (hcode : NormalCode code) (upstream : UpstreamExecutionResult)
    (htimeout : code = ofString "upstream_request_timeout" ↔
      resolvedUpstreamErrorCode lib upstream = ofString "upstream_request_timeout") :
    exhaustedAccountStatusFromUpstream lib { upstream with errorCode := code } = exhaustedAs lib code upstream := by
  rw [exhausted_eq_as, resolved_withCode lib hcode upstream]
  unfold exhaustedAs
  dsimp only
  rw [type_withCode lib hcode upstream htimeout, message_withCode lib hcode upstream]

theorem exhausted_resolvedCode (upstream : UpstreamExecutionResult) :
    exhaustedAccountStatusFromUpstream lib { upstream with errorCode := resolvedUpstreamErrorCode lib upstream } =
      exhaustedAccountStatusFromUpstream lib upstream :=
  exhausted_withCode lib (normalCode_resolved lib upstream) upstream Iff.rfl

theorem exhaustedAs_insufficientQuota (upstream : UpstreamExecutionResult) :
    exhaustedAs lib (ofString "insufficient_quota") upstream = some .quotaBlocked := by
  have hquota : quotaCodes.contains (toLowerAscii (ofString "insufficient_quota")) = true := by decide
  unfold exhaustedAs
  rw [hquota, if_pos rfl]

theorem exhaustedAs_rateLimitExceeded (h : exhaustedAs lib code upstream = some .rateLimited) :
    exhaustedAs lib (ofString "rate_limit_exceeded") upstream = some .rateLimited := by
  have hquota : quotaCodes.contains (toLowerAscii (ofString "rate_limit_exceeded")) = false := by decide
  have hrate : rateLimitCodes.contains (toLowerAscii (ofString "rate_limit_exceeded")) = true := by decide
  unfold exhaustedAs at h ⊢
  dsimp only at h ⊢
  rw [hquota, hrate, if_neg Bool.false_ne_true, if_pos rfl]
  by_cases hcode : quotaCodes.contains (toLowerAscii code) = true
  · rw [if_pos hcode] at h
    cases h
  · rw [if_neg hcode] at h
    by_cases hmarked : (decide (400 ≤ upstream.status) &&
        (containsQuotaMarker (extractUpstreamErrorDetails lib upstream).message || containsQuotaMarker upstream.body ||
          upstream.events.any containsQuotaMarker || anyHeaderMatches upstream.headers containsQuotaMarker)) = true
    · rw [if_pos hmarked] at h
      cases h
    · rw [if_neg hmarked]

def unnamedCode : Bytes := ofString "upstream_error"

theorem resolvedResult_cases (upstream : UpstreamExecutionResult) :
    resolvedResult lib upstream = { upstream with errorCode := resolvedUpstreamErrorCode lib upstream } ∨
      resolvedUpstreamErrorCode lib upstream = unnamedCode ∧
        (exhaustedAccountStatusFromUpstream lib upstream = some .quotaBlocked ∧
            resolvedResult lib upstream = { upstream with errorCode := ofString "insufficient_quota" } ∨
          exhaustedAccountStatusFromUpstream lib upstream = some .rateLimited ∧
            resolvedResult lib upstream = { upstream with errorCode := ofString "rate_limit_exceeded" }) := by
  unfold resolvedResult
  dsimp only
  rw [exhausted_resolvedCode]
  cases hexhausted : exhaustedAccountStatusFromUpstream lib upstream with
  | none => exact .inl rfl
  | some exhausted =>
    dsimp only
    by_cases hcode : resolvedUpstreamErrorCode lib upstream = [] ∨
        resolvedUpstreamErrorCode lib upstream = ofString "upstream_error"
    · right
      rw [if_pos hcode]
      obtain hnil | hunnamed := hcode
      · exact absurd hnil (normalCode_resolved lib upstream).ne_nil
      · refine ⟨hunnamed, ?_⟩
        cases exhausted with
        | quotaBlocked => exact .inl ⟨rfl, rfl⟩
        | rateLimited => exact .inr ⟨rfl, rfl⟩
    · left
      rw [if_neg hcode]

theorem exhausted_resolvedResult (upstream : UpstreamExecutionResult) :
    exhaustedAccountStatusFromUpstream lib (resolvedResult lib upstream) =
      exhaustedAccountStatusFromUpstream lib upstream := by
  obtain hsame | ⟨hunnamed, ⟨hexhausted, hresult⟩ | ⟨hexhausted, hresult⟩⟩ := resolvedResult_cases lib upstream
  · rw [hsame, exhausted_resolvedCode]
  · have htimeout : ofString "insufficient_quota" = ofString "upstream_request_timeout" ↔
        resolvedUpstreamErrorCode lib upstream = ofString "upstream_request_timeout" := by
      rw [hunnamed]
      decide
    rw [hresult, exhausted_withCode lib (by decide) upstream htimeout, exhaustedAs_insufficientQuota, hexhausted]
  · have htimeout : ofString "rate_limit_exceeded" = ofString "upstream_request_timeout" ↔
        resolvedUpstreamErrorCode lib upstream = ofString "upstream_request_timeout" := by
      rw [hunnamed]
      decide
    rw [hresult, exhausted_withCode lib (by decide) upstream htimeout, hexhausted]
    exact exhaustedAs_rateLimitExceeded lib hexhausted

theorem incomplete_resolvedResult (upstream : UpstreamExecutionResult) :
    incompleteCodes.contains
        (normalizeUpstreamErrorCode (resolvedUpstreamErrorCode lib (resolvedResult lib upstream)) []) =
      incompleteCodes.contains (resolvedUpstreamErrorCode lib upstream) := by
  have hnormal := normalCode_resolved lib upstream
  obtain hsame | ⟨hunnamed, ⟨-, hresult⟩ | ⟨-, hresult⟩⟩ := resolvedResult_cases lib upstream
  · rw [hsame, resolved_withCode lib hnormal, hnormal]
  · rw [hresult, resolved_withCode lib (by decide), hunnamed]
    decide
  · rw [hresult, resolved_withCode lib (by decide), hunnamed]
    decide

end Verdicts

section Budget

variable (lib : JsonLibrary) {shouldRetry : UpstreamExecutionResult → Bool} {upstreams : ℕ → UpstreamExecutionResult}

structure Tried (shouldRetry : UpstreamExecutionResult → Bool) (upstreams : ℕ → UpstreamExecutionResult)
    (attempt left : ℕ)
    (run : UpstreamExecutionResult × ℕ) : Prop where
  started : attempt < run.2
  within : run.2 ≤ attempt + left + 1
  last : run.1 = resolvedResult lib (upstreams (run.2 - 1))
  retried : ∀ n, attempt ≤ n → n + 1 < run.2 → shouldRetry (resolvedResult lib (upstreams n)) = true
  stopped : run.2 = attempt + left + 1 ∨ shouldRetry (resolvedResult lib (upstreams (run.2 - 1))) = false

theorem tried_retryLoop (shouldRetry : UpstreamExecutionResult → Bool) (upstreams : ℕ → UpstreamExecutionResult)
    (attempt left : ℕ) : Tried lib shouldRetry upstreams attempt left
      (retryLoop lib shouldRetry upstreams attempt left) := by
  induction left generalizing attempt with
  | zero =>
    refine ⟨by simp [retryLoop], by simp [retryLoop], rfl, ?_, .inl rfl⟩
    intro n hn hlt
    simp [retryLoop] at hlt
    omega
  | succ left ih =>
    rw [retryLoop]
    by_cases hretry : shouldRetry (resolvedResult lib (upstreams attempt)) = true
    · rw [if_pos hretry]
      obtain ⟨hstarted, hwithin, hlast, hretried, hstopped⟩ := ih (attempt + 1)
      refine ⟨by omega, by omega, hlast, fun n hn hlt => ?_, ?_⟩
      · obtain rfl | hnext := Nat.eq_or_lt_of_le hn
        · exact hretry
        · exact hretried n hnext hlt
      · obtain hall | hrefused := hstopped
        · exact .inl (by omega)
        · exact .inr hrefused
    · rw [if_neg hretry]
      exact ⟨Nat.lt_succ_self _, by simp, rfl, by intro n hn hlt; simp at hlt; omega, .inr (by simpa using hretry)⟩

variable (predicate : RetryPredicate) (upstreams : ℕ → UpstreamExecutionResult) (retryBudget : ℤ)

/-- No more attempts than the budget allows, the last of them returned, and none after an exhausted account. -/
structure RetriesInBounds : Prop where
  attempts_le : ((executeUpstreamWithRetryBudget lib (predicate.shouldRetry lib) upstreams retryBudget).2 : ℤ) ≤
    max retryBudget 0 + 1
  returned : ∃ n, (executeUpstreamWithRetryBudget lib (predicate.shouldRetry lib) upstreams retryBudget) =
    (resolvedResult lib (upstreams n), n + 1)
  stops : ∀ n, n + 1 < (executeUpstreamWithRetryBudget lib (predicate.shouldRetry lib) upstreams retryBudget).2 →
    exhaustedAccountStatusFromUpstream lib (upstreams n) = none

/-- With the third predicate, no result that the budget does not end at, and that the loop comes to, is exhausted with
an incomplete stream for its code. -/
def NoneIncomplete : Prop :=
  predicate = .streamResultWithIncomplete →
    ∀ n < retryBudget.toNat, (∀ m < n, predicate.shouldRetry lib (resolvedResult lib (upstreams m)) = true) →
      exhaustedAccountStatusFromUpstream lib (upstreams n) ≠ none →
        resolvedUpstreamErrorCode lib (upstreams n) ∉ incompleteCodes

variable {predicate}

theorem shouldRetry_of_exhausted {upstream : UpstreamExecutionResult}
    (h : exhaustedAccountStatusFromUpstream lib upstream ≠ none) :
    predicate.shouldRetry lib (resolvedResult lib upstream) = true ↔
      predicate = .streamResultWithIncomplete ∧ resolvedUpstreamErrorCode lib upstream ∈ incompleteCodes := by
  have hexhausted : (exhaustedAccountStatusFromUpstream lib (resolvedResult lib upstream)).isSome = true := by
    rw [exhausted_resolvedResult]
    exact Option.isSome_iff_ne_none.mpr h
  have hstream : shouldRetryStreamResult lib (resolvedResult lib upstream) = false := if_pos hexhausted
  cases predicate with
  | streamResult => simp [RetryPredicate.shouldRetry, hstream]
  | compactResult =>
    have hcompact : shouldRetryCompactResult lib (resolvedResult lib upstream) = false := if_pos hexhausted
    simp [RetryPredicate.shouldRetry, hcompact]
  | streamResultWithIncomplete =>
    rw [RetryPredicate.shouldRetry, shouldRetryStreamResultWithIncomplete, hstream, if_neg (by simp),
      incomplete_resolvedResult, List.contains_iff_mem]
    exact (and_iff_right rfl).symm

/-- The loop keeps its bounds exactly when no exhausted account comes with an incomplete stream. -/
theorem retries_in_bounds_iff (lib : JsonLibrary) (predicate : RetryPredicate) (upstreams : ℕ → UpstreamExecutionResult)
    (retryBudget : ℤ) :
    RetriesInBounds lib predicate upstreams retryBudget ↔ NoneIncomplete lib predicate upstreams retryBudget := by
  have htried := tried_retryLoop lib (predicate.shouldRetry lib) upstreams 0 retryBudget.toNat
  rw [← executeUpstreamWithRetryBudget] at htried
  obtain ⟨hstarted, hwithin, hlast, hretried, hstopped⟩ := htried
  constructor
  · intro h hpredicate n hn hbefore hexhausted hincomplete
    have hretry := (shouldRetry_of_exhausted lib hexhausted).mpr ⟨hpredicate, hincomplete⟩
    have hnext : n + 1 < (executeUpstreamWithRetryBudget lib (predicate.shouldRetry lib) upstreams retryBudget).2 := by
      by_contra hnot
      obtain hall | hrefused := hstopped
      · omega
      · by_cases hn' : (executeUpstreamWithRetryBudget lib (predicate.shouldRetry lib) upstreams retryBudget).2 - 1 = n
        · rw [hn', hretry] at hrefused
          cases hrefused
        · rw [hbefore _ (by omega)] at hrefused
          cases hrefused
    exact hexhausted (h.stops n hnext)
  · intro h
    refine ⟨by omega, ⟨_, Prod.ext hlast (by omega)⟩, fun n hn => ?_⟩
    by_contra hexhausted
    obtain ⟨hpredicate, hincomplete⟩ := (shouldRetry_of_exhausted lib hexhausted).mp (hretried n (Nat.zero_le n) hn)
    exact h hpredicate n (by omega) (fun m hm => hretried m (Nat.zero_le m) (by omega)) hexhausted hincomplete

def cutOff : UpstreamExecutionResult := { status := 429, errorCode := ofString "stream_incomplete" }

theorem exhausted_account_is_tried_again :
    ¬ RetriesInBounds ⟨fun _ => none, fun _ => none⟩ .streamResultWithIncomplete (fun _ => cutOff) 2 := by
  intro h
  have hnone := h.stops 0 (by decide)
  revert hnone
  decide

end Budget

end Tightrope.Proxy
