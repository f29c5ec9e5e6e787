import Tightrope.Proxy.Openai.UpstreamHeaders

namespace Tightrope.Proxy.Openai

open Bytes Tightrope.Core

def authorizationName : Bytes := ofString "authorization"

def cookieName : Bytes := ofString "cookie"

def named (nameLower : Bytes) (headers : HeaderMap) : HeaderMap :=
  headers.filter fun header => toLowerAscii header.1 = nameLower

def withheld (nameLower : Bytes) : Bool :=
  nameLower = cookieName || nameLower = ofString "forwarded" || startsWith nameLower (ofString "x-forwarded-") ||
    startsWith nameLower (ofString "cf-") || startsWith nameLower tightropeStart

def ownNames : List Bytes :=
  [authorizationName, accountIdName, betaName, ofString "x-request-id", ofString "accept", ofString "content-type"]

/-- What every plan of upstream headers should satisfy. -/
structure Hygienic (inbound : HeaderMap) (accessToken : Bytes) (plan : HeaderMap) : Prop where
  authorization : (named authorizationName plan).map Prod.snd = [ofString "Bearer " ++ accessToken]
  accountId : (named accountIdName plan).length ≤ 1
  beta : (named betaName plan).length ≤ 1
  withholds : ∀ header ∈ plan, withheld (toLowerAscii header.1) = false
  connection : ∀ header ∈ plan, header ∈ inbound → toLowerAscii header.1 ∈ connectionTokens inbound →
    toLowerAscii header.1 ∈ ownNames

def secretName (name : Bytes) : Bool :=
  withheld (toLowerAscii name) || toLowerAscii name = authorizationName || toLowerAscii name = accountIdName

/-- Two inbound maps with the same headers, the ones that the proxy withholds or replaces apart. -/
def SameBesides (inbound other : HeaderMap) : Prop :=
  (inbound.filter fun header => !secretName header.1).Perm (other.filter fun header => !secretName header.1)

section Named

variable {order : IterationOrder} {headers others : HeaderMap} {name value nameLower : Bytes} {header : Bytes × Bytes}

theorem hasKey_perm (h : headers.Perm others) : headers.hasKey name = others.hasKey name := by
  rw [HeaderMap.hasKey, HeaderMap.hasKey, Bool.eq_iff_iff, List.any_eq_true, List.any_eq_true]
  simp only [h.mem_iff]

theorem assign_perm (h : headers.Perm others) :
    (order.assign headers name value).Perm (order.assign others name value) := by
  unfold IterationOrder.assign
  rw [hasKey_perm h]
  split_ifs
  · exact h.map _
  · exact (order.perm _).trans ((h.cons _).trans (order.perm _).symm)

theorem named_perm (h : headers.Perm others) : (named nameLower headers).Perm (named nameLower others) := h.filter _

theorem named_append : named nameLower (headers ++ others) = named nameLower headers ++ named nameLower others :=
  List.filter_append headers others

theorem named_cons_of_ne (hne : toLowerAscii header.1 ≠ nameLower) :
    named nameLower (header :: headers) = named nameLower headers :=
  List.filter_cons_of_neg (by simpa using hne)

theorem named_cons_of_eq (heq : toLowerAscii header.1 = nameLower) :
    named nameLower (header :: headers) = header :: named nameLower headers :=
  List.filter_cons_of_pos (by simpa using heq)

theorem fst_setValue : (HeaderMap.setValue name value header).1 = header.1 := by
  unfold HeaderMap.setValue
  split_ifs with h
  · exact h.symm
  · rfl

theorem named_setValue :
    named nameLower (headers.map (HeaderMap.setValue name value)) =
      (named nameLower headers).map (HeaderMap.setValue name value) := by
  rw [named, List.filter_map, named]
  congr 1
  apply List.filter_congr
  intro header hmem
  rw [Function.comp_apply, fst_setValue]

theorem setValue_of_ne (h : header.1 ≠ name) : HeaderMap.setValue name value header = header := if_neg h

theorem named_assign_of_ne (hne : toLowerAscii name ≠ nameLower) :
    (named nameLower (order.assign headers name value)).Perm (named nameLower headers) := by
  unfold IterationOrder.assign
  split_ifs
  · rw [named_setValue]
    have hkept : ∀ header ∈ named nameLower headers, HeaderMap.setValue name value header = id header := by
      intro header hmem
      have hlower : toLowerAscii header.1 = nameLower := of_decide_eq_true (List.mem_filter.mp hmem).2
      exact setValue_of_ne fun heq => hne (by rw [← heq, hlower])
    rw [List.map_congr_left hkept, List.map_id]
  · have hcons : named nameLower ((name, value) :: headers) = named nameLower headers := named_cons_of_ne hne
    exact hcons ▸ named_perm (order.perm _)

theorem named_eq_nil : named nameLower headers = [] ↔ Lacks headers nameLower := by
  rw [named, List.filter_eq_nil_iff]
  simp [Lacks]

theorem named_assign_of_lacks (hname : toLowerAscii name = nameLower) (h : Lacks headers nameLower) :
    named nameLower (order.assign headers name value) = [(name, value)] := by
  have hkey : headers.hasKey name = false := by
    rw [HeaderMap.hasKey, Bool.eq_false_iff, ne_eq, List.any_eq_true]
    rintro ⟨header, hmem, heq⟩
    exact h header hmem (by rw [of_decide_eq_true heq, hname])
  have hcons : named nameLower ((name, value) :: headers) = [(name, value)] := by
    rw [named_cons_of_eq hname, named_eq_nil.mpr h]
  unfold IterationOrder.assign
  rw [if_neg (by simp [hkey])]
  apply List.perm_singleton.mp
  exact hcons ▸ named_perm (order.perm _)

theorem length_named_assign (hkey : headers.hasKey name = true) :
    (named nameLower (order.assign headers name value)).length = (named nameLower headers).length := by
  rw [IterationOrder.assign, if_pos hkey, named_setValue, List.length_map]

end Named

section Beta

variable {order : IterationOrder} {headers others : HeaderMap} {held : Bytes × Bytes}

theorem gatherBeta_of_lacks (h : Lacks headers betaName) : gatherBeta held headers = (headers, held) := by
  induction headers with
  | nil => rfl
  | cons first headers ih =>
    obtain ⟨hfirst, hrest⟩ := List.forall_mem_cons.mp h
    rw [gatherBeta, if_pos hfirst, ih hrest]

theorem gatherBeta_of_single (h : (named betaName headers).length ≤ 1) :
    gatherBeta (betaName, []) headers = (headers, (named betaName headers).headD (betaName, [])) := by
  induction headers with
  | nil => rfl
  | cons first headers ih =>
    by_cases hfirst : toLowerAscii first.1 = betaName
    · rw [named_cons_of_eq hfirst] at h ⊢
      have hrest : Lacks headers betaName := by
        rw [← named_eq_nil, ← List.length_eq_zero_iff]
        rw [List.length_cons] at h
        omega
      rw [gatherBeta, if_neg (not_not.mpr hfirst), if_pos rfl, gatherBeta_of_lacks hrest]
      rfl
    · rw [named_cons_of_ne hfirst] at h ⊢
      rw [gatherBeta, if_pos hfirst, ih h]

theorem ensureBeta_of_single (h : (named betaName headers).length ≤ 1) :
    ensureResponsesWebsocketBetaHeader order headers =
      order.assign headers ((named betaName headers).headD (betaName, [])).1
        (joinTokens (withBetaToken (splitCsvTokens ((named betaName headers).headD (betaName, [])).2))) := by
  rw [ensureResponsesWebsocketBetaHeader, gatherBeta_of_single h]

theorem named_eq_of_perm (hperm : headers.Perm others) (h : (named betaName headers).length ≤ 1) :
    named betaName others = named betaName headers := by
  have hnamed : (named betaName others).Perm (named betaName headers) := (named_perm hperm).symm
  cases hbeta : named betaName headers with
  | nil => exact List.perm_nil.mp (hbeta ▸ hnamed)
  | cons first rest =>
    rw [hbeta, List.length_cons] at h
    obtain rfl : rest = [] := List.length_eq_zero_iff.mp (by omega)
    exact List.perm_singleton.mp (hbeta ▸ hnamed)

theorem ensureBeta_perm (hperm : headers.Perm others) (h : (named betaName headers).length ≤ 1) :
    (ensureResponsesWebsocketBetaHeader order headers).Perm (ensureResponsesWebsocketBetaHeader order others) := by
  have hsame := named_eq_of_perm hperm h
  rw [ensureBeta_of_single h, ensureBeta_of_single (by rwa [hsame]), hsame]
  exact assign_perm hperm

theorem lower_held : toLowerAscii ((named betaName headers).headD (betaName, [])).1 = betaName := by
  cases hbeta : named betaName headers with
  | nil => decide
  | cons first rest =>
    have hmem : first ∈ named betaName headers := by rw [hbeta]; exact List.mem_cons_self
    exact of_decide_eq_true (List.mem_filter.mp hmem).2

theorem length_ensureBeta (h : (named betaName headers).length ≤ 1) :
    (named betaName (ensureResponsesWebsocketBetaHeader order headers)).length ≤ 1 := by
  rw [ensureBeta_of_single h]
  cases hbeta : named betaName headers with
  | nil =>
    rw [named_assign_of_lacks (by decide) (named_eq_nil.mp hbeta)]
    rfl
  | cons first rest =>
    have hmem : first ∈ named betaName headers := by rw [hbeta]; exact List.mem_cons_self
    have hkey : headers.hasKey first.1 = true := by
      rw [HeaderMap.hasKey, List.any_eq_true]
      exact ⟨first, (List.mem_filter.mp hmem).1, by simp⟩
    rw [List.headD_cons, length_named_assign hkey]
    exact h

theorem named_ensureBeta_of_ne {nameLower : Bytes} (h : (named betaName headers).length ≤ 1)
    (hne : betaName ≠ nameLower) :
    (named nameLower (ensureResponsesWebsocketBetaHeader order headers)).Perm (named nameLower headers) := by
  rw [ensureBeta_of_single h]
  exact named_assign_of_ne (by rwa [lower_held])

end Beta

section Copied

variable {order : IterationOrder} {inbound other headers : HeaderMap} {header : Bytes × Bytes}

def copied (inbound : HeaderMap) (header : Bytes × Bytes) : Bool :=
  forwardable inbound header.1 && toLowerAscii header.1 ≠ cookieName

theorem copied_not_secret (h : copied inbound header = true) : secretName header.1 = false := by
  simp only [copied, forwardable, shouldDropInboundHeader, Bool.and_eq_true, Bool.not_eq_true', Bool.or_eq_false_iff,
    decide_eq_true_eq] at h
  obtain ⟨⟨-, ⟨⟨hignored, hforwarded⟩, hcf⟩, htightrope⟩, hcookie⟩ := h
  have hnot : ∀ name ∈ ignoredInboundHeaders, toLowerAscii header.1 ≠ name := by
    rintro name hmem rfl
    rw [List.contains_eq_mem, decide_eq_false_iff_not] at hignored
    exact hignored hmem
  have hauthorization := hnot authorizationName (by decide)
  have haccount := hnot accountIdName (by decide)
  have hplain := hnot (ofString "forwarded") (by decide)
  simp [secretName, withheld, hcookie, hforwarded, hcf, htightrope, hauthorization, haccount, hplain]

theorem copied_not_connection (h : copied inbound header = true) :
    toLowerAscii header.1 ∉ connectionTokens inbound := by
  simp only [copied, forwardable, Bool.and_eq_true, Bool.not_eq_true', List.contains_eq_mem,
    decide_eq_false_iff_not, List.mem_append, not_or] at h
  exact h.1.1.1

theorem forwardedHeaders_perm : (forwardedHeaders order inbound).Perm (inbound.filter (copied inbound)) := by
  have harrange := (order.perm (inbound.filter fun header => forwardable inbound header.1)).filter
    fun header => toLowerAscii header.1 ≠ cookieName
  rw [List.filter_filter] at harrange
  have hsame : inbound.filter (fun header => decide (toLowerAscii header.1 ≠ cookieName) &&
      forwardable inbound header.1) = inbound.filter (copied inbound) := by
    apply List.filter_congr
    intro header hmem
    rw [copied, Bool.and_comm]
  exact hsame ▸ harrange

theorem plainHeaders_perm : (plainHeaders order inbound).Perm (inbound.filter (copied inbound)) := by
  have hplain : plainHeaders order inbound = (forwardedHeaders order inbound).filter fun header =>
      toLowerAscii header.1 ≠ authorizationName && toLowerAscii header.1 ≠ accountIdName := by
    simp only [plainHeaders, forwardedHeaders, eraseCaseInsensitive, List.filter_filter]
    apply List.filter_congr
    intro header hmem
    rw [Bool.eq_iff_iff, show ofString "authorization" = authorizationName from rfl]
    simp only [Bool.and_eq_true, decide_eq_true_eq]
    tauto
  have hkept : (inbound.filter (copied inbound)).filter (fun header =>
      toLowerAscii header.1 ≠ authorizationName && toLowerAscii header.1 ≠ accountIdName) =
      inbound.filter (copied inbound) := by
    rw [List.filter_eq_self]
    intro header hmem
    have hsecret := copied_not_secret (List.mem_filter.mp hmem).2
    simp only [secretName, Bool.or_eq_false_iff, decide_eq_false_iff_not] at hsecret
    simp [hsecret]
  rw [hplain]
  exact hkept ▸ forwardedHeaders_perm.filter _

theorem connectionTokens_perm (h : SameBesides inbound other) :
    (connectionTokens inbound).Perm (connectionTokens other) := by
  have hkept : ∀ headers : HeaderMap, headers.filter (fun header => toLowerAscii header.1 = ofString "connection") =
      (headers.filter fun header => !secretName header.1).filter
        fun header => toLowerAscii header.1 = ofString "connection" := by
    intro headers
    rw [List.filter_filter]
    apply List.filter_congr
    intro header hmem
    by_cases hconnection : toLowerAscii header.1 = ofString "connection"
    · have hsecret : secretName header.1 = false := by
        rw [secretName, hconnection]
        decide
      simp [hconnection, hsecret]
    · simp [hconnection]
  rw [connectionTokens, connectionTokens, hkept inbound, hkept other]
  exact (h.filter _).flatMap_right _

theorem filter_perm_of_not_secret (h : SameBesides inbound other) {kept : Bytes × Bytes → Bool}
    (hkept : ∀ header, kept header = true → secretName header.1 = false) :
    (inbound.filter kept).Perm (other.filter kept) := by
  have hfilter : ∀ headers : HeaderMap,
      (headers.filter fun header => !secretName header.1).filter kept = headers.filter kept := by
    intro headers
    rw [List.filter_filter]
    apply List.filter_congr
    intro header hmem
    cases hheader : kept header
    · rfl
    · simp [hkept header hheader]
  rw [← hfilter inbound, ← hfilter other]
  exact h.filter kept

theorem copied_perm (h : SameBesides inbound other) :
    (inbound.filter (copied inbound)).Perm (other.filter (copied other)) := by
  have hsame : copied inbound = copied other := by
    funext header
    have hmem := (connectionTokens_perm h).mem_iff (a := toLowerAscii header.1)
    simp only [copied, forwardable, List.contains_eq_mem, List.mem_append, hmem]
  rw [← hsame]
  exact filter_perm_of_not_secret h fun header => copied_not_secret

theorem named_beta_copied :
    named betaName (inbound.filter (copied inbound)) =
      if betaName ∈ connectionTokens inbound then [] else named betaName inbound := by
  have hcopied : ∀ header : Bytes × Bytes, toLowerAscii header.1 = betaName →
      copied inbound header = !decide (betaName ∈ connectionTokens inbound) := by
    intro header hbeta
    have hhop : betaName ∉ hopByHopHeaderNames := by decide
    have hdrop : shouldDropInboundHeader header.1 = false := by
      rw [shouldDropInboundHeader, hbeta]
      decide
    have hcookie : betaName ≠ cookieName := by decide
    simp [copied, forwardable, hbeta, hdrop, hhop, hcookie]
  rw [named, List.filter_filter]
  split_ifs with htoken
  · rw [List.filter_eq_nil_iff]
    intro header hmem
    simp only [Bool.and_eq_true, decide_eq_true_eq, not_and]
    intro hbeta
    simp [hcopied header hbeta, htoken]
  · apply List.filter_congr
    intro header hmem
    by_cases hbeta : toLowerAscii header.1 = betaName
    · simp [hbeta, hcopied header hbeta, htoken]
    · simp [hbeta]

end Copied

section Plans

variable {order : IterationOrder} {inbound other headers others : HeaderMap} {header : Bytes × Bytes}
  {accessToken accountId accept requestId name value : Bytes}

theorem addRequestId_perm (h : headers.Perm others) :
    (addRequestId order headers requestId).Perm (addRequestId order others requestId) := by
  have hsame : ∀ wanted, headers.hasKeyCaseInsensitive wanted = others.hasKeyCaseInsensitive wanted := by
    intro wanted
    rw [HeaderMap.hasKeyCaseInsensitive, HeaderMap.hasKeyCaseInsensitive, Bool.eq_iff_iff, List.any_eq_true,
      List.any_eq_true]
    simp only [h.mem_iff]
  unfold addRequestId
  rw [hsame, hsame]
  split_ifs
  · exact assign_perm h
  · exact h

theorem addAccountId_perm (h : headers.Perm others) :
    (addAccountId order headers accountId).Perm (addAccountId order others accountId) := by
  unfold addAccountId
  split_ifs
  · exact assign_perm h
  · exact h

theorem own_of_mem_assign (hname : toLowerAscii name ∈ ownNames) (h : header ∈ order.assign headers name value) :
    toLowerAscii header.1 ∈ ownNames ∨ header ∈ headers :=
  (IterationOrder.mem_assign h).imp_left fun heq => by rwa [heq]

theorem own_of_mem_addRequestId (h : header ∈ addRequestId order headers requestId) :
    toLowerAscii header.1 ∈ ownNames ∨ header ∈ headers := by
  unfold addRequestId at h
  split_ifs at h
  · exact own_of_mem_assign (by decide) h
  · exact .inr h

theorem own_of_mem_addAccountId (h : header ∈ addAccountId order headers accountId) :
    toLowerAscii header.1 ∈ ownNames ∨ header ∈ headers := by
  unfold addAccountId at h
  split_ifs at h
  · exact own_of_mem_assign (by decide) h
  · exact .inr h

theorem own_of_mem_ensureBeta (h : header ∈ ensureResponsesWebsocketBetaHeader order headers) :
    toLowerAscii header.1 ∈ ownNames ∨ header ∈ headers := by
  obtain rfl | hmem := IterationOrder.mem_assign h
  · left
    rw [lower_gatherBeta (by decide)]
    decide
  · exact .inr (mem_gatherBeta hmem)

theorem lacks_addRequestId {nameLower : Bytes} (hne : ofString "x-request-id" ≠ nameLower)
    (h : Lacks headers nameLower) : Lacks (addRequestId order headers requestId) nameLower := by
  unfold addRequestId
  split_ifs
  · apply h.assign
    rwa [show toLowerAscii (ofString "x-request-id") = ofString "x-request-id" by decide]
  · exact h

theorem named_addRequestId {nameLower : Bytes} (hne : ofString "x-request-id" ≠ nameLower) :
    (named nameLower (addRequestId order headers requestId)).Perm (named nameLower headers) := by
  unfold addRequestId
  split_ifs
  · apply named_assign_of_ne
    rwa [show toLowerAscii (ofString "x-request-id") = ofString "x-request-id" by decide]
  · exact .refl _

theorem named_addAccountId {nameLower : Bytes} (hne : accountIdName ≠ nameLower) :
    (named nameLower (addAccountId order headers accountId)).Perm (named nameLower headers) := by
  unfold addAccountId
  split_ifs
  · apply named_assign_of_ne
    rwa [show toLowerAscii accountIdName = accountIdName by decide]
  · exact .refl _

theorem length_named_addAccountId (h : Lacks headers accountIdName) :
    (named accountIdName (addAccountId order headers accountId)).length ≤ 1 := by
  unfold addAccountId
  split_ifs
  · rw [named_assign_of_lacks (by decide) h]
    rfl
  · rw [named_eq_nil.mpr h]
    exact Nat.zero_le _

theorem named_authorization (h : Lacks headers authorizationName) :
    named authorizationName (order.assign headers (ofString "Authorization") (ofString "Bearer " ++ accessToken)) =
      [(ofString "Authorization", ofString "Bearer " ++ accessToken)] :=
  named_assign_of_lacks (by decide) h

theorem lacks_copied (h : headers.Perm (inbound.filter (copied inbound))) :
    Lacks headers authorizationName ∧ Lacks headers accountIdName := by
  have hsecret : ∀ header ∈ headers, secretName header.1 = false := fun header hmem =>
    copied_not_secret (List.mem_filter.mp (h.mem_iff.mp hmem)).2
  simp only [secretName, Bool.or_eq_false_iff, decide_eq_false_iff_not] at hsecret
  exact ⟨fun header hmem => (hsecret header hmem).1.2, fun header hmem => (hsecret header hmem).2⟩

theorem withholds_of_copied {plan : HeaderMap}
    (h : ∀ header ∈ plan, toLowerAscii header.1 ∈ ownNames ∨ header ∈ inbound.filter (copied inbound)) :
    (∀ header ∈ plan, withheld (toLowerAscii header.1) = false) ∧
      ∀ header ∈ plan, header ∈ inbound → toLowerAscii header.1 ∈ connectionTokens inbound →
        toLowerAscii header.1 ∈ ownNames := by
  have hown : ∀ nameLower ∈ ownNames, withheld nameLower = false := by decide
  constructor
  · intro header hmem
    obtain hname | hcopied := h header hmem
    · exact hown _ hname
    · have hsecret := copied_not_secret (List.mem_filter.mp hcopied).2
      simp only [secretName, Bool.or_eq_false_iff] at hsecret
      exact hsecret.1.1
  · intro header hmem hinbound htoken
    obtain hname | hcopied := h header hmem
    · exact hname
    · exact absurd htoken (copied_not_connection (List.mem_filter.mp hcopied).2)

end Plans

section Plain

variable {order : IterationOrder} {inbound other : HeaderMap} {accessToken accountId accept requestId : Bytes}

theorem buildUpstreamHeaders_perm (h : SameBesides inbound other) :
    (buildUpstreamHeaders order inbound accessToken accountId accept requestId).Perm
      (buildUpstreamHeaders order other accessToken accountId accept requestId) := by
  have hplain : (plainHeaders order inbound).Perm (plainHeaders order other) :=
    plainHeaders_perm.trans ((copied_perm h).trans plainHeaders_perm.symm)
  exact addAccountId_perm (assign_perm (assign_perm (assign_perm (addRequestId_perm hplain))))

theorem named_beta_plain :
    (named betaName (buildUpstreamHeaders order inbound accessToken accountId accept requestId)).Perm
      (named betaName (inbound.filter (copied inbound))) :=
  (named_addAccountId (by decide)).trans <| (named_assign_of_ne (by decide)).trans <|
    (named_assign_of_ne (by decide)).trans <| (named_assign_of_ne (by decide)).trans <|
      (named_addRequestId (by decide)).trans (named_perm plainHeaders_perm)

theorem buildUpstreamHeaders_hygienic (hbeta : (named betaName (inbound.filter (copied inbound))).length ≤ 1) :
    Hygienic inbound accessToken (buildUpstreamHeaders order inbound accessToken accountId accept requestId) := by
  obtain ⟨hauthorization, haccount⟩ := lacks_copied (@plainHeaders_perm order inbound)
  have hnamed : named authorizationName (buildUpstreamHeaders order inbound accessToken accountId accept requestId) =
      [(ofString "Authorization", ofString "Bearer " ++ accessToken)] := by
    apply List.perm_singleton.mp
    rw [← @named_authorization order _ _ (@lacks_addRequestId order _ requestId _ (by decide) hauthorization)]
    exact (named_addAccountId (by decide)).trans <| (named_assign_of_ne (by decide)).trans <|
      named_assign_of_ne (by decide)
  have hmem : ∀ header ∈ buildUpstreamHeaders order inbound accessToken accountId accept requestId,
      toLowerAscii header.1 ∈ ownNames ∨ header ∈ inbound.filter (copied inbound) := by
    intro header h
    obtain hown | h := own_of_mem_addAccountId h
    · exact .inl hown
    obtain hown | h := own_of_mem_assign (by decide) h
    · exact .inl hown
    obtain hown | h := own_of_mem_assign (by decide) h
    · exact .inl hown
    obtain hown | h := own_of_mem_assign (by decide) h
    · exact .inl hown
    exact (own_of_mem_addRequestId h).imp_right plainHeaders_perm.mem_iff.mp
  obtain ⟨hwithholds, hconnection⟩ := withholds_of_copied hmem
  refine ⟨by rw [hnamed]; rfl, ?_, named_beta_plain.length_eq ▸ hbeta, hwithholds, hconnection⟩
  · apply length_named_addAccountId
    apply Lacks.assign _ (by decide)
    apply Lacks.assign _ (by decide)
    apply Lacks.assign _ (by decide)
    exact lacks_addRequestId (by decide) haccount

end Plain

section Websocket

variable {order : IterationOrder} {inbound other : HeaderMap} {accessToken accountId requestId : Bytes}

def websocketStart (order : IterationOrder) (inbound : HeaderMap) (accessToken accountId requestId : Bytes) :
    HeaderMap :=
  addAccountId order
    (order.assign (addRequestId order (forwardedHeaders order inbound) requestId) (ofString "Authorization")
      (ofString "Bearer " ++ accessToken))
    accountId

theorem websocketStart_perm (h : SameBesides inbound other) :
    (websocketStart order inbound accessToken accountId requestId).Perm
      (websocketStart order other accessToken accountId requestId) := by
  have hforwarded : (forwardedHeaders order inbound).Perm (forwardedHeaders order other) :=
    forwardedHeaders_perm.trans ((copied_perm h).trans forwardedHeaders_perm.symm)
  exact addAccountId_perm (assign_perm (addRequestId_perm hforwarded))

theorem length_named_beta_start (hbeta : (named betaName (inbound.filter (copied inbound))).length ≤ 1) :
    (named betaName (websocketStart order inbound accessToken accountId requestId)).length ≤ 1 := by
  have hperm : (named betaName (websocketStart order inbound accessToken accountId requestId)).Perm
      (named betaName (inbound.filter (copied inbound))) :=
    (named_addAccountId (by decide)).trans <| (named_assign_of_ne (by decide)).trans <|
      (named_addRequestId (by decide)).trans (named_perm forwardedHeaders_perm)
  exact hperm.length_eq ▸ hbeta

theorem buildUpstreamWebsocketHeaders_perm (h : SameBesides inbound other)
    (hbeta : (named betaName (inbound.filter (copied inbound))).length ≤ 1) :
    (buildUpstreamWebsocketHeaders order inbound accessToken accountId requestId).Perm
      (buildUpstreamWebsocketHeaders order other accessToken accountId requestId) :=
  ensureBeta_perm (websocketStart_perm h) (length_named_beta_start hbeta)

theorem buildUpstreamWebsocketHeaders_hygienic
    (hbeta : (named betaName (inbound.filter (copied inbound))).length ≤ 1) :
    Hygienic inbound accessToken
      (buildUpstreamWebsocketHeaders order inbound accessToken accountId requestId) := by
  obtain ⟨hauthorization, haccount⟩ := lacks_copied (@forwardedHeaders_perm order inbound)
  have hstart := @length_named_beta_start order _ accessToken accountId requestId hbeta
  have hnamed : named authorizationName
      (buildUpstreamWebsocketHeaders order inbound accessToken accountId requestId) =
      [(ofString "Authorization", ofString "Bearer " ++ accessToken)] := by
    apply List.perm_singleton.mp
    rw [← @named_authorization order _ _ (@lacks_addRequestId order _ requestId _ (by decide) hauthorization)]
    exact (named_ensureBeta_of_ne hstart (by decide)).trans (named_addAccountId (by decide))
  have hmem : ∀ header ∈ buildUpstreamWebsocketHeaders order inbound accessToken accountId requestId,
      toLowerAscii header.1 ∈ ownNames ∨ header ∈ inbound.filter (copied inbound) := by
    intro header h
    obtain hown | h := own_of_mem_ensureBeta h
    · exact .inl hown
    obtain hown | h := own_of_mem_addAccountId h
    · exact .inl hown
    obtain hown | h := own_of_mem_assign (by decide) h
    · exact .inl hown
    exact (own_of_mem_addRequestId h).imp_right forwardedHeaders_perm.mem_iff.mp
  obtain ⟨hwithholds, hconnection⟩ := withholds_of_copied hmem
  refine ⟨by rw [hnamed]; rfl, ?_, length_ensureBeta hstart, hwithholds, hconnection⟩
  · refine (named_ensureBeta_of_ne hstart (by decide)).length_eq.trans_le ?_
    apply length_named_addAccountId
    apply Lacks.assign _ (by decide)
    exact lacks_addRequestId (by decide) haccount

end Websocket

section Transcribe

variable {order : IterationOrder} {inbound other headers : HeaderMap} {accessToken accountId : Bytes}

theorem foldl_copy_perm (hkeys : (inbound.map Prod.fst).Nodup)
    (hnew : ∀ header ∈ inbound, transcribeHeader header.1 = true → headers.hasKey header.1 = false) :
    (inbound.foldl (copyTranscribeHeader order) headers).Perm
      (inbound.filter (fun header => transcribeHeader header.1) ++ headers) := by
  induction inbound generalizing headers with
  | nil => exact .refl _
  | cons first inbound ih =>
    rw [List.map_cons, List.nodup_cons] at hkeys
    obtain ⟨hfirst, hkeys⟩ := hkeys
    obtain ⟨hnewFirst, hnewRest⟩ := List.forall_mem_cons.mp hnew
    rw [List.foldl_cons, copyTranscribeHeader]
    split_ifs with hcopy
    · rw [List.filter_cons_of_pos (p := fun header : Bytes × Bytes => transcribeHeader header.1) hcopy]
      have hassign : (order.assign headers first.1 first.2).Perm (first :: headers) := by
        rw [IterationOrder.assign, if_neg (by simp [hnewFirst hcopy])]
        exact order.perm _
      refine (ih hkeys ?_).trans ((hassign.append_left _).trans List.perm_middle)
      intro header hmem hheader
      rw [hasKey_perm hassign, HeaderMap.hasKey, List.any_cons, Bool.or_eq_false_iff, decide_eq_false_iff_not]
      exact ⟨fun heq => hfirst (heq ▸ List.mem_map_of_mem hmem), hnewRest header hmem hheader⟩
    · rw [List.filter_cons_of_neg (p := fun header : Bytes × Bytes => transcribeHeader header.1) hcopy]
      exact ih hkeys hnewRest

def transcribeStart (order : IterationOrder) (accessToken accountId : Bytes) : HeaderMap :=
  addAccountId order (order.assign [] (ofString "Authorization") (ofString "Bearer " ++ accessToken)) accountId

theorem own_of_mem_transcribeStart {header : Bytes × Bytes} (h : header ∈ transcribeStart order accessToken accountId) :
    toLowerAscii header.1 ∈ ownNames := by
  obtain hown | h := own_of_mem_addAccountId h
  · exact hown
  obtain hown | h := own_of_mem_assign (by decide) h
  · exact hown
  cases h

theorem not_own_of_transcribe {name : Bytes} (h : transcribeHeader name = true) : toLowerAscii name ∉ ownNames := by
  have hown : ∀ nameLower ∈ ownNames,
      (nameLower = ofString "user-agent" || startsWith nameLower (ofString "x-openai-") ||
      startsWith nameLower (ofString "x-codex-")) = false := by decide
  intro hmem
  rw [transcribeHeader, hown _ hmem] at h
  cases h

theorem transcribe_perm (hkeys : (inbound.map Prod.fst).Nodup) :
    (buildUpstreamTranscribeHeaders order inbound accessToken accountId).Perm
      (inbound.filter (fun header => transcribeHeader header.1) ++ transcribeStart order accessToken accountId) := by
  apply foldl_copy_perm hkeys
  intro header hmem hheader
  rw [HeaderMap.hasKey, Bool.eq_false_iff, ne_eq, List.any_eq_true]
  rintro ⟨own, hown, heq⟩
  have hname := own_of_mem_transcribeStart hown
  rw [of_decide_eq_true heq] at hname
  exact not_own_of_transcribe hheader hname

theorem startsWith_of_disjoint {text start other : Bytes} (h : startsWith text start = true)
    (hstart : startsWith start other = false) (hother : startsWith other start = false) :
    startsWith text other = false := by
  rw [Bool.eq_false_iff]
  intro hmatch
  rw [startsWith, List.isPrefixOf_iff_prefix] at h hmatch
  rw [startsWith, Bool.eq_false_iff, ne_eq, List.isPrefixOf_iff_prefix] at hstart hother
  obtain hle | hle := Nat.le_total start.length other.length
  · exact hother (List.prefix_of_prefix_length_le h hmatch hle)
  · exact hstart (List.prefix_of_prefix_length_le hmatch h hle)

theorem secret_of_start {name start : Bytes} (h : startsWith (toLowerAscii name) start = true)
    (hwithheld : ∀ other ∈ [ofString "x-forwarded-", ofString "cf-", tightropeStart],
      startsWith start other = false ∧ startsWith other start = false)
    (hnames : ∀ other ∈ [cookieName, ofString "forwarded", authorizationName, accountIdName],
      startsWith other start = false) : secretName name = false := by
  have hprefix : ∀ other ∈ [ofString "x-forwarded-", ofString "cf-", tightropeStart],
      startsWith (toLowerAscii name) other = false := fun other hmem =>
    startsWith_of_disjoint h (hwithheld other hmem).1 (hwithheld other hmem).2
  have hname : ∀ other ∈ [cookieName, ofString "forwarded", authorizationName, accountIdName],
      toLowerAscii name ≠ other := by
    rintro other hmem rfl
    rw [hnames _ hmem] at h
    cases h
  simp only [List.forall_mem_cons] at hprefix hname
  simp [secretName, withheld, hprefix, hname]

theorem transcribe_not_secret {header : Bytes × Bytes} (h : transcribeHeader header.1 = true) :
    secretName header.1 = false := by
  simp only [transcribeHeader, Bool.or_eq_true, decide_eq_true_eq] at h
  obtain (hname | hopenai) | hcodex := h
  · rw [secretName, hname]
    decide
  · exact secret_of_start hopenai (by decide) (by decide)
  · exact secret_of_start hcodex (by decide) (by decide)

theorem buildUpstreamTranscribeHeaders_perm (hkeys : (inbound.map Prod.fst).Nodup) (hother : (other.map Prod.fst).Nodup)
    (h : SameBesides inbound other) :
    (buildUpstreamTranscribeHeaders order inbound accessToken accountId).Perm
      (buildUpstreamTranscribeHeaders order other accessToken accountId) :=
  (transcribe_perm hkeys).trans <|
    ((filter_perm_of_not_secret h fun _ => transcribe_not_secret).append_right _).trans (transcribe_perm hother).symm

theorem named_transcribe {nameLower : Bytes} (hkeys : (inbound.map Prod.fst).Nodup) (hown : nameLower ∈ ownNames) :
    (named nameLower (buildUpstreamTranscribeHeaders order inbound accessToken accountId)).Perm
      (named nameLower (transcribeStart order accessToken accountId)) := by
  have hnone : named nameLower (inbound.filter fun header => transcribeHeader header.1) = [] := by
    rw [named_eq_nil]
    rintro header hmem rfl
    exact not_own_of_transcribe (List.mem_filter.mp hmem).2 hown
  have hnamed := @named_perm _ _ nameLower (@transcribe_perm order _ accessToken accountId hkeys)
  rwa [named_append, hnone, List.nil_append] at hnamed

def NoTranscribeToken (inbound : HeaderMap) : Prop :=
  ∀ header ∈ inbound, transcribeHeader header.1 = true → toLowerAscii header.1 ∉ connectionTokens inbound

theorem buildUpstreamTranscribeHeaders_hygienic (hkeys : (inbound.map Prod.fst).Nodup)
    (htokens : NoTranscribeToken inbound) :
    Hygienic inbound accessToken (buildUpstreamTranscribeHeaders order inbound accessToken accountId) := by
  have hauthorization : (named authorizationName (transcribeStart order accessToken accountId)) =
      [(ofString "Authorization", ofString "Bearer " ++ accessToken)] := by
    apply List.perm_singleton.mp
    rw [← @named_authorization order [] _ (fun header hmem => absurd hmem List.not_mem_nil)]
    exact named_addAccountId (by decide)
  have hmem : ∀ header ∈ buildUpstreamTranscribeHeaders order inbound accessToken accountId,
      header ∈ inbound ∧ transcribeHeader header.1 = true ∨ toLowerAscii header.1 ∈ ownNames := by
    intro header h
    obtain hcopied | hstart := List.mem_append.mp ((transcribe_perm hkeys).mem_iff.mp h)
    · exact .inl (List.mem_filter.mp hcopied)
    · exact .inr (own_of_mem_transcribeStart hstart)
  constructor
  · have hnamed : (named authorizationName (buildUpstreamTranscribeHeaders order inbound accessToken accountId)).Perm
        [(ofString "Authorization", ofString "Bearer " ++ accessToken)] :=
      hauthorization ▸ named_transcribe hkeys (by decide)
    rw [List.perm_singleton.mp hnamed]
    rfl
  · rw [(named_transcribe hkeys (by decide)).length_eq]
    apply length_named_addAccountId
    apply Lacks.assign _ (by decide)
    exact fun header hmem => absurd hmem List.not_mem_nil
  · rw [(named_transcribe hkeys (by decide)).length_eq]
    have hnone : (named betaName (transcribeStart order accessToken accountId)).Perm [] :=
      (named_addAccountId (by decide)).trans (named_assign_of_ne (by decide))
    rw [hnone.length_eq]
    exact Nat.zero_le _
  · intro header h
    obtain ⟨-, hcopied⟩ | hown := hmem header h
    · have hsecret := transcribe_not_secret hcopied
      simp only [secretName, Bool.or_eq_false_iff] at hsecret
      exact hsecret.1.1
    · have hwithheld : ∀ nameLower ∈ ownNames, withheld nameLower = false := by decide
      exact hwithheld _ hown
  · intro header h hinbound htoken
    obtain ⟨-, hcopied⟩ | hown := hmem header h
    · exact absurd htoken (htokens header hinbound hcopied)
    · exact hown

theorem noTranscribeToken_of_hygienic (hkeys : (inbound.map Prod.fst).Nodup)
    (h : Hygienic inbound accessToken (buildUpstreamTranscribeHeaders order inbound accessToken accountId)) :
    NoTranscribeToken inbound := by
  intro header hmem hcopied htoken
  have hplan : header ∈ buildUpstreamTranscribeHeaders order inbound accessToken accountId :=
    (transcribe_perm hkeys).mem_iff.mpr (List.mem_append_left _ (List.mem_filter.mpr ⟨hmem, hcopied⟩))
  exact not_own_of_transcribe hcopied (h.connection header hplan hmem htoken)

end Transcribe

section Result

variable (order : IterationOrder) (inbound : HeaderMap)

/-- No second spelling of the beta header that is forwarded, and no header of the transcription list named as a token of
a Connection header. -/
structure CleanInbound (inbound : HeaderMap) : Prop where
  beta : (named betaName inbound).length ≤ 1 ∨ betaName ∈ connectionTokens inbound
  transcribe : NoTranscribeToken inbound

/-- Which inbound maps every builder makes a clean plan of, one that shows nothing of what the proxy withholds. -/
theorem upstream_headers_hygienic_iff (hkeys : (inbound.map Prod.fst).Nodup) :
    (∀ accessToken accountId accept requestId : Bytes,
      Hygienic inbound accessToken (buildUpstreamHeaders order inbound accessToken accountId accept requestId) ∧
      Hygienic inbound accessToken (buildUpstreamWebsocketHeaders order inbound accessToken accountId requestId) ∧
      Hygienic inbound accessToken (buildUpstreamTranscribeHeaders order inbound accessToken accountId) ∧
      ∀ other : HeaderMap, (other.map Prod.fst).Nodup → SameBesides inbound other →
        (buildUpstreamHeaders order inbound accessToken accountId accept requestId).Perm
          (buildUpstreamHeaders order other accessToken accountId accept requestId) ∧
        (buildUpstreamWebsocketHeaders order inbound accessToken accountId requestId).Perm
          (buildUpstreamWebsocketHeaders order other accessToken accountId requestId) ∧
        (buildUpstreamTranscribeHeaders order inbound accessToken accountId).Perm
          (buildUpstreamTranscribeHeaders order other accessToken accountId)) ↔
      CleanInbound inbound := by
  have hcopied : (named betaName (inbound.filter (copied inbound))).length ≤ 1 ↔
      (named betaName inbound).length ≤ 1 ∨ betaName ∈ connectionTokens inbound := by
    rw [named_beta_copied]
    split_ifs with htoken
    · simp [htoken]
    · simp [htoken]
  constructor
  · intro h
    obtain ⟨hplain, -, htranscribe, -⟩ := h [] [] [] []
    exact ⟨hcopied.mp (named_beta_plain.length_eq ▸ hplain.beta), noTranscribeToken_of_hygienic hkeys htranscribe⟩
  · intro h accessToken accountId accept requestId
    have hbeta := hcopied.mpr h.beta
    refine ⟨buildUpstreamHeaders_hygienic hbeta, buildUpstreamWebsocketHeaders_hygienic hbeta,
      buildUpstreamTranscribeHeaders_hygienic hkeys h.transcribe, fun other hother hsame => ⟨?_, ?_, ?_⟩⟩
    · exact buildUpstreamHeaders_perm hsame
    · exact buildUpstreamWebsocketHeaders_perm hsame hbeta
    · exact buildUpstreamTranscribeHeaders_perm hkeys hother hsame

def browserHeaders : HeaderMap :=
  [(ofString "User-Agent", ofString "codex"), (ofString "Cookie", ofString "a=b"),
    (ofString "OpenAI-Beta", ofString "responses=v1"), (ofString "Connection", ofString "keep-alive")]

theorem cookie_stays_behind :
    Hygienic browserHeaders (ofString "token")
      (buildUpstreamHeaders .insertionOrder browserHeaders (ofString "token") [] (ofString "*/*") []) :=
  ((upstream_headers_hygienic_iff .insertionOrder browserHeaders (by decide)).mpr
    ⟨.inl (by decide), by unfold NoTranscribeToken; decide⟩ (ofString "token") [] (ofString "*/*") []).1

def twoSpellings : HeaderMap :=
  [(ofString "OpenAI-Beta", ofString "a"), (ofString "openai-beta", ofString "b"),
    (ofString "Connection", ofString "X-Codex-Trace"), (ofString "X-Codex-Trace", ofString "1")]

theorem two_spellings_are_not_merged :
    (named betaName (buildUpstreamHeaders .insertionOrder twoSpellings [] [] [] [])).length = 2 ∧
      (ofString "X-Codex-Trace", ofString "1") ∈ buildUpstreamTranscribeHeaders .insertionOrder twoSpellings [] [] ∧
      ofString "x-codex-trace" ∈ connectionTokens twoSpellings := by
  decide

end Result

end Tightrope.Proxy.Openai
