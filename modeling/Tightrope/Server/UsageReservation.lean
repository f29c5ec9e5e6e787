import Tightrope.Db.ApiKeyReservations
import Tightrope.Library.Runs
import Tightrope.Proxy.Headers
import Tightrope.Server.ApiKeyFilter

namespace Tightrope.Server

open Bytes Tightrope.Core Db Proxy Runs Auth.ApiKeys

def requestIdFromHeaders (headers : HeaderMap) : Bytes :=
  let requestId := headers.findCaseInsensitive (ofString "x-request-id")
  if requestId ≠ [] then requestId else headers.findCaseInsensitive (ofString "request-id")

def ensureRequestId (headers : HeaderMap) (generated : Bytes) : Bytes :=
  if requestIdFromHeaders headers = [] then generated else requestIdFromHeaders headers

structure ProxyUsageReservation where
  active : Bool := false
  requestId : Bytes := []
  deriving DecidableEq

def reserveApiKeyUsage (t : ApiKeyTables) (access : ReservationAccess) (policy : ApiKeyModelPolicy)
    (requestId now : Bytes) : ApiKeyTables × ProxyUsageReservation :=
  match nonempty? policy.keyId with
  | none => (t, {})
  | some keyId =>
    if requestId = [] then (t, {})
    else
      let created := t.createApiKeyUsageReservation access keyId requestId now
      (created.1, if created.2.isSome then ⟨true, requestId⟩ else {})

def settleApiKeyUsage (t : ApiKeyTables) (runs : Bool) (reservation : ProxyUsageReservation) (success : Bool)
    (now : Bytes) : ApiKeyTables :=
  if reservation.active = false ∨ reservation.requestId = [] then t
  else (t.transitionApiKeyUsageReservationStatus runs reservation.requestId reservedStatus
    (ofString (if success then "settled" else "released")) now).1

structure KeyHolder where
  policy : ApiKeyModelPolicy
  keyId : Bytes
  keyed : nonempty? policy.keyId = some keyId
  deriving DecidableEq

structure WsRequestContext where
  caller : KeyHolder
  requestId : Bytes
  messageSequence : ℕ := 0
  deriving DecidableEq

namespace WsRequestContext

def nextSequence (c : WsRequestContext) : ℕ := (c.messageSequence + 1) % 2 ^ 64

def messageRequestId (c : WsRequestContext) : Bytes := c.requestId ++ ofString ":" ++ decimal c.nextSequence

end WsRequestContext

structure ProxyRequest where
  caller : KeyHolder
  requestId : Bytes
  deriving DecidableEq

structure StartedRequest where
  request : ProxyRequest
  reservation : ProxyUsageReservation
  answered : Bool := false
  deriving DecidableEq

structure Metering where
  tables : ApiKeyTables
  connections : List WsRequestContext := []
  waiting : List ProxyRequest := []
  started : List StartedRequest := []
  deriving DecidableEq

inductive MeteringStep where
  | http (caller : KeyHolder) (headers : HeaderMap) (generated : Bytes)
  | openSocket (caller : KeyHolder) (headers : HeaderMap) (generated : Bytes)
  | message (connection : ℕ) (queued : Bool)
  | start (waiting : ℕ) (access : ReservationAccess) (now : Bytes)
  | answer (started : ℕ) (runs success : Bool) (now : Bytes)

namespace Metering

def ofKeys (keys : List ApiKeyRow) : Metering where
  tables := { keys, reservations := [], requestIds_nodup := .nil }

def startRequest (m : Metering) (i : ℕ) (request : ProxyRequest) (access : ReservationAccess) (now : Bytes) :
    Metering :=
  let reserved := reserveApiKeyUsage m.tables access request.caller.policy request.requestId now
  { m with
    tables := reserved.1
    waiting := m.waiting.eraseIdx i
    started := m.started ++ [⟨request, reserved.2, false⟩] }

def step (m : Metering) : MeteringStep → Metering
  | .http caller headers generated =>
    { m with waiting := m.waiting ++ [⟨caller, ensureRequestId headers generated⟩] }
  | .openSocket caller headers generated =>
    { m with connections := m.connections ++ [⟨caller, ensureRequestId headers generated, 0⟩] }
  | .message i queued =>
    match m.connections[i]? with
    | none => m
    | some c =>
      { m with
        connections := m.connections.set i { c with messageSequence := c.nextSequence }
        waiting := if queued then m.waiting ++ [⟨c.caller, c.messageRequestId⟩] else m.waiting }
  | .start i access now =>
    match m.waiting[i]? with
    | none => m
    | some request => m.startRequest i request access now
  | .answer i runs success now =>
    match m.started[i]? with
    | none => m
    | some request =>
      if request.answered then m
      else { m with
        tables := settleApiKeyUsage m.tables runs request.reservation success now
        started := m.started.set i { request with answered := true } }

def requests (m : Metering) : List ProxyRequest := m.started.map StartedRequest.request

/-- Every request that was started has a row of its own, of the key of its caller. -/
def Metered (m : Metering) : Prop :=
  (∀ request ∈ m.requests, ∃ row ∈ m.tables.reservations, row.requestId = request.requestId ∧
    m.tables.findApiKeyPk request.caller.keyId = some row.apiKeyId) ∧ (m.requests.map ProxyRequest.requestId).Nodup

def StartsFresh (m : Metering) : MeteringStep → Prop
  | .start i access _ => ∀ request, m.waiting[i]? = some request →
    Reserves m.tables access request.caller.keyId request.requestId
  | _ => True

instance (m : Metering) : ∀ a, Decidable (m.StartsFresh a)
  | .start i access _ =>
    match h : m.waiting[i]? with
    | none => .isTrue fun request hrequest => by simp [h] at hrequest
    | some request =>
      decidable_of_iff (Reserves m.tables access request.caller.keyId request.requestId) (by simp [StartsFresh, h])
  | .http .. | .openSocket .. | .message .. | .answer .. => .isTrue trivial

def RowBecomes (old new : UsageReservationRow) : Prop :=
  new = old ∨ old.status = reservedStatus ∧ isTerminalStatus new.status = true ∧ new.requestId = old.requestId ∧
    new.apiKeyId = old.apiKeyId ∧ new.reservedAt = old.reservedAt

def RowsBecome (before after : List UsageReservationRow) : Prop :=
  ∀ (i : ℕ) (row : UsageReservationRow), before[i]? = some row →
    ∃ row', after[i]? = some row' ∧ RowBecomes row row'

section Tables

variable {t : ApiKeyTables} {access : ReservationAccess} {requestId now : Bytes}
  {rows rows' rows'' : List UsageReservationRow}

theorem reserve_tables (caller : KeyHolder) : (reserveApiKeyUsage t access caller.policy requestId now).1 =
    (t.createApiKeyUsageReservation access caller.keyId requestId now).1 := by
  unfold reserveApiKeyUsage
  rw [caller.keyed]
  by_cases hid : requestId = []
  · simp only [if_pos hid]
    rw [create_of_not_reserves fun h => h.2.1 hid]
  · simp only [if_neg hid]

theorem settle_cases (t : ApiKeyTables) (runs : Bool) (reservation : ProxyUsageReservation) (success : Bool)
    (now : Bytes) : settleApiKeyUsage t runs reservation success now = t ∨ ∃ next, isTerminalStatus next = true ∧
      settleApiKeyUsage t runs reservation success now =
        t.updateStatus reservation.requestId reservedStatus next now := by
  have hterminal : isTerminalStatus (ofString (if success then "settled" else "released")) = true := by
    cases success <;> decide
  rw [settleApiKeyUsage]
  by_cases hskip : reservation.active = false ∨ reservation.requestId = []
  · exact .inl (if_pos hskip)
  · rw [if_neg hskip]
    exact (transition_cases t runs reservation.requestId reservedStatus _ now).imp id fun h => ⟨_, hterminal, h.2⟩

theorem RowBecomes.trans {old mid new : UsageReservationRow} (h : RowBecomes old mid) (h' : RowBecomes mid new) :
    RowBecomes old new := by
  obtain rfl | ⟨hreserved, hterminal, hid, hkey, hat⟩ := h
  · exact h'
  · obtain rfl | ⟨hagain, -⟩ := h'
    · exact .inr ⟨hreserved, hterminal, hid, hkey, hat⟩
    · exact absurd hagain (terminal_ne_reserved hterminal)

theorem RowsBecome.refl (rows : List UsageReservationRow) : RowsBecome rows rows :=
  fun _ row hrow => ⟨row, hrow, .inl rfl⟩

theorem RowsBecome.trans (h : RowsBecome rows rows') (h' : RowsBecome rows' rows'') : RowsBecome rows rows'' := by
  intro i row hrow
  obtain ⟨row', hrow', hbecomes⟩ := h i row hrow
  obtain ⟨row'', hrow'', hbecomes'⟩ := h' i row' hrow'
  exact ⟨row'', hrow'', hbecomes.trans hbecomes'⟩

theorem RowsBecome.append (rows new : List UsageReservationRow) : RowsBecome rows (rows ++ new) := by
  intro i row hrow
  refine ⟨row, ?_, .inl rfl⟩
  rw [List.getElem?_append_left (List.getElem?_eq_some_iff.mp hrow).1, hrow]

theorem rowsBecome_create (keyId : Bytes) : RowsBecome t.reservations
    (t.createApiKeyUsageReservation access keyId requestId now).1.reservations := by
  by_cases h : Reserves t access keyId requestId
  · obtain ⟨_, -, -, hrows⟩ := create_of_reserves h now
    exact hrows ▸ RowsBecome.append _ _
  · rw [create_of_not_reserves h]
    exact .refl _

theorem rowsBecome_settle (runs : Bool) (reservation : ProxyUsageReservation) (success : Bool) (now : Bytes) :
    RowsBecome t.reservations (settleApiKeyUsage t runs reservation success now).reservations := by
  obtain hsame | ⟨next, hterminal, hwritten⟩ := settle_cases t runs reservation success now
  · rw [hsame]
    exact .refl _
  · rw [hwritten]
    intro i row hrow
    let hit : UsageReservationRow → Bool := fun row => row.requestId = reservation.requestId &&
        row.status = reservedStatus
    refine ⟨RowTable.setWhere hit (.withStatus next now) row, ?_, ?_⟩
    · exact (List.getElem?_map ..).trans (congrArg _ hrow)
    · unfold RowTable.setWhere
      split_ifs with hhit
      · obtain ⟨-, hreserved⟩ : row.requestId = reservation.requestId ∧ row.status = reservedStatus := by
          simpa [hit] using hhit
        exact .inr ⟨hreserved, hterminal, rfl, rfl, rfl⟩
      · exact .inl rfl

end Tables

section Steps

variable {m m' : Metering}

theorem rowsBecome_step (m : Metering) (a : MeteringStep) :
    RowsBecome m.tables.reservations (m.step a).tables.reservations := by
  cases a with
  | http caller headers generated => exact .refl _
  | openSocket caller headers generated => exact .refl _
  | message i queued =>
    rw [step]
    cases m.connections[i]? <;> exact .refl _
  | start i access now =>
    rw [step]
    cases m.waiting[i]? with
    | none => exact .refl _
    | some request =>
      change RowsBecome _ (reserveApiKeyUsage m.tables access request.caller.policy request.requestId
        now).1.reservations
      rw [reserve_tables]
      exact rowsBecome_create _
  | answer i runs success now =>
    rw [step]
    cases m.started[i]? with
    | none => exact .refl _
    | some request =>
      simp only
      split_ifs
      · exact .refl _
      · exact rowsBecome_settle runs request.reservation success now

theorem rowsBecome_run (m : Metering) (steps : List MeteringStep) :
    RowsBecome m.tables.reservations (run step m steps).tables.reservations := by
  induction steps generalizing m with
  | nil => exact .refl _
  | cons a steps ih => exact (rowsBecome_step m a).trans (ih (m.step a))

def owners (t : ApiKeyTables) : List (Bytes × ℤ) := t.reservations.map fun row => (row.requestId, row.apiKeyId)

def Owned (t : ApiKeyTables) (request : ProxyRequest) : Prop :=
  ∃ pk, (request.requestId, pk) ∈ owners t ∧ t.findApiKeyPk request.caller.keyId = some pk

theorem metered_iff : m.Metered ↔
    (∀ request ∈ m.requests, Owned m.tables request) ∧ (m.requests.map ProxyRequest.requestId).Nodup := by
  refine and_congr_left fun _ => forall₂_congr fun request _ => ?_
  constructor
  · rintro ⟨row, hrow, hid, hkey⟩
    exact ⟨row.apiKeyId, List.mem_map.mpr ⟨row, hrow, by rw [hid]⟩, hkey⟩
  · rintro ⟨pk, hmem, hkey⟩
    obtain ⟨row, hrow, heq⟩ := List.mem_map.mp hmem
    obtain ⟨hid, rfl⟩ := Prod.mk.inj heq
    exact ⟨row, hrow, hid, hkey⟩

def Ledger (m : Metering) : Prop :=
  ∀ owner ∈ owners m.tables, owner.1 ∈ m.requests.map ProxyRequest.requestId

structure SameLedger (m m' : Metering) : Prop where
  keys : m'.tables.keys = m.tables.keys
  owners : owners m'.tables = owners m.tables
  requests : m'.requests = m.requests

theorem SameLedger.metered (h : SameLedger m m') : m'.Metered ↔ m.Metered := by
  have howned : ∀ request, Owned m'.tables request ↔ Owned m.tables request := by
    intro request
    rw [Owned, Owned, h.owners, ApiKeyTables.findApiKeyPk, ApiKeyTables.findApiKeyPk, h.keys]
  simp only [metered_iff, howned, h.requests]

theorem SameLedger.ledger (h : SameLedger m m') (hm : m.Ledger) : m'.Ledger := by
  rw [Ledger, h.owners, h.requests]
  exact hm

theorem sameLedger_answer (i : ℕ) (runs success : Bool) (now : Bytes) :
    SameLedger m (m.step (.answer i runs success now)) := by
  rw [step]
  cases hrequest : m.started[i]? with
  | none => exact ⟨rfl, rfl, rfl⟩
  | some request =>
    simp only
    split_ifs
    · exact ⟨rfl, rfl, rfl⟩
    · have hrequests : (m.started.set i { request with answered := true }).map StartedRequest.request = m.requests := by
        obtain ⟨hlt, rfl⟩ := List.getElem?_eq_some_iff.mp hrequest
        rw [List.map_set, requests, ← List.getElem_map StartedRequest.request (h := by simpa using hlt),
          List.set_getElem_self]
      obtain hsame | ⟨next, -, hwritten⟩ := settle_cases m.tables runs request.reservation success now
      · rw [hsame]
        exact ⟨rfl, rfl, hrequests⟩
      · rw [hwritten]
        refine ⟨rfl, ?_, hrequests⟩
        exact RowTable.map_field_updateWhere (f := UsageReservationRow.withStatus next now) (fun _ => rfl) _ _

theorem sameLedger_message (i : ℕ) (queued : Bool) : SameLedger m (m.step (.message i queued)) := by
  rw [step]
  cases m.connections[i]? <;> exact ⟨rfl, rfl, rfl⟩

theorem requests_startRequest (i : ℕ) (request : ProxyRequest) (access : ReservationAccess) (now : Bytes) :
    (m.startRequest i request access now).requests = m.requests ++ [request] := by
  simp [startRequest, requests]

theorem startRequest_of_reserves {request : ProxyRequest} {access : ReservationAccess}
    (h : Reserves m.tables access request.caller.keyId request.requestId) (i : ℕ) (now : Bytes) :
    ∃ pk, m.tables.findApiKeyPk request.caller.keyId = some pk ∧
      (m.startRequest i request access now).tables.keys = m.tables.keys ∧
      owners (m.startRequest i request access now).tables = owners m.tables ++ [(request.requestId, pk)] := by
  obtain ⟨pk, hkey, hkeys, hrows⟩ := create_of_reserves h now
  refine ⟨pk, hkey, ?_, ?_⟩
  · rw [startRequest, reserve_tables, hkeys]
  · rw [startRequest, reserve_tables, owners, hrows, List.map_append]
    rfl

theorem Ledger.startRequest (hm : m.Ledger) (i : ℕ) (request : ProxyRequest) (access : ReservationAccess)
    (now : Bytes) :
    (m.startRequest i request access now).Ledger := by
  intro owner hmem
  rw [requests_startRequest, List.map_append]
  by_cases h : Reserves m.tables access request.caller.keyId request.requestId
  · obtain ⟨pk, -, -, howners⟩ := startRequest_of_reserves h i now
    rw [howners] at hmem
    obtain hold | hnew := List.mem_append.mp hmem
    · exact List.mem_append_left _ (hm owner hold)
    · obtain rfl := List.mem_singleton.mp hnew
      exact List.mem_append_right _ List.mem_cons_self
  · rw [Metering.startRequest, reserve_tables, create_of_not_reserves h] at hmem
    exact List.mem_append_left _ (hm owner hmem)

theorem metered_startRequest_iff (hledger : m.Ledger) (hm : m.Metered) (i : ℕ) (request : ProxyRequest)
    (access : ReservationAccess) (now : Bytes) : (m.startRequest i request access now).Metered ↔
      Reserves m.tables access request.caller.keyId request.requestId := by
  obtain ⟨howned, hnodup⟩ := metered_iff.mp hm
  rw [metered_iff, requests_startRequest, List.map_append, List.map_singleton]
  constructor
  · rintro ⟨hall, hdistinct⟩
    by_contra h
    -- Then the row found under the id was made for another request.
    obtain ⟨pk, hmem, -⟩ := hall request (List.mem_append_right _ List.mem_cons_self)
    rw [startRequest, reserve_tables, create_of_not_reserves h] at hmem
    have hearlier := hledger _ hmem
    exact (List.nodup_append.mp hdistinct).2.2 _ hearlier _ List.mem_cons_self rfl
  · intro h
    obtain ⟨pk, hkey, hkeys, howners⟩ := startRequest_of_reserves h i now
    have hfind : ∀ keyId, (m.startRequest i request access now).tables.findApiKeyPk keyId =
        m.tables.findApiKeyPk keyId := by
      intro keyId
      rw [ApiKeyTables.findApiKeyPk, ApiKeyTables.findApiKeyPk, hkeys]
    constructor
    · intro other hother
      rw [Owned, howners, hfind]
      obtain hold | hnew := List.mem_append.mp hother
      · obtain ⟨pk', hmem, hkey'⟩ := howned other hold
        exact ⟨pk', List.mem_append_left _ hmem, hkey'⟩
      · obtain rfl := List.mem_singleton.mp hnew
        exact ⟨pk, List.mem_append_right _ List.mem_cons_self, hkey⟩
    · rw [List.nodup_append]
      refine ⟨hnodup, by simp, ?_⟩
      rintro id hid _ hrequest rfl
      obtain rfl := List.mem_singleton.mp hrequest
      obtain ⟨earlier, hearlier, hsame⟩ := List.mem_map.mp hid
      obtain ⟨pk', hmem, -⟩ := howned earlier hearlier
      obtain ⟨row, hrow, heq⟩ := List.mem_map.mp hmem
      exact reservation?_eq_none.mp h.2.2.2 row hrow ((Prod.mk.inj heq).1.trans hsame)

theorem Ledger.step (hm : m.Ledger) (a : MeteringStep) : (m.step a).Ledger := by
  cases a with
  | http caller headers generated => exact hm
  | openSocket caller headers generated => exact hm
  | message i queued => exact (sameLedger_message i queued).ledger hm
  | answer i runs success now => exact (sameLedger_answer i runs success now).ledger hm
  | start i access now =>
    rw [Metering.step]
    cases m.waiting[i]? with
    | none => exact hm
    | some request => exact hm.startRequest i request access now

theorem metered_step_iff (hledger : m.Ledger) (hm : m.Metered) (a : MeteringStep) :
    (m.step a).Metered ↔ m.StartsFresh a := by
  cases a with
  | http caller headers generated => exact iff_of_true hm trivial
  | openSocket caller headers generated => exact iff_of_true hm trivial
  | message i queued => exact iff_of_true ((sameLedger_message i queued).metered.mpr hm) trivial
  | answer i runs success now => exact iff_of_true ((sameLedger_answer i runs success now).metered.mpr hm) trivial
  | start i access now =>
    rw [step, StartsFresh]
    cases hrequest : m.waiting[i]? with
    | none => exact iff_of_true hm fun request hnone => by cases hnone
    | some request =>
      simp only [metered_startRequest_iff hledger hm, Option.some.injEq, forall_eq']

end Steps

/-- Every request started in a run has its own row exactly when each of them starts fresh; a row's status moves at most
once; and of calls on one row exactly one takes effect, whatever their order, exactly when they are as the condition
says. -/
theorem requests_metered_once_iff (keys : List ApiKeyRow) (m : Metering) (steps : List MeteringStep) (t : ApiKeyTables)
    (row : UsageReservationRow) (hrow : row ∈ t.reservations) (hid : row.requestId ≠ []) (calls : List TransitionCall) :
    (AllStates step Metered (ofKeys keys) steps ↔ AllSteps step StartsFresh (ofKeys keys) steps) ∧
      RowsBecome m.tables.reservations (run step m steps).tables.reservations ∧
      ((∀ order : List TransitionCall, order.Perm calls →
        (t.transitionAll row.requestId order).count true = 1) ↔ TransitionCall.OneTakesEffect row.status calls) := by
  refine ⟨?_, rowsBecome_run m steps, ?_⟩
  · apply allStates_iff_allSteps_of_invariant step Ledger (fun m a hm => hm.step a)
      fun m a hledger hm => metered_step_iff hledger hm a
    · intro owner hmem
      cases hmem
    · exact ⟨fun request hmem => absurd hmem List.not_mem_nil, .nil⟩
  · simp only [transitionAll_eq_answers (reservation?_of_mem hrow) hid]
    exact TransitionCall.count_answers_iff

def sampleCaller (keyId : Bytes) (hne : nonempty? (some keyId) = some keyId) : KeyHolder where
  policy := { keyId := some keyId }
  keyId := keyId
  keyed := hne

def sampleKeys : List ApiKeyRow := [⟨1, [107]⟩, ⟨2, [108]⟩]

def sampleSteps (headers headers' : HeaderMap) : List MeteringStep :=
  [.http (sampleCaller [107] rfl) headers [97], .http (sampleCaller [108] rfl) headers' [98], .start 0 .works [],
    .start 0 .works []]

def sampleTables : ApiKeyTables where
  keys := sampleKeys
  reservations := [{ apiKeyId := 1, requestId := [97] }]
  requestIds_nodup := by decide

theorem settling_and_releasing_meet_once :
    AllStates step Metered (ofKeys sampleKeys) (sampleSteps [] []) ∧
      ∀ order : List TransitionCall, order.Perm
        [{ expectedStatus := reservedStatus, nextStatus := ofString "settled" },
          { expectedStatus := reservedStatus, nextStatus := ofString "released" }] →
        (sampleTables.transitionAll [97] order).count true = 1 := by
  obtain ⟨hmetered, -, honce⟩ := requests_metered_once_iff sampleKeys (ofKeys sampleKeys)
    (sampleSteps [] []) sampleTables
    ⟨1, [97], reservedStatus, [], none⟩ (by decide) (by decide)
    [{ expectedStatus := reservedStatus, nextStatus := ofString "settled" },
      { expectedStatus := reservedStatus, nextStatus := ofString "released" }]
  exact ⟨hmetered.mpr (by decide), honce.mpr (by decide)⟩

theorem shared_request_id_is_not_metered : ¬ AllStates step Metered (ofKeys sampleKeys)
    (sampleSteps [(ofString "x-request-id", [97])] [(ofString "X-Request-Id", [97])]) := by
  rintro ⟨-, -, -, -, -, hnodup⟩
  exact absurd hnodup (by decide)

end Metering

end Tightrope.Server
