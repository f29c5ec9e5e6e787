import Mathlib.Data.List.Perm.Basic
import Tightrope.Library.Bytes
import Tightrope.Library.RowTable

namespace Tightrope.Auth.ApiKeys

open Bytes

def reservedStatus : Bytes := ofString "reserved"

def terminalStatuses : List Bytes := ["settled", "released", "cancelled", "failed"].map ofString

def isTerminalStatus (status : Bytes) : Bool := terminalStatuses.contains status

def isValidStatusTransition (currentStatus nextStatus : Bytes) : Bool :=
  if currentStatus = nextStatus then true
  else if currentStatus = reservedStatus then isTerminalStatus nextStatus
  else false

theorem terminal_of_valid {current next : Bytes} (h : isValidStatusTransition current next = true)
    (hne : next ≠ current) : current = reservedStatus ∧ isTerminalStatus next = true := by
  unfold isValidStatusTransition at h
  split_ifs at h with hsame hreserved
  · exact absurd hsame.symm hne
  · exact ⟨hreserved, h⟩

theorem terminal_ne_reserved {status : Bytes} (h : isTerminalStatus status = true) : status ≠ reservedStatus := by
  rintro rfl
  exact absurd h (by decide)

end Tightrope.Auth.ApiKeys

namespace Tightrope.Db

open Bytes RowTable Auth.ApiKeys

structure ApiKeyRow where
  id : ℤ
  keyId : Bytes
  deriving DecidableEq

-- A row of `api_key_usage_reservations`; the times are those that SQLite writes.
structure UsageReservationRow where
  apiKeyId : ℤ
  requestId : Bytes
  status : Bytes := reservedStatus
  reservedAt : Bytes := []
  settledAt : Option Bytes := none
  deriving DecidableEq

-- `SET status = ?3, settled_at = CASE WHEN ?3 IN (..) THEN datetime('now') ELSE settled_at END`
def UsageReservationRow.withStatus (nextStatus now : Bytes) (row : UsageReservationRow) : UsageReservationRow :=
  { row with
    status := nextStatus
    settledAt := if isTerminalStatus nextStatus then some now else row.settledAt }

structure ApiKeyTables where
  keys : List ApiKeyRow := []
  reservations : List UsageReservationRow := []
  -- `request_id TEXT NOT NULL UNIQUE`
  requestIds_nodup : (reservations.map UsageReservationRow.requestId).Nodup
  deriving DecidableEq

inductive ReservationAccess where
  | closed
  | insertFails
  | readFails
  | works
  deriving DecidableEq

def ReservationAccess.commits : ReservationAccess → Bool
  | .closed | .insertFails => false
  | .readFails | .works => true

namespace ApiKeyTables

variable (t : ApiKeyTables)

def findApiKeyPk (keyId : Bytes) : Option ℤ := (t.keys.find? fun key => key.keyId = keyId).map (·.id)

def reservation? (requestId : Bytes) : Option UsageReservationRow :=
  rowOf UsageReservationRow.requestId requestId t.reservations

def insertReservation (row : UsageReservationRow) (h : t.reservation? row.requestId = none) : ApiKeyTables where
  keys := t.keys
  reservations := t.reservations ++ [row]
  requestIds_nodup := by
    rw [List.map_append, List.map_singleton, List.nodup_append]
    refine ⟨t.requestIds_nodup, by simp, ?_⟩
    intro id hid id' hid'
    obtain rfl := List.mem_singleton.mp hid'
    obtain ⟨old, hold, rfl⟩ := List.mem_map.mp hid
    simpa using List.find?_eq_none.mp h old hold

def getApiKeyUsageReservation (access : ReservationAccess) (requestId : Bytes) : Option UsageReservationRow :=
  if access ≠ .works ∨ requestId = [] then none
  else (t.reservation? requestId).filter fun row => t.keys.any fun key => key.id = row.apiKeyId

def createApiKeyUsageReservation (access : ReservationAccess) (keyId requestId now : Bytes) :
    ApiKeyTables × Option UsageReservationRow :=
  if access = .closed ∨ requestId = [] then (t, none)
  else
    match t.findApiKeyPk keyId with
    | none => (t, none)
    | some apiKeyPk =>
      if h : access.commits = true ∧ t.reservation? requestId = none then
        let created := t.insertReservation { apiKeyId := apiKeyPk, requestId, reservedAt := now } h.2
        (created, created.getApiKeyUsageReservation access requestId)
      else (t, none)

def updateStatus (requestId expectedStatus nextStatus now : Bytes) : ApiKeyTables where
  keys := t.keys
  reservations := updateWhere (fun row => row.requestId = requestId && row.status = expectedStatus)
    (.withStatus nextStatus now) t.reservations
  requestIds_nodup := by
    rw [map_field_updateWhere (g := UsageReservationRow.requestId) (f := .withStatus nextStatus now) fun _ => rfl]
    exact t.requestIds_nodup

def transitionApiKeyUsageReservationStatus (runs : Bool) (requestId expectedStatus nextStatus now : Bytes) :
    ApiKeyTables × Bool :=
  if runs = false ∨ requestId = [] ∨ expectedStatus = [] ∨ nextStatus = [] then (t, false)
  else if isValidStatusTransition expectedStatus nextStatus = false then (t, false)
  else (t.updateStatus requestId expectedStatus nextStatus now,
    t.reservations.any fun row => row.requestId = requestId && row.status = expectedStatus)

end ApiKeyTables

section Lemmas

variable {t : ApiKeyTables} {access : ReservationAccess} {keyId requestId now : Bytes}
  {row : UsageReservationRow}

def Reserves (t : ApiKeyTables) (access : ReservationAccess) (keyId requestId : Bytes) : Prop :=
  access.commits = true ∧ requestId ≠ [] ∧ (t.findApiKeyPk keyId).isSome ∧ t.reservation? requestId = none

instance : Decidable (Reserves t access keyId requestId) := inferInstanceAs (Decidable (_ ∧ _))

theorem create_of_not_reserves (h : ¬ Reserves t access keyId requestId) :
    t.createApiKeyUsageReservation access keyId requestId now = (t, none) := by
  rw [ApiKeyTables.createApiKeyUsageReservation]
  by_cases hclosed : access = .closed ∨ requestId = []
  · exact if_pos hclosed
  · obtain ⟨-, hid⟩ := not_or.mp hclosed
    rw [if_neg hclosed]
    cases hkey : t.findApiKeyPk keyId with
    | none => rfl
    | some apiKeyPk =>
      apply dif_neg
      exact fun hopen => h ⟨hopen.1, hid, by rw [hkey]; rfl, hopen.2⟩

theorem create_of_reserves (h : Reserves t access keyId requestId) (now : Bytes) :
    ∃ apiKeyPk, t.findApiKeyPk keyId = some apiKeyPk ∧
      (t.createApiKeyUsageReservation access keyId requestId now).1.keys = t.keys ∧
      (t.createApiKeyUsageReservation access keyId requestId now).1.reservations =
      t.reservations ++ [{ apiKeyId := apiKeyPk, requestId, reservedAt := now }] := by
  obtain ⟨hcommits, hid, hsome, hnone⟩ := h
  obtain ⟨apiKeyPk, hkey⟩ := Option.isSome_iff_exists.mp hsome
  have hopen : ¬ (access = .closed ∨ requestId = []) := by
    rintro (rfl | hempty)
    · cases hcommits
    · exact hid hempty
  refine ⟨apiKeyPk, hkey, ?_⟩
  rw [ApiKeyTables.createApiKeyUsageReservation, if_neg hopen]
  simp only [hkey, dif_pos (And.intro hcommits hnone)]
  exact ⟨rfl, rfl⟩

theorem reservation?_eq_none : t.reservation? requestId = none ↔ ∀ row ∈ t.reservations, row.requestId ≠ requestId := by
  rw [ApiKeyTables.reservation?, rowOf, List.find?_eq_none]
  simp

theorem reservation?_of_mem (h : row ∈ t.reservations) : t.reservation? row.requestId = some row :=
  rowOf_of_mem UsageReservationRow.requestId t.requestIds_nodup h

theorem transition_cases (t : ApiKeyTables) (runs : Bool) (requestId expected next now : Bytes) :
    (t.transitionApiKeyUsageReservationStatus runs requestId expected next now).1 = t ∨
    isValidStatusTransition expected next = true ∧
      (t.transitionApiKeyUsageReservationStatus runs requestId expected next now).1 =
        t.updateStatus requestId expected next now := by
  unfold ApiKeyTables.transitionApiKeyUsageReservationStatus
  split_ifs with hskip hvalid
  · exact .inl rfl
  · exact .inl rfl
  · exact .inr ⟨by simpa using hvalid, rfl⟩

end Lemmas

section ConcurrentTransitions

structure TransitionCall where
  runs : Bool := true
  expectedStatus : Bytes
  nextStatus : Bytes
  now : Bytes := []
  deriving DecidableEq

def ApiKeyTables.transitionAll (t : ApiKeyTables) (requestId : Bytes) : List TransitionCall → List Bool
  | [] => []
  | c :: calls =>
    let result := t.transitionApiKeyUsageReservationStatus c.runs requestId c.expectedStatus c.nextStatus c.now
    result.2 :: result.1.transitionAll requestId calls

namespace TransitionCall

def admitted (c : TransitionCall) : Bool :=
  c.runs && c.expectedStatus ≠ [] && c.nextStatus ≠ [] && isValidStatusTransition c.expectedStatus c.nextStatus

def applies (c : TransitionCall) (status : Bytes) : Bool := c.admitted && c.expectedStatus = status

def moves (status : Bytes) (calls : List TransitionCall) : List TransitionCall :=
  calls.filter fun c => c.applies status && c.nextStatus ≠ status

def stays (status : Bytes) (calls : List TransitionCall) : List TransitionCall :=
  calls.filter fun c => c.applies status && c.nextStatus = status

/-- Either one call repeats the status and none leaves it, or some leave it and none repeats it or a status to which one
of them goes. -/
def OneTakesEffect (status : Bytes) (calls : List TransitionCall) : Prop :=
  moves status calls = [] ∧ (stays status calls).length = 1 ∨
    moves status calls ≠ [] ∧ stays status calls = [] ∧ ∀ c ∈ moves status calls, stays c.nextStatus calls = []

instance (status : Bytes) (calls : List TransitionCall) : Decidable (OneTakesEffect status calls) :=
  inferInstanceAs (Decidable (_ ∨ _))

def answers (status : Bytes) : List TransitionCall → List Bool
  | [] => []
  | c :: calls => c.applies status :: answers (if c.applies status then c.nextStatus else status) calls

variable {status : Bytes} {calls order : List TransitionCall} {c : TransitionCall}

theorem mem_moves : c ∈ moves status calls ↔ c ∈ calls ∧ c.applies status = true ∧ c.nextStatus ≠ status := by
  simp [moves]

theorem mem_stays : c ∈ stays status calls ↔ c ∈ calls ∧ c.applies status = true ∧ c.nextStatus = status := by
  simp [stays]

theorem valid_of_applies (h : c.applies status = true) :
    c.expectedStatus = status ∧ isValidStatusTransition status c.nextStatus = true := by
  simp only [applies, admitted, Bool.and_eq_true, decide_eq_true_eq] at h
  obtain ⟨⟨-, hvalid⟩, rfl⟩ := h
  exact ⟨rfl, hvalid⟩

theorem moves_of_moved (hc : c.applies status = true) (hne : c.nextStatus ≠ status) (calls : List TransitionCall) :
    moves c.nextStatus calls = [] := by
  have hterminal := (terminal_of_valid (valid_of_applies hc).2 hne).2
  rw [List.eq_nil_iff_forall_not_mem]
  intro other hmem
  obtain ⟨-, happlies, hleaves⟩ := mem_moves.mp hmem
  have hreserved := (terminal_of_valid (valid_of_applies happlies).2 hleaves).1
  exact terminal_ne_reserved hterminal hreserved

theorem count_answers_of_no_moves (h : moves status calls = []) :
    (answers status calls).count true = (stays status calls).length := by
  induction calls with
  | nil => rfl
  | cons c calls ih =>
    have hrest : moves status calls = [] := by
      rw [List.eq_nil_iff_forall_not_mem] at h ⊢
      intro other hmem
      obtain ⟨hin, hother⟩ := mem_moves.mp hmem
      exact h other (mem_moves.mpr ⟨List.mem_cons_of_mem _ hin, hother⟩)
    cases happlies : c.applies status with
    | false => simp [answers, stays, happlies, ih hrest]
    | true =>
      have hstays : c.nextStatus = status := by
        by_contra hne
        have hmem : c ∈ moves status (c :: calls) := mem_moves.mpr ⟨List.mem_cons_self, happlies, hne⟩
        rw [h] at hmem
        cases hmem
      simp [answers, stays, happlies, hstays, ih hrest]

theorem count_answers_of_moves (hmoves : moves status calls ≠ []) (hstays : stays status calls = [])
    (hagain : ∀ c ∈ moves status calls, stays c.nextStatus calls = []) : (answers status calls).count true = 1 := by
  induction calls with
  | nil => exact absurd rfl hmoves
  | cons c calls ih =>
    have htail : ∀ s, stays s (c :: calls) = [] → stays s calls = [] := by
      intro s h
      exact List.sublist_nil.mp (h ▸ (List.sublist_cons_self c calls).filter _)
    cases happlies : c.applies status with
    | false =>
      have hsame : moves status (c :: calls) = moves status calls := by simp [moves, happlies]
      rw [hsame] at hmoves hagain
      have hcount := ih hmoves (htail status hstays) fun other hother => htail _ (hagain other hother)
      simpa [answers, happlies] using hcount
    | true =>
      have hleaves : c.nextStatus ≠ status := by
        intro heq
        have hmem : c ∈ stays status (c :: calls) := mem_stays.mpr ⟨List.mem_cons_self, happlies, heq⟩
        rw [hstays] at hmem
        cases hmem
      have hafter := count_answers_of_no_moves (moves_of_moved happlies hleaves calls)
      rw [htail _ (hagain c (mem_moves.mpr ⟨List.mem_cons_self, happlies, hleaves⟩)), List.length_nil] at hafter
      simp [answers, happlies, hafter]

theorem two_answers {first second : TransitionCall} (hfirst : first ∈ calls) (hsecond : second ∈ calls)
    (hne : second ≠ first) (happlies : first.applies status = true) (hnext : second.applies first.nextStatus = true) :
    ∃ order, order.Perm calls ∧ (answers status order).count true ≠ 1 := by
  refine ⟨first :: second :: (calls.erase first).erase second, ?_, ?_⟩
  · have hrest := List.perm_cons_erase ((List.mem_erase_of_ne hne).mpr hsecond)
    exact ((List.perm_cons_erase hfirst).trans (hrest.cons first)).symm
  · simp [answers, happlies, hnext]

theorem OneTakesEffect.of_perm (hperm : order.Perm calls) (h : OneTakesEffect status calls) :
    OneTakesEffect status order := by
  have hnil : ∀ {f : List TransitionCall → List TransitionCall}, (f order).Perm (f calls) → f calls = [] →
      f order = [] :=
    fun hp h => List.perm_nil.mp (h ▸ hp)
  obtain ⟨hmoves, hstays⟩ | ⟨hmoves, hstays, hagain⟩ := h
  · exact .inl ⟨hnil (f := moves status) (hperm.filter _) hmoves, ((hperm.filter _).length_eq).trans hstays⟩
  · refine .inr ⟨?_, hnil (f := stays status) (hperm.filter _) hstays, ?_⟩
    · intro hempty
      exact hmoves (List.nil_perm.mp (hempty ▸ hperm.filter _))
    · intro c hc
      exact hnil (f := stays c.nextStatus) (hperm.filter _) (hagain c ((hperm.filter _).mem_iff.mp hc))

theorem count_answers_iff :
    (∀ order : List TransitionCall, order.Perm calls → (answers status order).count true = 1) ↔
      OneTakesEffect status calls := by
  constructor
  · intro hall
    by_cases hmoves : moves status calls = []
    · exact .inl ⟨hmoves, count_answers_of_no_moves hmoves ▸ hall calls (.refl _)⟩
    · have hnone : ∀ first ∈ calls, ∀ second ∈ calls, second ≠ first → first.applies status = true →
          second.applies first.nextStatus = true → False := by
        intro first hfirst second hsecond hne happlies hnext
        obtain ⟨order, hperm, hcount⟩ := two_answers hfirst hsecond hne happlies hnext
        exact hcount (hall order hperm)
      obtain ⟨move, hmove⟩ := List.exists_mem_of_ne_nil _ hmoves
      obtain ⟨hmem, hmoveApplies, hleaves⟩ := mem_moves.mp hmove
      refine .inr ⟨hmoves, ?_, ?_⟩
      · rw [List.eq_nil_iff_forall_not_mem]
        intro stay hstay
        obtain ⟨hstayMem, hstayApplies, hnext⟩ := mem_stays.mp hstay
        apply hnone stay hstayMem move hmem ?_ hstayApplies (hnext ▸ hmoveApplies)
        rintro rfl
        exact hleaves hnext
      · intro c hc
        obtain ⟨hcMem, hcApplies, hcLeaves⟩ := mem_moves.mp hc
        rw [List.eq_nil_iff_forall_not_mem]
        intro stay hstay
        obtain ⟨hstayMem, hstayApplies, hnext⟩ := mem_stays.mp hstay
        apply hnone c hcMem stay hstayMem ?_ hcApplies hstayApplies
        rintro rfl
        exact hcLeaves ((valid_of_applies hstayApplies).1.symm.trans (valid_of_applies hcApplies).1)
  · intro h order hperm
    obtain ⟨hmoves, hstays⟩ | ⟨hmoves, hstays, hagain⟩ := h.of_perm hperm
    · rw [count_answers_of_no_moves hmoves, hstays]
    · exact count_answers_of_moves hmoves hstays hagain

end TransitionCall

variable {t : ApiKeyTables} {requestId : Bytes} {row : UsageReservationRow}

theorem transition_eq (hid : requestId ≠ []) (c : TransitionCall) :
    t.transitionApiKeyUsageReservationStatus c.runs requestId c.expectedStatus c.nextStatus c.now =
      if c.admitted then (t.updateStatus requestId c.expectedStatus c.nextStatus c.now,
        t.reservations.any fun row => row.requestId = requestId && row.status = c.expectedStatus)
      else (t, false) := by
  unfold ApiKeyTables.transitionApiKeyUsageReservationStatus TransitionCall.admitted
  by_cases hskip : c.runs = false ∨ requestId = [] ∨ c.expectedStatus = [] ∨ c.nextStatus = []
  · rw [if_pos hskip, if_neg]
    obtain h | h | h | h := hskip
    · simp [h]
    · exact absurd h hid
    · simp [h]
    · simp [h]
  · simp only [not_or, Bool.not_eq_false] at hskip
    obtain ⟨hruns, -, hexpected, hnext⟩ := hskip
    cases hvalid : isValidStatusTransition c.expectedStatus c.nextStatus <;> simp [hruns, hid, hexpected, hnext]

theorem transition_answer (hrow : t.reservation? requestId = some row) (hid : requestId ≠ []) (c : TransitionCall) :
    (t.transitionApiKeyUsageReservationStatus c.runs requestId c.expectedStatus c.nextStatus c.now).2 =
        c.applies row.status ∧
      ∃ row', (t.transitionApiKeyUsageReservationStatus c.runs requestId c.expectedStatus c.nextStatus
          c.now).1.reservation? requestId = some row' ∧
        row'.status = if c.applies row.status then c.nextStatus else row.status := by
  have hkey := key_of_rowOf UsageReservationRow.requestId hrow
  have hany : (t.reservations.any fun row => row.requestId = requestId && row.status = c.expectedStatus) =
      decide (c.expectedStatus = row.status) := by
    rw [Bool.eq_iff_iff, List.any_eq_true]
    constructor
    · rintro ⟨other, hmem, hother⟩
      obtain ⟨hsame, hstatus⟩ : other.requestId = requestId ∧ other.status = c.expectedStatus := by simpa using hother
      have hfound := reservation?_of_mem hmem
      rw [hsame, hrow] at hfound
      obtain rfl := Option.some.inj hfound
      exact decide_eq_true hstatus.symm
    · intro hstatus
      exact ⟨row, mem_of_rowOf _ hrow, by simpa [hkey] using (of_decide_eq_true hstatus).symm⟩
  have hupdate : (t.updateStatus requestId c.expectedStatus c.nextStatus c.now).reservation? requestId =
      some (setWhere (fun row => row.requestId = requestId && row.status = c.expectedStatus)
        (UsageReservationRow.withStatus c.nextStatus c.now) row) := by
    have hkept : ∀ row : UsageReservationRow, (row.withStatus c.nextStatus c.now).requestId =
        row.requestId := fun _ => rfl
    have hrowOf := rowOf_updateWhere UsageReservationRow.requestId hkept
      (fun row => row.requestId = requestId && row.status = c.expectedStatus) requestId t.reservations
    rw [← ApiKeyTables.reservation?, hrow] at hrowOf
    exact hrowOf
  rw [transition_eq hid]
  by_cases hadmitted : c.admitted = true
  · have happlies : c.applies row.status = decide (c.expectedStatus = row.status) := by
      simp [TransitionCall.applies, hadmitted]
    rw [if_pos hadmitted, happlies]
    refine ⟨hany, _, hupdate, ?_⟩
    by_cases hstatus : c.expectedStatus = row.status
    · simp [setWhere, hkey, hstatus, UsageReservationRow.withStatus]
    · simp [setWhere, hstatus, Ne.symm hstatus]
  · have happlies : c.applies row.status = false := by simp [TransitionCall.applies, hadmitted]
    rw [if_neg hadmitted, happlies]
    exact ⟨rfl, row, hrow, rfl⟩

theorem transitionAll_eq_answers (hrow : t.reservation? requestId = some row) (hid : requestId ≠ [])
    (calls : List TransitionCall) : t.transitionAll requestId calls = TransitionCall.answers row.status calls := by
  induction calls generalizing t row with
  | nil => rfl
  | cons c calls ih =>
    obtain ⟨hanswer, row', hrow', hstatus⟩ := transition_answer hrow hid c
    rw [ApiKeyTables.transitionAll, TransitionCall.answers, hanswer, ih hrow', hstatus]

end ConcurrentTransitions

end Tightrope.Db
