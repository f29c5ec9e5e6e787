import Tightrope.Auth.Oauth.AccountLogins
import Tightrope.Auth.Oauth.OauthService

namespace Tightrope.Auth.Oauth

open Bytes Tightrope.Core Crypto Db Runs Threads

section Definitions

def NoInterference (s : State OauthShared OauthPhase) : Prop :=
  ∀ effect ∈ s.shared.history.effects, effect.current = some effect.flow

def OauthPhase.heldFlow : OauthPhase → Option ℕ
  | polling _ flow _ _ _ => some flow
  | exchanging _ flow _ _ => flow
  | persisting _ flow _ => flow
  | reporting _ flow _ => flow
  | _ => none

def OauthPhase.Polls (shared : OauthShared) : OauthPhase → Prop
  | replacing _ | awaiting _ _ | launching _ | entering _ _ => True
  | checking loop _ | polling loop _ _ _ _ => loop ∉ shared.stopRequested
  | _ => False

def OauthPhase.KeepsApart (s : State OauthShared OauthPhase) : OauthPhase → Prop
  | issuing _ => ∀ other ∈ s.threads, other.heldFlow = none
  | adopting | opening | stopping => ∀ other ∈ s.threads, other.heldFlow = none ∧ ¬ other.Polls s.shared
  | completing given _ => s.shared.state.method = some .device → ∀ deviceAuthId ∈ given.or s.shared.state.deviceAuthId,
      s.shared.history.current = some (s.shared.history.flowOfCode deviceAuthId)
  | receiving callback => ∀ flow ∈ s.shared.history.flowOfToken callback.state, s.shared.history.current = some flow
  | _ => True

def FlowsApart (s : State OauthShared OauthPhase) : Action OauthCall OauthMoment → Prop
  | .spawn _ => True
  | .move i _ => ∀ phase ∈ s.threads[i]?, phase.KeepsApart s

instance (shared : OauthShared) (phase : OauthPhase) : Decidable (phase.Polls shared) := by
  cases phase <;> unfold OauthPhase.Polls <;> infer_instance

instance (s : State OauthShared OauthPhase) (phase : OauthPhase) : Decidable (phase.KeepsApart s) := by
  cases phase <;> unfold OauthPhase.KeepsApart <;> infer_instance

instance (s : State OauthShared OauthPhase) (action : Action OauthCall OauthMoment) :
    Decidable (FlowsApart s action) := by
  cases action <;> unfold FlowsApart <;> infer_instance

end Definitions

section Invariant

structure RecordFits (state : OAuthState) : Prop where
  device : state.method = some .device →
    state.deviceAuthId.isSome = true ∧ state.userCode.isSome = true ∧ state.expiresAt.isSome = true
  other : state.method ≠ some .device → state.expiresAt = none

def CodesCurrent (shared : OauthShared) : Prop :=
  (shared.state.userCode.isSome = true ∧ shared.state.expiresAt.isSome = true) ∧ ∃ deviceAuthId,
    shared.state.deviceAuthId = some deviceAuthId ∧
      shared.history.current = some (shared.history.flowOfCode deviceAuthId)

def HoldsCurrent (shared : OauthShared) (flow : Option ℕ) : Prop :=
  ∀ held, flow = some held → shared.history.current = some held

structure Ready (shared : OauthShared) (phase : OauthPhase) : Prop where
  held : HoldsCurrent shared phase.heldFlow
  polls : phase.Polls shared → CodesCurrent shared

structure Isolated (s : State OauthShared OauthPhase) : Prop where
  record : RecordFits s.shared.state
  ready : ∀ phase ∈ s.threads, Ready s.shared phase
  apart : NoInterference s

structure Kept (shared shared' : OauthShared) : Prop where
  current : shared'.history.current = shared.history.current
  codes : CodesCurrent shared → CodesCurrent shared'
  stops : shared.stopRequested ⊆ shared'.stopRequested
  record : RecordFits shared.state → RecordFits shared'.state
  effects : ∀ effect ∈ shared'.history.effects,
    effect ∈ shared.history.effects ∨ effect.current = some effect.flow

variable {shared shared' shared'' : OauthShared} {phase : OauthPhase} {flow : Option ℕ}

theorem Kept.refl (shared : OauthShared) : Kept shared shared := ⟨rfl, id, fun _ h => h, id, fun _ h => .inl h⟩

theorem Kept.trans (h : Kept shared shared') (h' : Kept shared' shared'') : Kept shared shared'' := by
  refine ⟨h'.current.trans h.current, fun hc => h'.codes (h.codes hc), fun _ hl => h'.stops (h.stops hl),
    fun hr => h'.record (h.record hr), ?_⟩
  intro effect he
  obtain he | he := h'.effects effect he
  · exact h.effects effect he
  · exact .inr he

theorem OauthPhase.Polls.of_stops (hstops : shared.stopRequested ⊆ shared'.stopRequested)
    (h : phase.Polls shared') : phase.Polls shared := by
  cases phase with
  | checking loop flow =>
    intro hmem
    exact h (hstops hmem)
  | polling loop flow deviceAuthId userCode expiresAt =>
    intro hmem
    exact h (hstops hmem)
  | _ => exact h

theorem Ready.kept (h : Ready shared phase) (hkept : Kept shared shared') : Ready shared' phase := by
  constructor
  · intro held hheld
    exact hkept.current.trans (h.held held hheld)
  · intro hpolls
    exact hkept.codes (h.polls (OauthPhase.Polls.of_stops hkept.stops hpolls))

theorem current_record (history : FlowHistory) : (history.record flow).current = history.current := by
  cases flow <;> rfl

theorem flowOfCode_record (history : FlowHistory) (deviceAuthId : Bytes) :
    (history.record flow).flowOfCode deviceAuthId = history.flowOfCode deviceAuthId := by
  cases flow <;> rfl

theorem effects_record {history : FlowHistory} (h : ∀ held, flow = some held → history.current = some held) :
    ∀ effect ∈ (history.record flow).effects, effect ∈ history.effects ∨ effect.current = some effect.flow := by
  intro effect he
  cases flow with
  | none => exact .inl he
  | some held =>
    obtain rfl | he := List.mem_cons.mp he
    · exact .inr (h held rfl)
    · exact .inl he

def OAuthState.codes (state : OAuthState) : Option OAuthMethod × Option Bytes × Option Bytes × Option ℤ :=
  (state.method, state.deviceAuthId, state.userCode, state.expiresAt)

theorem RecordFits.of_codes {state state' : OAuthState} (hcodes : state'.codes = state.codes) (h : RecordFits state) :
    RecordFits state' := by
  simp only [OAuthState.codes, Prod.mk.injEq] at hcodes
  obtain ⟨hmethod, hid, huser, hexpires⟩ := hcodes
  constructor
  · rw [hmethod, hid, huser, hexpires]
    exact h.device
  · rw [hmethod, hexpires]
    exact h.other

theorem kept_of_record (h : HoldsCurrent shared flow) (hhistory : shared'.history = shared.history.record flow)
    (hcodes : shared'.state.codes = shared.state.codes) (hstops : shared.stopRequested ⊆ shared'.stopRequested) :
    Kept shared shared' where
  current := by rw [hhistory, current_record]
  codes := by
    simp only [OAuthState.codes, Prod.mk.injEq] at hcodes
    obtain ⟨-, hid, huser, hexpires⟩ := hcodes
    rintro ⟨hgiven, deviceAuthId, hsome, hcurrent⟩
    refine ⟨by rw [huser, hexpires]; exact hgiven, deviceAuthId, hid.trans hsome, ?_⟩
    rw [hhistory, current_record, flowOfCode_record]
    exact hcurrent
  stops := hstops
  record := RecordFits.of_codes hcodes
  effects := by
    rw [hhistory]
    exact effects_record h

theorem kept_of_codes (hhistory : shared'.history = shared.history) (hcodes : shared'.state.codes = shared.state.codes)
    (hstops : shared.stopRequested ⊆ shared'.stopRequested) : Kept shared shared' := by
  refine kept_of_record ?_ (hhistory.trans rfl : shared'.history = shared.history.record none) hcodes hstops
  exact nofun

theorem kept_setErrorLocked (h : HoldsCurrent shared flow) (message : Bytes) :
    Kept shared (shared.setErrorLocked flow message) := kept_of_record h rfl rfl (List.Subset.refl _)

theorem kept_reportLocked (h : HoldsCurrent shared flow) (errorMessage : Option Bytes) :
    Kept shared (reportLocked shared flow errorMessage) := by
  cases errorMessage with
  | none => exact kept_of_record h rfl rfl (List.Subset.refl _)
  | some message => exact kept_setErrorLocked h message

theorem kept_endLoop (shared : OauthShared) (loop : ℕ) : Kept shared (shared.endLoop loop) :=
  kept_of_codes rfl rfl (List.Subset.refl _)

theorem kept_stopPollThread (shared : OauthShared) : Kept shared shared.stopPollThread :=
  kept_of_codes rfl rfl (List.subset_append_right _ _)

theorem recordFits_overrideCodes (hrecord : RecordFits shared.state) (deviceAuthId userCode : Option Bytes) :
    RecordFits (shared.overrideCodes deviceAuthId userCode).state := by
  constructor
  · intro hmethod
    obtain ⟨hid, huser, hexpires⟩ := hrecord.device hmethod
    refine ⟨?_, ?_, hexpires⟩
    · cases deviceAuthId with
      | none => exact hid
      | some given => rfl
    · cases userCode with
      | none => exact huser
      | some given => rfl
  · exact hrecord.other

theorem codesCurrent_of_device (hrecord : RecordFits shared.state) (hmethod : shared.state.method = some .device)
    (hcurrent : ∀ deviceAuthId, shared.state.deviceAuthId = some deviceAuthId →
      shared.history.current = some (shared.history.flowOfCode deviceAuthId)) : CodesCurrent shared := by
  obtain ⟨hid, hgiven⟩ := hrecord.device hmethod
  obtain ⟨deviceAuthId, hid⟩ := Option.isSome_iff_exists.mp hid
  exact ⟨hgiven, deviceAuthId, hid, hcurrent deviceAuthId hid⟩

theorem device_of_codesCurrent (hrecord : RecordFits shared.state) (h : CodesCurrent shared) :
    shared.state.method = some .device := by
  by_contra hmethod
  have hexpires := h.1.2
  rw [hrecord.other hmethod] at hexpires
  cases hexpires

theorem kept_overrideCodes (hrecord : RecordFits shared.state) {given : Option Bytes} (userCode : Option Bytes)
    (hcurrent : shared.state.method = some .device → ∀ deviceAuthId,
      given.or shared.state.deviceAuthId = some deviceAuthId →
        shared.history.current = some (shared.history.flowOfCode deviceAuthId)) :
    Kept shared (shared.overrideCodes given userCode) where
  current := rfl
  codes := by
    intro hcodes
    have hmethod := device_of_codesCurrent hrecord hcodes
    exact codesCurrent_of_device (recordFits_overrideCodes hrecord given userCode) hmethod (hcurrent hmethod)
  stops := fun _ h => h
  record := fun h => recordFits_overrideCodes h given userCode
  effects := fun _ h => .inl h

theorem ready_idle (hheld : phase.heldFlow = none) (hidle : ¬ phase.Polls shared) : Ready shared phase := by
  constructor
  · intro held h
    rw [hheld] at h
    cases h
  · exact fun h => absurd h hidle

theorem completeLocked_ready (hrecord : RecordFits shared.state) (now : ℤ)
    (hcurrent : shared.state.method = some .device → ∀ deviceAuthId, shared.state.deviceAuthId = some deviceAuthId →
      shared.history.current = some (shared.history.flowOfCode deviceAuthId)) :
    Kept shared (completeLocked shared now).1 ∧ Ready (completeLocked shared now).1 (completeLocked shared now).2 := by
  unfold completeLocked
  split_ifs with hsuccess hmethod hactive
  · exact ⟨.refl shared, ready_idle rfl id⟩
  · exact ⟨.refl shared, ready_idle rfl id⟩
  · exact ⟨.refl shared, ready_idle rfl id⟩
  · rw [not_not] at hmethod
    split
    · rename_i deviceAuthId userCode expiresAt hid huser hexpires
      have hflow := hcurrent hmethod deviceAuthId hid
      dsimp only
      split_ifs
      · refine ⟨kept_setErrorLocked ?_ deviceExpired, ready_idle rfl id⟩
        rintro held ⟨⟩
        exact hflow
      · have hcodes := codesCurrent_of_device hrecord hmethod (hcurrent hmethod)
        exact ⟨kept_of_codes rfl rfl (List.Subset.refl _), nofun, fun _ => hcodes⟩
    · rename_i hmissing
      obtain ⟨hid, huser, hexpires⟩ := hrecord.device hmethod
      obtain ⟨deviceAuthId, hid⟩ := Option.isSome_iff_exists.mp hid
      obtain ⟨userCode, huser⟩ := Option.isSome_iff_exists.mp huser
      obtain ⟨expiresAt, hexpires⟩ := Option.isSome_iff_exists.mp hexpires
      exact absurd hexpires (hmissing deviceAuthId userCode expiresAt hid huser)

theorem enterAct_ready {loop held : ℕ} (h : CodesCurrent shared) :
    Kept shared (enterAct shared loop held).1 ∧ Ready (enterAct shared loop held).1 (enterAct shared loop held).2 := by
  have hcodes := h
  obtain ⟨⟨huser, hexpires⟩, deviceAuthId, hid, hcurrent⟩ := h
  obtain ⟨userCode, huser⟩ := Option.isSome_iff_exists.mp huser
  obtain ⟨expiresAt, hexpires⟩ := Option.isSome_iff_exists.mp hexpires
  simp only [enterAct, hid, huser, hexpires]
  refine ⟨.refl shared, ?_, fun _ => hcodes⟩
  rintro held ⟨⟩
  exact hcurrent

theorem replaceAct_ready {held : ℕ} (h : CodesCurrent shared) :
    Kept shared (replaceAct shared held).1 ∧ Ready (replaceAct shared held).1 (replaceAct shared held).2 := by
  unfold replaceAct
  split
  · exact ⟨.refl shared, nofun, fun _ => h⟩
  · exact ⟨kept_of_codes rfl rfl (List.subset_cons_self _ _), nofun, fun _ => h⟩

theorem pollAct_ready {loop held : ℕ} (hheld : shared.history.current = some held)
    (hcodes : loop ∉ shared.stopRequested → CodesCurrent shared) (result : DeviceTokenPollResult) :
    Ready shared (pollAct loop held result) := by
  have hjob : HoldsCurrent shared (some held) := by
    rintro _ ⟨⟩
    exact hheld
  unfold pollAct
  split
  · exact ⟨nofun, hcodes⟩
  · exact ⟨hjob, nofun⟩
  · exact ⟨hjob, nofun⟩
  · exact ⟨hjob, nofun⟩
  · exact ⟨hjob, nofun⟩

theorem receiveAct_ready {callback : Callback}
    (h : ∀ held, shared.history.flowOfToken callback.state = some held → shared.history.current = some held) :
    Kept shared (receiveAct shared callback).1 ∧
      Ready (receiveAct shared callback).1 (receiveAct shared callback).2 := by
  simp only [receiveAct]
  split_ifs
  · exact ⟨kept_setErrorLocked h _, ready_idle rfl id⟩
  · exact ⟨.refl shared, h, nofun⟩
  · exact ⟨.refl shared, h, nofun⟩

theorem reportAct_ready (h : HoldsCurrent shared flow) (job : Job) (errorMessage : Option Bytes) :
    Kept shared (reportAct shared job flow errorMessage).1 ∧
      Ready (reportAct shared job flow errorMessage).1 (reportAct shared job flow errorMessage).2 := by
  cases job with
  | callback callback => exact ⟨kept_reportLocked h errorMessage, ready_idle rfl id⟩
  | loop loop => exact ⟨(kept_reportLocked h errorMessage).trans (kept_endLoop _ loop), ready_idle rfl id⟩

variable {cipher : TokenCipher} {decodeBase64 : Bytes → Option Bytes} {json : JsonLibrary}

theorem persistAct_ready (h : HoldsCurrent shared flow) (job : Job) (call : PersistCall) :
    Kept shared (persistAct cipher decodeBase64 json shared job flow call).1 ∧
      Ready (persistAct cipher decodeBase64 json shared job flow call).1
        (persistAct cipher decodeBase64 json shared job flow call).2 := by
  simp only [persistAct]
  split_ifs
  · have hkept : Kept shared
        { shared with
          accounts := (persistTokens cipher decodeBase64 json shared.accounts call).1
          history := shared.history.record flow } := kept_of_record h rfl rfl (List.Subset.refl _)
    refine ⟨hkept, ?_, nofun⟩
    intro held hheld
    exact hkept.current.trans (h held hheld)
  · exact ⟨kept_of_codes rfl rfl (List.Subset.refl _), h, nofun⟩

def OauthPhase.Renews : OauthPhase → Prop
  | issuing _ | adopting | opening | stopping => True
  | _ => False

theorem oauthAct_ready {s : State OauthShared OauthPhase} (hrecord : RecordFits s.shared.state)
    (hready : Ready s.shared phase) (hapart : phase.KeepsApart s) (hother : ¬ phase.Renews) (moment : OauthMoment) :
    Kept s.shared (oauthAct cipher decodeBase64 json s.shared phase moment).1 ∧
      Ready (oauthAct cipher decodeBase64 json s.shared phase moment).1
        (oauthAct cipher decodeBase64 json s.shared phase moment).2 := by
  cases phase with
  | starting method =>
    refine ⟨.refl _, ?_⟩
    simp only [oauthAct, startAct]
    split_ifs <;> exact ready_idle rfl id
  | adopting => exact absurd trivial hother
  | requesting =>
    refine ⟨.refl _, ?_⟩
    simp only [oauthAct, requestAct]
    split <;> exact ready_idle rfl id
  | issuing code => exact absurd trivial hother
  | halting caller => exact ⟨kept_stopPollThread _, ready_idle rfl id⟩
  | joining caller loop =>
    simp only [oauthAct]
    split_ifs
    · exact ⟨.refl _, ready_idle rfl id⟩
    · cases caller <;> exact ⟨.refl _, ready_idle rfl id⟩
  | opening => exact absurd trivial hother
  | stopping => exact absurd trivial hother
  | completing deviceAuthId userCode =>
    have hkept := kept_overrideCodes hrecord userCode hapart
    have hcompleted := completeLocked_ready (recordFits_overrideCodes hrecord deviceAuthId userCode) moment.now hapart
    exact ⟨hkept.trans hcompleted.1, hcompleted.2⟩
  | replacing flow => exact replaceAct_ready (hready.polls trivial)
  | awaiting loop flow =>
    have hcodes := hready.polls trivial
    simp only [oauthAct]
    split_ifs
    · exact ⟨kept_of_codes rfl rfl (List.Subset.refl _), nofun, fun _ => hcodes⟩
    · exact ⟨.refl _, nofun, fun _ => hcodes⟩
  | launching flow =>
    have hcodes := hready.polls trivial
    exact ⟨kept_of_codes rfl rfl (List.Subset.refl _), nofun, fun _ => hcodes⟩
  | checking loop flow =>
    simp only [oauthAct]
    split_ifs with hstop
    · exact ⟨kept_of_codes rfl rfl (List.Subset.refl _), ready_idle rfl id⟩
    · exact ⟨.refl _, nofun, fun _ => hready.polls hstop⟩
  | entering loop flow => exact enterAct_ready (hready.polls trivial)
  | polling loop flow deviceAuthId userCode expiresAt =>
    simp only [oauthAct]
    split_ifs
    · exact ⟨.refl _, hready.held, nofun⟩
    · exact ⟨.refl _, pollAct_ready (hready.held flow rfl) hready.polls moment.poll⟩
  | receiving callback => exact receiveAct_ready hapart
  | exchanging job flow code codeVerifier =>
    refine ⟨.refl _, ?_⟩
    simp only [oauthAct, exchangeAct]
    split <;> exact ⟨hready.held, nofun⟩
  | persisting job flow tokens => exact persistAct_ready hready.held job _
  | reporting job flow errorMessage => exact reportAct_ready hready.held job errorMessage
  | finished reply => exact ⟨.refl _, ready_idle rfl id⟩

theorem recordFits_stop (h : RecordFits shared.state) : RecordFits shared.stop.state := by
  have hmarked : RecordFits (OauthShared.markStopped shared.state) := by
    unfold OauthShared.markStopped
    split_ifs
    · exact ⟨h.device, h.other⟩
    · exact h
  exact ⟨hmarked.device, hmarked.other⟩

theorem isolated_renewed {s : State OauthShared OauthPhase} {i : ℕ} {reply : OauthReply} (h : Isolated s)
    (hrecord : RecordFits shared'.state) (hothers : ∀ other ∈ s.threads, Ready shared' other)
    (heffects : shared'.history.effects = s.shared.history.effects) :
    Isolated ⟨shared', s.threads.set i (.finished reply)⟩ := by
  refine ⟨hrecord, ?_, ?_⟩
  · intro other hmem
    obtain hold | rfl := List.mem_or_eq_of_mem_set hmem
    · exact hothers other hold
    · exact ready_idle rfl id
  · intro effect he
    exact h.apart effect (heffects ▸ he)

theorem isolated_idle {s : State OauthShared OauthPhase} {i : ℕ} {reply : OauthReply} (h : Isolated s)
    (hidle : ∀ other ∈ s.threads, other.heldFlow = none ∧ ¬ other.Polls s.shared) (hrecord : RecordFits shared'.state)
    (hstops : s.shared.stopRequested ⊆ shared'.stopRequested)
    (heffects : shared'.history.effects = s.shared.history.effects) :
    Isolated ⟨shared', s.threads.set i (.finished reply)⟩ := by
  apply isolated_renewed h hrecord ?_ heffects
  intro other hmem
  obtain ⟨hheld, hpolls⟩ := hidle other hmem
  exact ready_idle hheld fun h' => hpolls (OauthPhase.Polls.of_stops hstops h')

theorem codesCurrent_startDevice (shared : OauthShared) (code : DeviceCodePayload) (now : ℤ) :
    CodesCurrent (shared.startDevice code now) := by
  refine ⟨⟨rfl, rfl⟩, code.deviceAuthId, rfl, ?_⟩
  simp [OauthShared.startDevice, FlowHistory.current, FlowHistory.begin, FlowHistory.flowOfCode]

theorem isolated_step {s : State OauthShared OauthPhase} {action : Action OauthCall OauthMoment} (h : Isolated s)
    (hapart : FlowsApart s action) : Isolated (oauthStep cipher decodeBase64 json s action) := by
  unfold oauthStep
  obtain ⟨call, rfl, hstep⟩ | ⟨i, moment, rfl, hnone, hstep⟩ | ⟨i, moment, phase, rfl, hphase, hstep⟩ :=
    step_cases OauthCall.begin (oauthAct cipher decodeBase64 json) s action
  · rw [hstep]
    refine ⟨h.record, ?_, h.apart⟩
    intro phase hmem
    obtain hold | hnew := List.mem_append.mp hmem
    · exact h.ready phase hold
    · rw [List.mem_singleton.mp hnew]
      cases call <;> exact ready_idle rfl id
  · rw [hstep]
    exact h
  · rw [hstep]
    have hkeeps := hapart phase hphase
    by_cases hrenews : phase.Renews
    · cases phase with
      | issuing code =>
        have hrecord : RecordFits (s.shared.startDevice code moment.now).state :=
          ⟨fun _ => ⟨rfl, rfl, rfl⟩, fun hmethod => absurd rfl hmethod⟩
        have hothers : ∀ other ∈ s.threads, Ready (s.shared.startDevice code moment.now) other := by
          intro other hmem
          refine ⟨?_, fun _ => codesCurrent_startDevice s.shared code moment.now⟩
          intro held hheld
          rw [hkeeps other hmem] at hheld
          cases hheld
        exact isolated_renewed h hrecord hothers rfl
      | adopting => exact isolated_idle h hkeeps ⟨nofun, fun _ => rfl⟩ (fun _ hl => hl) rfl
      | opening => exact isolated_idle h hkeeps ⟨nofun, fun _ => rfl⟩ (fun _ hl => hl) rfl
      | stopping => exact isolated_idle h hkeeps (recordFits_stop h.record) (fun _ hl => hl) rfl
      | _ => exact absurd hrenews id
    · have hready := h.ready phase (List.mem_of_getElem? hphase)
      obtain ⟨hkept, hmover⟩ := oauthAct_ready h.record hready hkeeps hrenews moment
      refine ⟨hkept.record h.record, ?_, ?_⟩
      · intro other hmem
        obtain hold | rfl := List.mem_or_eq_of_mem_set hmem
        · exact (h.ready other hold).kept hkept
        · exact hmover
      · intro effect he
        obtain hold | hcurrent := hkept.effects effect he
        · exact h.apart effect hold
        · exact hcurrent

end Invariant

section Runs

variable (cipher : TokenCipher) (decodeBase64 : Bytes → Option Bytes) (json : JsonLibrary)

/-- In every run whose steps keep the flows apart, accounts and statuses are written only for the current flow. -/
theorem flows_do_not_interfere (accounts : AccountTable) {actions : List (Action OauthCall OauthMoment)}
    (hactions : AllSteps (oauthStep cipher decodeBase64 json) FlowsApart ⟨{ accounts := accounts }, []⟩ actions) :
    AllStates (oauthStep cipher decodeBase64 json) NoInterference ⟨{ accounts := accounts }, []⟩ actions := by
  apply AllStates.mono (oauthStep cipher decodeBase64 json) fun _ => Isolated.apart
  apply allStates_of_step (oauthStep cipher decodeBase64 json) ?_ ?_ hactions
  · intro s action h hapart
    exact isolated_step h hapart
  · exact ⟨⟨nofun, fun _ => rfl⟩, nofun, nofun⟩

end Runs

section Samples

def movesOf (thread : ℕ) (moments : List OauthMoment) : List (Action OauthCall OauthMoment) :=
  moments.map (.move thread)

def deviceFlow : List (Action OauthCall OauthMoment) :=
  .spawn (.start (ofString "device")) ::
    movesOf 0 [{}, { deviceCode := .ok ⟨ofString "user", ofString "device", 600⟩ }, {}]

def completion (thread : ℕ) : List (Action OauthCall OauthMoment) :=
  .spawn (.complete none none) ::
    movesOf thread [{}, {}, {}, {}, {}, { poll := .tokens (some namelessA.tokens) }, {}, {}]

def stopping (thread : ℕ) : List (Action OauthCall OauthMoment) := .spawn .stop :: movesOf thread [{}, {}, {}]

def sampleOauthStep : State OauthShared OauthPhase → Action OauthCall OauthMoment → State OauthShared OauthPhase :=
  oauthStep loginCipher sampleDecode sampleJson

theorem completed_flow_is_current : AllStates sampleOauthStep NoInterference ⟨{ accounts := .empty }, []⟩
    (deviceFlow ++ completion 1 ++ stopping 2) := by
  apply flows_do_not_interfere
  decide +kernel

theorem stopped_flow_is_persisted : ¬ AllStates sampleOauthStep NoInterference ⟨{ accounts := .empty }, []⟩
    (deviceFlow ++ stopping 1 ++ completion 2) := by
  intro h
  have hfinal := AllStates.final _ h
  revert hfinal
  unfold NoInterference
  decide +kernel

end Samples

end Tightrope.Auth.Oauth
