import Tightrope.Library.Threads
import Tightrope.Server.AuthController

namespace Tightrope.Server

open Bytes Db Auth.Dashboard Runs Threads

structure Acceptance where
  secret : Bytes
  step : ℤ
  byConfirmation : Bool
  deriving DecidableEq, Repr

structure TotpShared where
  auth : AuthState
  accepted : List Acceptance := []

inductive TotpCall where
  | verifyDashboardTotp (sessionId code : Bytes)
  | confirmTotpSetup (sessionId secret code : Bytes)
  | updateSettings (update : DashboardSettingsUpdate)

inductive TotpPhase where
  | verifying (sessionId code : Bytes)
  | checking (sessionId code : Bytes) (settings : DashboardSettingsRecord)
  | advancing (secret : Bytes) (step : ℤ)
  | creating
  | confirming (sessionId secret code : Bytes)
  | storing (sessionId secret : Bytes) (step : ℤ)
  | erasing (sessionId : Bytes)
  | updating (update : DashboardSettingsUpdate)
  | patching (update : DashboardSettingsUpdate) (settings : DashboardSettingsRecord)
  | writing (patch : DashboardSettingsPatch) (settings : DashboardSettingsRecord)
  | finished

def TotpCall.start : TotpCall → TotpPhase
  | verifyDashboardTotp sessionId code => .verifying sessionId code
  | confirmTotpSetup sessionId secret code => .confirming sessionId secret code
  | updateSettings update => .updating update

section Steps

variable (hmac : Bytes → Bytes → Option Bytes) (strtod : Bytes → Option ℚ)

def AuthState.settings (state : AuthState) : DashboardSettingsRecord := state.store.settings

def totpAct (shared : TotpShared) (phase : TotpPhase) (around : Surroundings) : TotpShared × TotpPhase :=
  match phase with
  | .verifying sessionId code => (shared, .checking sessionId code shared.auth.settings)
  | .checking sessionId code settings =>
    match passwordSession shared.auth.manager sessionId around.sessionMs with
    | .error _ => (shared, .finished)
    | .ok _ =>
      match checkVerification hmac settings code around.codeMs with
      | .error _ => (shared, .finished)
      | .ok (secret, step) => (shared, .advancing secret step)
  | .advancing secret step =>
    match if around.storeFails then none else advanceDashboardTotpLastVerifiedStep step shared.auth.store with
    | none => (shared, .finished)
    | some store =>
      ({ auth := { shared.auth with store := store }, accepted := ⟨secret, step, false⟩ :: shared.accepted }, .creating)
  | .creating => ({ shared with auth := (createSession shared.auth true around).1 }, .finished)
  | .confirming sessionId secret code =>
    match passwordSession shared.auth.manager sessionId around.sessionMs with
    | .error _ => (shared, .finished)
    | .ok _ =>
      match checkConfirmation hmac shared.auth.pending sessionId secret code around.codeMs with
      | .error _ => (shared, .finished)
      | .ok step => (shared, .storing sessionId secret step)
  | .storing sessionId secret step =>
    if around.storeFails then (shared, .finished)
    else
      ({ auth := { shared.auth with store := setDashboardTotpSecret (some secret) shared.auth.store }
         accepted := ⟨secret, step, true⟩ :: shared.accepted },
        .erasing sessionId)
  | .erasing sessionId =>
    ({ shared with auth := { shared.auth with pending := shared.auth.pending.erase sessionId } }, .finished)
  | .updating update => (shared, .patching update shared.auth.settings)
  | .patching update settings =>
    match checkedPatch strtod update settings with
    | .error _ => (shared, .finished)
    | .ok patch => (shared, .writing patch shared.auth.settings)
  | .writing patch settings =>
    if around.storeFails then (shared, .finished)
    else
      ({ shared with
          auth := { shared.auth with store := updateDashboardSettings patch around.stamp settings shared.auth.store } },
        .finished)
  | .finished => (shared, .finished)

def totpStep : State TotpShared TotpPhase → Action TotpCall Surroundings → State TotpShared TotpPhase :=
  step TotpCall.start (totpAct hmac strtod)

end Steps

section Property

def AcceptedOnce (accepted : List Acceptance) : Prop := (accepted.map fun a => (a.secret, a.step)).Nodup

def VerifiedOnce (state : State TotpShared TotpPhase) : Prop :=
  AcceptedOnce (state.shared.accepted.filter fun a => !a.byConfirmation)

/-- A setup stores a secret under which no code has been verified, a verification ends under the secret it has checked,
and a settings update writes the secret and the step that are stored. -/
def KeepsFactor (shared : TotpShared) (phase : TotpPhase) (around : Surroundings) : Prop :=
  match phase with
  | .storing _ secret _ => around.storeFails = false →
      ∀ a ∈ shared.accepted, a.byConfirmation = false → a.secret ≠ secret
  | .advancing secret _ => around.storeFails = false → totpSecretOf shared.auth.settings = some secret
  | .writing _ settings => around.storeFails = false → totpSecretOf settings = totpSecretOf shared.auth.settings ∧
      totpLastVerifiedStepOf settings = totpLastVerifiedStepOf shared.auth.settings
  | _ => True

end Property

section Invariant

variable {hmac : Bytes → Bytes → Option Bytes} {strtod : Bytes → Option ℚ}

def StepCovered (settings : DashboardSettingsRecord) (a : Acceptance) : Prop :=
  totpSecretOf settings = some a.secret → ∃ last, totpLastVerifiedStepOf settings = some last ∧ a.step ≤ last

structure ReplayGuarded (state : State TotpShared TotpPhase) : Prop where
  covered : ∀ a ∈ state.shared.accepted, a.byConfirmation = false → StepCovered state.shared.auth.settings a
  once : VerifiedOnce state

inductive TotpOutcome (shared : TotpShared) : TotpPhase → TotpShared → Prop
  | kept (phase : TotpPhase) (shared' : TotpShared)
      (hsecret : totpSecretOf shared'.auth.settings = totpSecretOf shared.auth.settings)
      (hstep : totpLastVerifiedStepOf shared'.auth.settings = totpLastVerifiedStepOf shared.auth.settings)
      (haccepted : shared'.accepted = shared.accepted) : TotpOutcome shared phase shared'
  | stored (sessionId secret : Bytes) (step : ℤ) (shared' : TotpShared)
      (hunused : ∀ a ∈ shared.accepted, a.byConfirmation = false → a.secret ≠ secret)
      (hsecret : totpSecretOf shared'.auth.settings = some secret)
      (haccepted : shared'.accepted = ⟨secret, step, true⟩ :: shared.accepted) :
      TotpOutcome shared (.storing sessionId secret step) shared'
  | advanced (secret : Bytes) (step : ℤ) (shared' : TotpShared)
      (hstored : totpSecretOf shared.auth.settings = some secret)
      (hnew : (totpLastVerifiedStepOf shared.auth.settings).all (· < step) = true)
      (hsecret : totpSecretOf shared'.auth.settings = totpSecretOf shared.auth.settings)
      (hstep : totpLastVerifiedStepOf shared'.auth.settings = some step)
      (haccepted : shared'.accepted = ⟨secret, step, false⟩ :: shared.accepted) :
      TotpOutcome shared (.advancing secret step) shared'

theorem totpAct_outcome {shared : TotpShared} {phase : TotpPhase} {around : Surroundings}
    (h : KeepsFactor shared phase around) : TotpOutcome shared phase (totpAct hmac strtod shared phase around).1 := by
  cases phase with
  | verifying sessionId code => exact .kept _ _ rfl rfl rfl
  | checking sessionId code settings =>
    simp only [totpAct]
    split
    · exact .kept _ _ rfl rfl rfl
    · split <;> exact .kept _ _ rfl rfl rfl
  | advancing secret step =>
    simp only [totpAct]
    split
    · exact .kept _ _ rfl rfl rfl
    · rename_i store hstore
      split_ifs at hstore with hfails
      simp only [advanceDashboardTotpLastVerifiedStep] at hstore
      split_ifs at hstore with hnew
      obtain rfl := Option.some.inj hstore
      exact .advanced secret step _ (h (by simpa using hfails)) hnew rfl rfl rfl
  | creating => exact .kept _ _ rfl rfl rfl
  | confirming sessionId secret code =>
    simp only [totpAct]
    split
    · exact .kept _ _ rfl rfl rfl
    · split <;> exact .kept _ _ rfl rfl rfl
  | storing sessionId secret step =>
    simp only [totpAct]
    split_ifs with hfails
    · exact .kept _ _ rfl rfl rfl
    · exact .stored sessionId secret step _ (h (by simpa using hfails)) rfl rfl
  | erasing sessionId => exact .kept _ _ rfl rfl rfl
  | updating update => exact .kept _ _ rfl rfl rfl
  | patching update settings =>
    simp only [totpAct]
    split <;> exact .kept _ _ rfl rfl rfl
  | writing patch settings =>
    simp only [totpAct]
    split_ifs with hfails
    · exact .kept _ _ rfl rfl rfl
    · obtain ⟨hsecret, hstep⟩ := h (by simpa using hfails)
      refine .kept _ _ (.trans ?_ hsecret) (.trans ?_ hstep) rfl
      · exact updateDashboardSettings_credential patch _ settings _ (by decide)
      · exact updateDashboardSettings_credential patch _ settings _ (by decide)
  | finished => exact .kept _ _ rfl rfl rfl

theorem TotpOutcome.covered {shared shared' : TotpShared} {phase : TotpPhase} (h : TotpOutcome shared phase shared')
    (hcovered : ∀ a ∈ shared.accepted, a.byConfirmation = false → StepCovered shared.auth.settings a) :
    ∀ a ∈ shared'.accepted, a.byConfirmation = false → StepCovered shared'.auth.settings a := by
  cases h with
  | kept _ _ hsecret hstep haccepted =>
    rw [haccepted]
    intro a ha hverified
    unfold StepCovered
    rw [hsecret, hstep]
    exact hcovered a ha hverified
  | stored sessionId secret step _ hunused hsecret haccepted =>
    rw [haccepted]
    intro a ha hverified hstored
    obtain rfl | ha := List.mem_cons.mp ha
    · cases hverified
    · rw [hsecret, Option.some_inj] at hstored
      exact absurd hstored.symm (hunused a ha hverified)
  | advanced secret step _ hstored hnew hsecret hstep haccepted =>
    rw [haccepted]
    intro a ha hverified hsame
    obtain rfl | ha := List.mem_cons.mp ha
    · exact ⟨step, hstep, le_refl _⟩
    · obtain ⟨last, hlast, hle⟩ := hcovered a ha hverified (hsecret.symm.trans hsame)
      rw [hlast, Option.all_some, decide_eq_true_eq] at hnew
      exact ⟨step, hstep, by omega⟩

theorem TotpOutcome.once {shared shared' : TotpShared} {phase : TotpPhase} (h : TotpOutcome shared phase shared')
    (hcovered : ∀ a ∈ shared.accepted, a.byConfirmation = false → StepCovered shared.auth.settings a)
    (honce : AcceptedOnce (shared.accepted.filter fun a => !a.byConfirmation)) :
    AcceptedOnce (shared'.accepted.filter fun a => !a.byConfirmation) := by
  cases h with
  | kept _ _ hsecret hstep haccepted => rwa [haccepted]
  | stored sessionId secret step _ hunused hsecret haccepted =>
    rw [haccepted, List.filter_cons_of_neg (by simp)]
    exact honce
  | advanced secret step _ hstored hnew hsecret hstep haccepted =>
    rw [haccepted, List.filter_cons_of_pos (by simp)]
    refine List.nodup_cons.mpr ⟨?_, honce⟩
    intro hmem
    obtain ⟨a, ha, hsame⟩ := List.mem_map.mp hmem
    obtain ⟨ha, hverified⟩ := List.mem_filter.mp ha
    obtain ⟨rfl, rfl⟩ := Prod.mk.inj hsame
    obtain ⟨last, hlast, hle⟩ := hcovered a ha (by simpa using hverified) hstored
    rw [hlast, Option.all_some, decide_eq_true_eq] at hnew
    omega

theorem replayGuarded_step {state : State TotpShared TotpPhase} {action : Action TotpCall Surroundings}
    (h : ReplayGuarded state) (hmeets : MoveMeets KeepsFactor state action) :
    ReplayGuarded (totpStep hmac strtod state action) := by
  unfold totpStep
  obtain ⟨call, rfl, hstep⟩ | ⟨i, around, rfl, hnone, hstep⟩ | ⟨i, around, phase, rfl, hphase, hstep⟩ :=
    step_cases TotpCall.start (totpAct hmac strtod) state action
  · rw [hstep]
    exact ⟨h.covered, h.once⟩
  · rw [hstep]
    exact h
  · rw [hstep]
    have houtcome := @totpAct_outcome hmac strtod state.shared phase around (hmeets phase hphase)
    exact ⟨houtcome.covered h.covered, houtcome.once h.covered h.once⟩

end Invariant

section Runs

variable (hmac : Bytes → Bytes → Option Bytes) (strtod : Bytes → Option ℚ)

/-- A step of the second factor is verified at most once in every run in which no setup stores a secret that has been
verified before, no verification ends under another secret than it began with, and no settings update puts an older
secret or step back. -/
theorem step_verified_once (auth : AuthState) {actions : List (Action TotpCall Surroundings)}
    (hactions : AllSteps (totpStep hmac strtod) (MoveMeets KeepsFactor) ⟨{ auth := auth }, []⟩ actions) :
    AllStates (totpStep hmac strtod) VerifiedOnce ⟨{ auth := auth }, []⟩ actions := by
  apply AllStates.mono (totpStep hmac strtod) fun _ => ReplayGuarded.once
  apply allStates_of_step (totpStep hmac strtod) ?_ ?_ hactions
  · intro state action h hmeets
    exact replayGuarded_step h hmeets
  · exact ⟨nofun, List.nodup_nil⟩

def enrolling : AuthState where
  store := freshSettingsStore
  manager := (DashboardSessionManager.new 43200000).create (ofString "a") true false 0
  pending := FlatMap.empty.insert (ofString "a") (base32Encode [1])

def confirmAndVerify : List (Action TotpCall Surroundings) :=
  let around : Surroundings := { codeMs := 60000, newSessionId := ofString "b" }
  [.spawn (.confirmTotpSetup (ofString "a") (base32Encode [1]) (ofString "000000")), .move 0 around, .move 0 around,
    .move 0 around, .spawn (.verifyDashboardTotp (ofString "a") (ofString "000000")), .move 1 around, .move 1 around,
    .move 1 around, .move 1 around]

theorem confirmed_code_verified_once :
    AllStates (totpStep zeroHmac fun _ => none) VerifiedOnce ⟨{ auth := enrolling }, []⟩ confirmAndVerify := by
  apply step_verified_once
  refine ⟨trivial, ?_, ?_, ?_, trivial, ?_, ?_, ?_, ?_, trivial⟩
  · rintro _ ⟨⟩
    trivial
  · rintro _ ⟨⟩ _
    exact nofun
  · rintro _ ⟨⟩
    trivial
  · rintro _ ⟨⟩
    trivial
  · rintro _ ⟨⟩
    trivial
  · rintro _ ⟨⟩ _
    rfl
  · rintro _ ⟨⟩
    trivial

theorem confirmed_code_accepted_twice :
    ¬ AllStates (totpStep zeroHmac fun _ => none) (fun state => AcceptedOnce state.shared.accepted)
      ⟨{ auth := enrolling }, []⟩ confirmAndVerify := by
  intro h
  have honce := AllStates.final _ h
  revert honce
  unfold AcceptedOnce
  decide

end Runs

end Tightrope.Server
