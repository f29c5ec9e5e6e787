import Tightrope.Library.Fallible
import Tightrope.Library.Runs
import Tightrope.Server.AuthController

namespace Tightrope.Server

open Bytes Db Auth.Dashboard Fallible Runs

structure AuthRun where
  auth : AuthState
  created : List Bytes := []
  passed : List Bytes := []

structure AuthAction where
  call : AuthCall
  around : Surroundings := {}

def AuthCall.sessionId : AuthCall → Option Bytes
  | .getDashboardAuthSession sessionId => some sessionId
  | .startTotpSetup sessionId => some sessionId
  | .confirmTotpSetup sessionId _ _ => some sessionId
  | .verifyDashboardTotp sessionId _ => some sessionId
  | .logoutDashboard sessionId => some sessionId
  | .setupDashboardPassword _ => none
  | .loginDashboardPassword _ => none

def AuthAction.reportedSession (action : AuthAction) : Option Bytes :=
  match action.call with
  | .getDashboardAuthSession sessionId => some sessionId
  | .confirmTotpSetup sessionId _ _ => some sessionId
  | .setupDashboardPassword _ => some action.around.newSessionId
  | .loginDashboardPassword _ => some action.around.newSessionId
  | .verifyDashboardTotp _ _ => some action.around.newSessionId
  | .startTotpSetup _ => none
  | .logoutDashboard _ => none

section Property

variable (hashing : PasswordHashing) (hmac : Bytes → Bytes → Option Bytes)

def passes (state : AuthState) (call : AuthCall) (around : Surroundings) : Bool :=
  around.refusal.isNone &&
    match call with
    | .confirmTotpSetup sessionId secret code => (passConfirmation hmac state sessionId secret code around).isOk
    | .verifyDashboardTotp sessionId code => (passVerification hmac state sessionId code around).isOk
    | _ => false

def AuthRun.answer (run : AuthRun) (action : AuthAction) : AuthState × DashboardAuthResponse :=
  authCall hashing hmac run.auth action.call action.around

def authRunStep (run : AuthRun) (action : AuthAction) : AuthRun :=
  let answered := { run with auth := (run.answer hashing hmac action).1 }
  match action.call with
  | .verifyDashboardTotp sessionId _ =>
    if passes hmac run.auth action.call action.around then
      { answered with
        created := action.around.newSessionId :: run.created
        passed := action.around.newSessionId :: sessionId :: run.passed }
    else answered
  | _ => answered

def freshProcess (store : SettingsStore) (ttlMs : ℤ) : AuthRun :=
  { auth := { store := store, manager := .new ttlMs } }

/-- A stored second factor stays where the session of the call has never passed it. -/
def SecretKept (run : AuthRun) (action : AuthAction) : Prop :=
  totpConfigured run.auth.store.settings = true →
    (∀ sessionId, action.call.sessionId = some sessionId → sessionId ∉ run.passed) →
      totpSecretOf (run.answer hashing hmac action).1.store.settings = totpSecretOf run.auth.store.settings

/-- Where a password is configured and a second factor is required, only a session that `verify_dashboard_totp` has
created is reported authenticated. -/
def ReportsVerified (run : AuthRun) (action : AuthAction) : Prop :=
  passwordRequired (authRunStep hashing hmac run action).auth.store.settings = true →
    (authRunStep hashing hmac run action).auth.store.settings .totpRequiredOnLogin = true →
      (run.answer hashing hmac action).2.session.authenticated = true →
        ∃ sessionId, action.reportedSession = some sessionId ∧
          sessionId ∈ (authRunStep hashing hmac run action).created

/-- A setup that a session which has never passed the second factor completes finds none stored, or its own. -/
def CompletesFirst (run : AuthRun) (action : AuthAction) : Prop :=
  match action.call with
  | .confirmTotpSetup sessionId secret _ =>
    sessionId ∉ run.passed → passes hmac run.auth action.call action.around = true →
      totpConfigured run.auth.store.settings = true → totpSecretOf run.auth.store.settings = some secret
  | _ => True

end Property

section Outcomes

variable {hashing : PasswordHashing} (hmac : Bytes → Bytes → Option Bytes)

inductive AuthOutcome (state : AuthState) (around : Surroundings) : AuthCall → AuthState × DashboardAuthResponse → Prop
  | refused (call : AuthCall) (response : DashboardAuthResponse) (hsession : response.session = {})
      (hpasses : passes hmac state call around = false) : AuthOutcome state around call (state, response)
  | reported (sessionId : Bytes) : AuthOutcome state around (.getDashboardAuthSession sessionId)
      (state, getDashboardAuthSession state sessionId around.refusal around.reportMs)
  | passwordSet (password hash : Bytes) : AuthOutcome state around (.setupDashboardPassword password)
      (createSession { state with store := setDashboardPasswordHash (some hash) state.store } false around)
  | loggedIn (password : Bytes) : AuthOutcome state around (.loginDashboardPassword password)
      (createSession state false around)
  | started (sessionId secret : Bytes) (response : DashboardAuthResponse) (hsession : response.session = {}) :
      AuthOutcome state around (.startTotpSetup sessionId)
        ({ state with pending := state.pending.insert sessionId secret }, response)
  | confirmed (sessionId secret code : Bytes)
      (hpasses : passes hmac state (.confirmTotpSetup sessionId secret code) around = true) (stored : AuthState)
      (hstored : stored =
        { state with
          store := setDashboardTotpSecret (some secret) state.store
          pending := state.pending.erase sessionId }) :
      AuthOutcome state around (.confirmTotpSetup sessionId secret code)
        (stored, getDashboardAuthSession stored sessionId around.reportRefusal around.reportMs)
  | verified (sessionId code : Bytes) (store : SettingsStore)
      (hpasses : passes hmac state (.verifyDashboardTotp sessionId code) around = true)
      (hsecret : totpSecretOf store.settings = totpSecretOf state.store.settings) :
      AuthOutcome state around (.verifyDashboardTotp sessionId code)
        (createSession { state with store := store } true around)
  | loggedOut (sessionId : Bytes) : AuthOutcome state around (.logoutDashboard sessionId)
      (logoutDashboard state sessionId, { status := 200 })

variable {hmac} {state : AuthState} {around : Surroundings}

theorem totpSecret_passVerification {sessionId code : Bytes} {store : SettingsStore}
    (h : passVerification hmac state sessionId code around = .ok store) :
    totpSecretOf store.settings = totpSecretOf state.store.settings := by
  obtain ⟨_, -, h⟩ := bind_eq_ok.mp h
  obtain ⟨⟨secret, step⟩, -, h⟩ := bind_eq_ok.mp h
  simp only at h
  split at h
  · cases h
  · rename_i advanced hadvanced
    cases h
    split_ifs at hadvanced
    simp only [advanceDashboardTotpLastVerifiedStep] at hadvanced
    split_ifs at hadvanced
    obtain rfl := Option.some.inj hadvanced
    rfl

theorem passwordSession_error {manager : DashboardSessionManager} {sessionId : Bytes} {nowMs : ℤ}
    {response : DashboardAuthResponse} (h : passwordSession manager sessionId nowMs = .error response) :
    response.session = {} := by
  unfold passwordSession at h
  split at h
  · cases h
    rfl
  · split_ifs at h
    cases h
    rfl

theorem passConfirmation_error {sessionId secret code : Bytes} {response : DashboardAuthResponse}
    (h : passConfirmation hmac state sessionId secret code around = .error response) : response.session = {} := by
  obtain hsession | ⟨_, -, h⟩ := bind_eq_error.mp h
  · exact passwordSession_error hsession
  · obtain hcode | ⟨_, -, h⟩ := bind_eq_error.mp h
    · unfold checkConfirmation at hcode
      split_ifs at hcode
      · cases hcode
        rfl
      · split at hcode <;> cases hcode
        rfl
    · split_ifs at h
      cases h
      rfl

theorem passVerification_error {sessionId code : Bytes} {response : DashboardAuthResponse}
    (h : passVerification hmac state sessionId code around = .error response) : response.session = {} := by
  obtain hsession | ⟨_, -, h⟩ := bind_eq_error.mp h
  · exact passwordSession_error hsession
  · obtain hcode | ⟨_, -, h⟩ := bind_eq_error.mp h
    · unfold checkVerification at hcode
      split at hcode
      · cases hcode
        rfl
      · split_ifs at hcode
        · cases hcode
          rfl
        · split at hcode <;> cases hcode
          rfl
    · simp only at h
      split at h <;> cases h
      rfl

theorem authCall_outcome (call : AuthCall) :
    AuthOutcome hmac state around call (authCall hashing hmac state call around) := by
  cases hrefusal : around.refusal with
  | some refusal =>
    have hpasses : passes hmac state call around = false := by simp [passes, hrefusal]
    cases call with
    | getDashboardAuthSession sessionId => exact .reported sessionId
    | logoutDashboard sessionId => exact .loggedOut sessionId
    | _ =>
      simp only [authCall, hrefusal]
      exact .refused _ _ rfl hpasses
  | none =>
    cases call with
    | getDashboardAuthSession sessionId => exact .reported sessionId
    | logoutDashboard sessionId => exact .loggedOut sessionId
    | setupDashboardPassword password =>
      have hpasses : passes hmac state (.setupDashboardPassword password) around = false := by simp [passes]
      simp only [authCall, hrefusal, setupDashboardPassword]
      cases hashPassword hashing around.salt (Core.trimAscii password) with
      | none =>
        simp only
        split_ifs <;> exact .refused _ _ rfl hpasses
      | some hash =>
        simp only
        split_ifs
        · exact .refused _ _ rfl hpasses
        · exact .refused _ _ rfl hpasses
        · exact .refused _ _ rfl hpasses
        · exact .passwordSet password hash
    | loginDashboardPassword password =>
      have hpasses : passes hmac state (.loginDashboardPassword password) around = false := by simp [passes]
      simp only [authCall, hrefusal, loginDashboardPassword]
      split_ifs
      · exact .refused _ _ rfl hpasses
      · exact .refused _ _ rfl hpasses
      · exact .loggedIn password
    | startTotpSetup sessionId =>
      have hpasses : passes hmac state (.startTotpSetup sessionId) around = false := by simp [passes]
      simp only [authCall, hrefusal, startTotpSetup]
      cases hsession : passwordSession state.manager sessionId around.sessionMs with
      | error response => exact .refused _ _ (passwordSession_error hsession) hpasses
      | ok session =>
        simp only
        split_ifs
        · exact .refused _ _ rfl hpasses
        · exact .refused _ _ rfl hpasses
        · exact .started sessionId _ _ rfl
    | confirmTotpSetup sessionId secret code =>
      simp only [authCall, hrefusal, confirmTotpSetup]
      cases hpass : passConfirmation hmac state sessionId secret code around with
      | error response =>
        exact .refused _ _ (passConfirmation_error hpass) (by simp [passes, hpass, Except.isOk, Except.toBool])
      | ok result =>
        exact .confirmed sessionId secret code (by simp [passes, hrefusal, hpass, Except.isOk, Except.toBool]) _ rfl
    | verifyDashboardTotp sessionId code =>
      simp only [authCall, hrefusal, verifyDashboardTotp]
      cases hpass : passVerification hmac state sessionId code around with
      | error response =>
        exact .refused _ _ (passVerification_error hpass) (by simp [passes, hpass, Except.isOk, Except.toBool])
      | ok store =>
        exact .verified sessionId code store (by simp [passes, hrefusal, hpass, Except.isOk, Except.toBool])
          (totpSecret_passVerification hpass)

end Outcomes

section Steps

variable {hashing : PasswordHashing} {hmac : Bytes → Bytes → Option Bytes} {run : AuthRun} {action : AuthAction}

theorem answer_outcome : AuthOutcome hmac run.auth action.around action.call (run.answer hashing hmac action) :=
  authCall_outcome action.call

theorem secretKept_iff : SecretKept hashing hmac run action ↔ CompletesFirst hmac run action := by
  have houtcome := @answer_outcome hashing hmac run action
  obtain ⟨call, around⟩ := action
  unfold SecretKept CompletesFirst
  generalize run.answer hashing hmac ⟨call, around⟩ = answer at houtcome ⊢
  simp only at houtcome ⊢
  cases houtcome with
  | refused _ response hsession hpasses => cases call <;> simp [hpasses]
  | confirmed sessionId secret code hpasses stored hstored =>
    subst hstored
    simp only [hpasses, AuthCall.sessionId, Option.some.injEq, forall_eq', true_implies]
    constructor
    · intro h hnever hconfigured
      exact (h hconfigured hnever).symm
    · intro h hconfigured hnever
      exact (h hnever hconfigured).symm
  | verified sessionId code store hpasses hsecret => exact iff_of_true (fun _ _ => hsecret) trivial
  | loggedOut sessionId =>
    refine iff_of_true (fun _ _ => ?_) trivial
    unfold logoutDashboard
    split_ifs <;> rfl
  | _ => exact iff_of_true (fun _ _ => rfl) trivial

def VerifiedCreated (run : AuthRun) : Prop :=
  ∀ sessionId session, run.auth.manager.sessions.find? sessionId = some session → session.totpVerified = true →
    sessionId ∈ run.created

theorem authRunStep_auth : (authRunStep hashing hmac run action).auth = (run.answer hashing hmac action).1 := by
  unfold authRunStep
  split
  · split_ifs <;> rfl
  · rfl

theorem created_subset : run.created ⊆ (authRunStep hashing hmac run action).created := by
  unfold authRunStep
  split
  · split_ifs
    · exact List.subset_cons_self _ _
    · exact List.Subset.refl _
  · exact List.Subset.refl _

theorem created_of_passes (hcall : ∃ sessionId code, action.call = .verifyDashboardTotp sessionId code)
    (hpasses : passes hmac run.auth action.call action.around = true) :
    action.around.newSessionId ∈ (authRunStep hashing hmac run action).created := by
  obtain ⟨sessionId, code, hcall⟩ := hcall
  rw [hcall] at hpasses
  simp [authRunStep, hcall, hpasses]

theorem find?_createSession (state : AuthState) (totpVerified : Bool) (around : Surroundings) (sessionId : Bytes) :
    (createSession state totpVerified around).1.manager.sessions.find? sessionId =
      if sessionId = around.newSessionId then
        some ⟨around.createdMs + state.manager.ttlMs, true, totpVerified⟩
      else state.manager.sessions.find? sessionId := by
  change (state.manager.sessions.insert around.newSessionId _).find? sessionId = _
  rw [FlatMap.find?_insert]
  split_ifs <;> rfl

theorem verifiedCreated_step (h : VerifiedCreated run) : VerifiedCreated (authRunStep hashing hmac run action) := by
  intro sessionId session hfound hverified
  have hold : run.auth.manager.sessions.find? sessionId = some session →
      sessionId ∈ (authRunStep hashing hmac run action).created := by
    intro hfound
    exact created_subset (h sessionId session hfound hverified)
  have hnew := @created_of_passes hashing hmac run action
  have houtcome := @answer_outcome hashing hmac run action
  rw [authRunStep_auth] at hfound
  generalize run.answer hashing hmac action = answer at houtcome hfound
  obtain ⟨call, around⟩ := action
  simp only at houtcome
  cases houtcome with
  | passwordSet password hash =>
    rw [find?_createSession] at hfound
    split_ifs at hfound
    · cases hfound
      cases hverified
    · exact hold hfound
  | loggedIn password =>
    rw [find?_createSession] at hfound
    split_ifs at hfound
    · cases hfound
      cases hverified
    · exact hold hfound
  | confirmed sessionId secret code hpasses stored hstored =>
    subst hstored
    exact hold hfound
  | verified sessionId code store hpasses hsecret =>
    rw [find?_createSession] at hfound
    split_ifs at hfound with heq
    · exact heq ▸ hnew ⟨sessionId, code, rfl⟩ hpasses
    · exact hold hfound
  | loggedOut sessionId =>
    simp only [logoutDashboard, DashboardSessionManager.erase] at hfound
    split_ifs at hfound
    · exact hold hfound
    · rw [FlatMap.find?_erase] at hfound
      split_ifs at hfound
      exact hold hfound
  | _ => exact hold hfound

theorem answer_session : (run.answer hashing hmac action).2.session = {} ∨ ∃ sessionId nowMs,
    action.reportedSession = some sessionId ∧ (run.answer hashing hmac action).2.session =
      buildSessionPayload (run.answer hashing hmac action).1.store.settings
        ((run.answer hashing hmac action).1.manager.get sessionId nowMs) := by
  have hreport : ∀ (state : AuthState) (sessionId : Bytes) (refusal : Option Refusal) (nowMs : ℤ),
      (getDashboardAuthSession state sessionId refusal nowMs).session = {} ∨
        (getDashboardAuthSession state sessionId refusal nowMs).session =
          buildSessionPayload state.store.settings (state.manager.get sessionId nowMs) := by
    intro state sessionId refusal nowMs
    cases refusal with
    | none => exact .inr rfl
    | some refusal => exact .inl rfl
  have houtcome := @answer_outcome hashing hmac run action
  generalize run.answer hashing hmac action = answer at houtcome ⊢
  obtain ⟨call, around⟩ := action
  simp only at houtcome
  cases houtcome with
  | refused _ response hsession hpasses => exact .inl hsession
  | started sessionId secret response hsession => exact .inl hsession
  | loggedOut sessionId => exact .inl rfl
  | reported sessionId => exact (hreport _ _ _ _).imp id fun h => ⟨sessionId, _, rfl, h⟩
  | confirmed sessionId secret code hpasses stored hstored =>
    exact (hreport _ _ _ _).imp id fun h => ⟨sessionId, _, rfl, h⟩
  | _ => exact (hreport _ _ _ _).imp id fun h => ⟨around.newSessionId, _, rfl, h⟩

theorem reportsVerified_of_created (h : VerifiedCreated (authRunStep hashing hmac run action)) :
    ReportsVerified hashing hmac run action := by
  intro hpassword hrequired hauthenticated
  obtain hrefused | ⟨sessionId, nowMs, hreported, hsession⟩ := @answer_session hashing hmac run action
  · rw [hrefused] at hauthenticated
    cases hauthenticated
  · rw [hsession, ← authRunStep_auth] at hauthenticated
    obtain ⟨session, hget, hverified⟩ := verified_of_authenticated hpassword hrequired hauthenticated
    exact ⟨sessionId, hreported, h sessionId session (DashboardSessionManager.get_eq_some hget) hverified⟩

end Steps

section Sessions

/-- Only a session that has passed the second factor replaces it, in the runs in which every setup that another session
completes finds none stored; and only a session that has passed it is reported authenticated where it is required. -/
theorem second_factor_kept_iff (hashing : PasswordHashing) (hmac : Bytes → Bytes → Option Bytes) (store : SettingsStore)
    (ttlMs : ℤ) (actions : List AuthAction) :
    (AllSteps (authRunStep hashing hmac) (SecretKept hashing hmac) (freshProcess store ttlMs) actions ↔
      AllSteps (authRunStep hashing hmac) (CompletesFirst hmac) (freshProcess store ttlMs) actions) ∧
    AllSteps (authRunStep hashing hmac) (ReportsVerified hashing hmac) (freshProcess store ttlMs) actions := by
  constructor
  · apply allSteps_congr
    intro run action
    exact secretKept_iff
  · apply allSteps_of_step (authRunStep hashing hmac) (P := fun _ _ => True) (Q := VerifiedCreated)
    · intro run action h _
      have hnext := @verifiedCreated_step hashing hmac run action h
      exact ⟨hnext, reportsVerified_of_created hnext⟩
    · intro sessionId session hfound _
      cases hfound
    · exact allSteps_of_forall _ fun _ _ => trivial

def plainHashing : PasswordHashing where
  pwhashStr := fun _ password => some (ofString "$argon2id$" ++ password)
  pwhashStrVerify := fun hash password => hash = ofString "$argon2id$" ++ password

def lockedStore : SettingsStore :=
  setDashboardPasswordHash (some (ofString "$argon2id$long-password")) freshSettingsStore

def twoSetups : List AuthAction :=
  [⟨.loginDashboardPassword (ofString "long-password"), { newSessionId := ofString "a" }⟩,
    ⟨.loginDashboardPassword (ofString "long-password"), { newSessionId := ofString "b" }⟩,
    ⟨.startTotpSetup (ofString "a"), { secretBytes := some [1] }⟩,
    ⟨.startTotpSetup (ofString "b"), { secretBytes := some [2] }⟩,
    ⟨.confirmTotpSetup (ofString "a") (base32Encode [1]) (ofString "000000"), {}⟩,
    ⟨.confirmTotpSetup (ofString "b") (base32Encode [2]) (ofString "000000"), {}⟩]

theorem second_setup_replaces_secret :
    ¬ AllSteps (authRunStep plainHashing zeroHmac) (SecretKept plainHashing zeroHmac)
      (freshProcess lockedStore 43200000) twoSetups := by
  intro h
  have hkept := h.2.2.2.2.2.1 (by decide) fun _ _ => List.not_mem_nil
  revert hkept
  decide

end Sessions

end Tightrope.Server
