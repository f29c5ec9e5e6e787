import Tightrope.Auth.Dashboard.DashboardLogin
import Tightrope.Auth.Dashboard.TotpAuth
import Tightrope.Server.SettingsController

namespace Tightrope.Server

open Bytes Tightrope.Core Db Auth.Dashboard

structure DashboardAuthSessionPayload where
  authenticated : Bool := false
  passwordRequired : Bool := false
  totpRequiredOnLogin : Bool := false
  totpConfigured : Bool := false
  deriving DecidableEq, Repr

structure DashboardAuthResponse where
  status : ℕ
  code : Bytes := []
  message : Bytes := []
  session : DashboardAuthSessionPayload := {}
  sessionId : Bytes := []
  secret : Bytes := []
  otpauthUri : Bytes := []
  deriving DecidableEq, Repr

structure AuthState where
  store : SettingsStore
  manager : DashboardSessionManager
  pending : FlatMap Bytes Bytes := .empty

structure Surroundings where
  refusal : Option Refusal := none
  sessionMs : ℤ := 0
  codeMs : ℤ := 0
  createdMs : ℤ := 0
  storeFails : Bool := false
  salt : Bytes := []
  stamp : Bytes := []
  secretBytes : Option Bytes := none
  newSessionId : Bytes := []
  reportRefusal : Option Refusal := none
  reportMs : ℤ := 0
  deriving Repr

section Checks

def authResponse (status : ℕ) (code message : String) : DashboardAuthResponse :=
  { status := status, code := ofString code, message := ofString message }

def refused (refusal : Refusal) : DashboardAuthResponse :=
  { status := refusal.status, code := refusal.code, message := refusal.message }

def authRequired : DashboardAuthResponse := authResponse 401 "auth_required" "Authentication is required"

def passwordHashOf (settings : DashboardSettingsRecord) : Option Bytes := settings .passwordHash

def totpSecretOf (settings : DashboardSettingsRecord) : Option Bytes := settings .totpSecret

def totpLastVerifiedStepOf (settings : DashboardSettingsRecord) : Option ℤ := settings .totpLastVerifiedStep

def passwordRequired (settings : DashboardSettingsRecord) : Bool := (passwordHashOf settings).any (· ≠ [])

def buildSessionPayload (settings : DashboardSettingsRecord) (session : Option DashboardSessionState) :
    DashboardAuthSessionPayload :=
  let required : Bool := settings .totpRequiredOnLogin
  let hasPasswordSession := session.any (·.passwordVerified)
  let hasTotpSession := hasPasswordSession && session.any (·.totpVerified)
  { authenticated :=
      if !passwordRequired settings then true
      else if required then hasTotpSession
      else hasPasswordSession
    passwordRequired := passwordRequired settings
    totpRequiredOnLogin := passwordRequired settings && required && hasPasswordSession
    totpConfigured := totpConfigured settings }

theorem verified_of_authenticated {settings : DashboardSettingsRecord} {session : Option DashboardSessionState}
    (hpassword : passwordRequired settings = true) (hrequired : settings .totpRequiredOnLogin = true)
    (h : (buildSessionPayload settings session).authenticated = true) :
    ∃ verified, session = some verified ∧ verified.totpVerified = true := by
  cases session with
  | none => simp [buildSessionPayload, hpassword, hrequired] at h
  | some verified =>
    refine ⟨verified, rfl, ?_⟩
    simp only [buildSessionPayload, hpassword, hrequired, Bool.not_true, Bool.false_eq_true, if_false, if_true,
      Option.any_some, Bool.and_eq_true] at h
    exact h.2

def passwordSession (manager : DashboardSessionManager) (sessionId : Bytes) (nowMs : ℤ) :
    Except DashboardAuthResponse DashboardSessionState :=
  match manager.get sessionId nowMs with
  | none => .error authRequired
  | some session => if session.passwordVerified then .ok session else .error authRequired

variable (hmac : Bytes → Bytes → Option Bytes)

-- The step is what `verify_totp_code` has matched; the source does not keep it here.
def checkConfirmation (pending : FlatMap Bytes Bytes) (sessionId secret code : Bytes) (codeMs : ℤ) :
    Except DashboardAuthResponse ℤ :=
  if pending.find? sessionId ≠ some secret then
    .error (authResponse 400 "invalid_totp_setup" "Invalid TOTP setup payload")
  else
    match verifyTotpCode hmac secret code (codeMs / 1000) 1 none with
    | none => .error (authResponse 400 "invalid_totp_code" "Invalid TOTP code")
    | some step => .ok step

def checkVerification (settings : DashboardSettingsRecord) (code : Bytes) (codeMs : ℤ) :
    Except DashboardAuthResponse (Bytes × ℤ) :=
  match totpSecretOf settings with
  | none => .error (authResponse 400 "invalid_totp_code" "TOTP is not configured")
  | some secret =>
    if secret = [] then .error (authResponse 400 "invalid_totp_code" "TOTP is not configured")
    else
      match verifyTotpCode hmac secret code (codeMs / 1000) 1 (totpLastVerifiedStepOf settings) with
      | none => .error (authResponse 400 "invalid_totp_code" "Invalid TOTP code")
      | some step => .ok (secret, step)

end Checks

section Calls

variable (hashing : PasswordHashing) (hmac : Bytes → Bytes → Option Bytes)

inductive AuthCall where
  | getDashboardAuthSession (sessionId : Bytes)
  | setupDashboardPassword (password : Bytes)
  | loginDashboardPassword (password : Bytes)
  | startTotpSetup (sessionId : Bytes)
  | confirmTotpSetup (sessionId secret code : Bytes)
  | verifyDashboardTotp (sessionId code : Bytes)
  | logoutDashboard (sessionId : Bytes)
  deriving DecidableEq, Repr

def getDashboardAuthSession (state : AuthState) (sessionId : Bytes) (refusal : Option Refusal) (nowMs : ℤ) :
    DashboardAuthResponse :=
  match refusal with
  | some refusal => refused refusal
  | none =>
    { status := 200, session := buildSessionPayload state.store.settings (state.manager.get sessionId nowMs) }

def createSession (state : AuthState) (totpVerified : Bool) (around : Surroundings) :
    AuthState × DashboardAuthResponse :=
  let created := { state with manager := state.manager.create around.newSessionId true totpVerified around.createdMs }
  (created, { getDashboardAuthSession created around.newSessionId around.reportRefusal around.reportMs with
    sessionId := around.newSessionId })

def setupDashboardPassword (state : AuthState) (password : Bytes) (around : Surroundings) :
    AuthState × DashboardAuthResponse :=
  if passwordRequired state.store.settings then
    (state, authResponse 409 "password_already_configured" "Password is already configured")
  else if (trimAscii password).length < 8 then
    (state, authResponse 400 "invalid_password" "Password must be at least 8 characters")
  else
    match hashPassword hashing around.salt (trimAscii password) with
    | none => (state, authResponse 500 "password_hash_failed" "Failed to hash password")
    | some hash =>
      if around.storeFails then (state, authResponse 500 "password_store_failed" "Failed to persist password hash")
      else createSession { state with store := setDashboardPasswordHash (some hash) state.store } false around

def loginDashboardPassword (state : AuthState) (password : Bytes) (around : Surroundings) :
    AuthState × DashboardAuthResponse :=
  if !passwordRequired state.store.settings then
    (state, authResponse 400 "password_not_configured" "Password is not configured")
  else if !verifyPassword hashing password ((passwordHashOf state.store.settings).getD []) then
    (state, authResponse 401 "invalid_credentials" "Invalid credentials")
  else createSession state false around

def startTotpSetup (state : AuthState) (sessionId : Bytes) (around : Surroundings) :
    AuthState × DashboardAuthResponse :=
  match passwordSession state.manager sessionId around.sessionMs with
  | .error response => (state, response)
  | .ok _ =>
    let secret := generateTotpSecret around.secretBytes
    if totpConfigured state.store.settings then
      (state, authResponse 400 "invalid_totp_setup" "TOTP is already configured")
    else if secret = [] then
      (state, authResponse 500 "totp_secret_generation_failed" "Failed to generate TOTP secret")
    else
      ({ state with pending := state.pending.insert sessionId secret },
        { status := 200
          secret := secret
          otpauthUri := buildTotpOtpauthUri secret (ofString "tightrope") (ofString "dashboard") })

def passConfirmation (state : AuthState) (sessionId secret code : Bytes) (around : Surroundings) :
    Except DashboardAuthResponse Unit := do
  let _ ← passwordSession state.manager sessionId around.sessionMs
  let _ ← checkConfirmation hmac state.pending sessionId secret code around.codeMs
  if around.storeFails then .error (authResponse 500 "totp_store_failed" "Failed to persist TOTP secret") else .ok ()

def confirmTotpSetup (state : AuthState) (sessionId secret code : Bytes) (around : Surroundings) :
    AuthState × DashboardAuthResponse :=
  match passConfirmation hmac state sessionId secret code around with
  | .error response => (state, response)
  | .ok _ =>
    let stored :=
      { state with
        store := setDashboardTotpSecret (some secret) state.store
        pending := state.pending.erase sessionId }
    (stored, getDashboardAuthSession stored sessionId around.reportRefusal around.reportMs)

def passVerification (state : AuthState) (sessionId code : Bytes) (around : Surroundings) :
    Except DashboardAuthResponse SettingsStore := do
  let _ ← passwordSession state.manager sessionId around.sessionMs
  let (_, step) ← checkVerification hmac state.store.settings code around.codeMs
  match if around.storeFails then none else advanceDashboardTotpLastVerifiedStep step state.store with
  | none => .error (authResponse 400 "invalid_totp_code" "Invalid TOTP code")
  | some store => .ok store

def verifyDashboardTotp (state : AuthState) (sessionId code : Bytes) (around : Surroundings) :
    AuthState × DashboardAuthResponse :=
  match passVerification hmac state sessionId code around with
  | .error response => (state, response)
  | .ok store => createSession { state with store := store } true around

def logoutDashboard (state : AuthState) (sessionId : Bytes) : AuthState :=
  if sessionId = [] then state
  else { state with manager := state.manager.erase sessionId, pending := state.pending.erase sessionId }

def authCall (state : AuthState) (call : AuthCall) (around : Surroundings) : AuthState × DashboardAuthResponse :=
  match call, around.refusal with
  | .logoutDashboard sessionId, _ => (logoutDashboard state sessionId, { status := 200 })
  | .getDashboardAuthSession sessionId, refusal =>
    (state, getDashboardAuthSession state sessionId refusal around.reportMs)
  | _, some refusal => (state, refused refusal)
  | .setupDashboardPassword password, none => setupDashboardPassword hashing state password around
  | .loginDashboardPassword password, none => loginDashboardPassword hashing state password around
  | .startTotpSetup sessionId, none => startTotpSetup state sessionId around
  | .confirmTotpSetup sessionId secret code, none => confirmTotpSetup hmac state sessionId secret code around
  | .verifyDashboardTotp sessionId code, none => verifyDashboardTotp hmac state sessionId code around

end Calls

end Tightrope.Server
