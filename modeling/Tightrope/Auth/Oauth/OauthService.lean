import Tightrope.Auth.Oauth.CallbackUrl
import Tightrope.Auth.Oauth.TokenRefresh
import Tightrope.Core.HostPort
import Tightrope.Core.Json
import Tightrope.Db.Accounts
import Tightrope.Library.Threads

namespace Tightrope.Auth.Oauth

open Bytes Tightrope.Core Crypto Db Threads

structure IdTokenClaims where
  email : Option Bytes := none
  accountId : Option Bytes := none
  planType : Option Bytes := none
  deriving DecidableEq

section Claims

variable (decodeBase64 : Bytes → Option Bytes) (json : JsonLibrary)

def base64UrlDecode (value : Bytes) : Option Bytes :=
  let standard := value.map fun c => if c = 45 then 43 else if c = 95 then 47 else c
  decodeBase64 (standard ++ List.replicate ((4 - standard.length % 4) % 4) 61)

def idTokenPayload (idToken : Bytes) : Option Bytes :=
  if dot ∈ idToken then
    let rest := (idToken.dropWhile (· ≠ dot)).tail
    if dot ∈ rest ∧ rest.takeWhile (· ≠ dot) ≠ [] then some (rest.takeWhile (· ≠ dot)) else none
  else none

def authClaims (payload : JsonObject) : JsonObject :=
  ((payload.find? (ofString "https://api.openai.com/auth")).bind Json.object?).getD []

def claimsOf (payload : JsonObject) : IdTokenClaims where
  email := payload.string? (ofString "email")
  accountId := (payload.string? (ofString "chatgpt_account_id")).or
    ((authClaims payload).string? (ofString "chatgpt_account_id"))
  planType := (payload.string? (ofString "chatgpt_plan_type")).or
    ((authClaims payload).string? (ofString "chatgpt_plan_type"))

def parseIdTokenClaims (idToken : Bytes) : IdTokenClaims :=
  (((idTokenPayload idToken).bind (base64UrlDecode decodeBase64)).bind json.readObject).elim {} claimsOf

end Claims

structure PersistCall where
  tokens : OAuthTokens
  key : SessionKey := none
  nonces : ℕ → Bytes := fun _ => []
  stamp : Bytes := []
  opens : Bool := true

section Persist

variable (cipher : TokenCipher) (decodeBase64 : Bytes → Option Bytes) (json : JsonLibrary)

def PersistCall.claims (call : PersistCall) : IdTokenClaims := parseIdTokenClaims decodeBase64 json call.tokens.idToken

def PersistCall.upsert (call : PersistCall) : OauthAccountUpsert :=
  let claims := call.claims decodeBase64 json
  { email := claims.email.getD (ofString "unknown@example.com")
    provider := ofString "openai"
    chatgptAccountId := claims.accountId
    planType := claims.planType
    accessToken := call.tokens.accessToken
    refreshToken := call.tokens.refreshToken
    idToken := call.tokens.idToken }

def persistTokens (table : AccountTable) (call : PersistCall) : AccountTable × Bool :=
  if call.opens then table.upsertOauthAccount cipher call.key call.nonces call.stamp (call.upsert decodeBase64 json)
  else (table, false)

end Persist

inductive OAuthStatus where
  | idle | pending | success | error | stopped
  deriving DecidableEq, Repr

inductive OAuthMethod where
  | browser | device
  deriving DecidableEq, Repr

structure OAuthState where
  status : OAuthStatus := .idle
  method : Option OAuthMethod := none
  errorMessage : Option Bytes := none
  stateToken : Option Bytes := none
  codeVerifier : Option Bytes := none
  deviceAuthId : Option Bytes := none
  userCode : Option Bytes := none
  expiresAt : Option ℤ := none
  pollActive : Bool := false
  deriving DecidableEq, Repr

structure DeviceCodePayload where
  userCode : Bytes
  deviceAuthId : Bytes
  expiresInSeconds : ℤ
  deriving DecidableEq, Repr

inductive DeviceTokenPollResult where
  | pending
  | tokens (tokens : Option OAuthTokens)
  | authorizationCode (code codeVerifier : Option Bytes)
  | error (error : Option OAuthError)
  deriving DecidableEq, Repr

structure FlowEffect where
  flow : ℕ
  current : Option ℕ
  deriving DecidableEq, Repr

structure FlowHistory where
  flows : ℕ := 0
  live : Bool := false
  minted : List (Bytes × ℕ) := []
  issued : List (Bytes × ℕ) := []
  effects : List FlowEffect := []

namespace FlowHistory

variable (history : FlowHistory)

def current : Option ℕ := if history.live then some history.flows else none

def flowOfToken (token : Bytes) : Option ℕ := history.minted.lookup token

def flowOfCode (deviceAuthId : Bytes) : ℕ := (history.issued.lookup deviceAuthId).getD history.flows

def record : Option ℕ → FlowHistory
  | none => history
  | some flow => { history with effects := ⟨flow, history.current⟩ :: history.effects }

def begin : FlowHistory := { history with flows := history.flows + 1, live := true }

end FlowHistory

structure OauthShared where
  state : OAuthState := {}
  pollThread : Option ℕ := none
  loops : ℕ := 0
  stopRequested : List ℕ := []
  ended : List ℕ := []
  accounts : AccountTable
  history : FlowHistory := {}

namespace OauthShared

variable (shared : OauthShared)

def setSuccessLocked (flow : Option ℕ) : OauthShared :=
  { shared with
    state := { shared.state with status := .success, errorMessage := none }
    history := shared.history.record flow }

def setErrorLocked (flow : Option ℕ) (message : Bytes) : OauthShared :=
  { shared with
    state := { shared.state with status := .error, errorMessage := some message }
    history := shared.history.record flow }

def endLoop (loop : ℕ) : OauthShared :=
  { shared with state := { shared.state with pollActive := false }, ended := loop :: shared.ended }

def stopPollThread : OauthShared :=
  { shared with
    state := { shared.state with pollActive := false }
    pollThread := none
    stopRequested := shared.pollThread.toList ++ shared.stopRequested }

def adoptAccounts : OauthShared :=
  { shared with state := { status := .success, method := some .browser }, history := shared.history.begin }

def startDevice (code : DeviceCodePayload) (now : ℤ) : OauthShared :=
  { shared with
    state :=
      { status := .pending
        method := some .device
        deviceAuthId := some code.deviceAuthId
        userCode := some code.userCode
        expiresAt := some (now + max 1 code.expiresInSeconds * 1000000000) }
    history :=
      { shared.history.begin with issued := (code.deviceAuthId, shared.history.flows + 1) :: shared.history.issued } }

def startBrowser (stateToken codeVerifier : Bytes) : OauthShared :=
  { shared with
    state :=
      { status := .pending, method := some .browser, stateToken := some stateToken, codeVerifier := some codeVerifier }
    history := { shared.history.begin with minted := (stateToken, shared.history.flows + 1) :: shared.history.minted } }

def markStopped (state : OAuthState) : OAuthState :=
  if state.method.isSome then { state with status := .stopped, errorMessage := none } else state

def stop : OauthShared :=
  { shared with
    state := { markStopped shared.state with stateToken := none, codeVerifier := none }
    history := { shared.history with live := false } }

def overrideCodes (deviceAuthId userCode : Option Bytes) : OauthShared :=
  { shared with
    state :=
      { shared.state with
        deviceAuthId := deviceAuthId.or shared.state.deviceAuthId
        userCode := userCode.or shared.state.userCode } }

end OauthShared

inductive OauthCall where
  | start (forceMethod : Bytes)
  | stop
  | complete (deviceAuthId userCode : Option Bytes)
  | manualCallback (callbackUrl : Bytes)
  | browserCallback (code state error : Bytes)
  deriving DecidableEq, Repr

def OauthCall.restart : OauthCall := .start (ofString "browser")

structure Callback where
  manual : Bool
  code : Bytes
  state : Bytes
  error : Bytes
  deriving DecidableEq, Repr

def manualCallback (callbackUrl : Bytes) : Callback :=
  let parsed := parseCallbackUrl callbackUrl
  ⟨true, queryField parsed "code", queryField parsed "state", queryField parsed "error"⟩

def Callback.invalidMessage (callback : Callback) : Bytes :=
  ofString (if callback.manual then "Invalid OAuth callback: state mismatch or missing code."
    else "Invalid OAuth callback state.")

def Callback.Valid (callback : Callback) (state : OAuthState) : Prop :=
  callback.code ≠ [] ∧ callback.state ≠ [] ∧ state.stateToken = some callback.state ∧ state.codeVerifier.isSome

instance (callback : Callback) (state : OAuthState) : Decidable (callback.Valid state) :=
  inferInstanceAs (Decidable (_ ∧ _ ∧ _ ∧ _))

inductive Job where
  | callback (callback : Callback)
  | loop (id : ℕ)
  deriving DecidableEq, Repr

inductive Halting where
  | start | stop
  deriving DecidableEq, Repr

inductive OauthReply where
  | start (status : ℕ) (method : Option OAuthMethod) (error : Option OAuthError)
  | status (oauthStatus : OAuthStatus) (errorMessage : Option Bytes) (listenerRunning : Bool)
  | complete (oauthStatus : OAuthStatus) (error : Option OAuthError)
  | callback (callback : Callback) (errorMessage : Option Bytes)
  | loop
  deriving DecidableEq, Repr

def statusReply (state : OAuthState) : OauthReply :=
  .status (if state.status = .idle then .pending else state.status) state.errorMessage
    (state.method = some .browser && state.status = .pending)

inductive OauthPhase where
  | starting (method : Bytes)
  | adopting
  | requesting
  | issuing (code : DeviceCodePayload)
  | halting (caller : Halting)
  | joining (caller : Halting) (loop : Option ℕ)
  | opening
  | stopping
  | completing (deviceAuthId userCode : Option Bytes)
  | replacing (flow : ℕ)
  | awaiting (loop flow : ℕ)
  | launching (flow : ℕ)
  | checking (loop flow : ℕ)
  | entering (loop flow : ℕ)
  | polling (loop flow : ℕ) (deviceAuthId userCode : Bytes) (expiresAt : ℤ)
  | receiving (callback : Callback)
  | exchanging (job : Job) (flow : Option ℕ) (code codeVerifier : Bytes)
  | persisting (job : Job) (flow : Option ℕ) (tokens : OAuthTokens)
  | reporting (job : Job) (flow : Option ℕ) (errorMessage : Option Bytes)
  | finished (reply : OauthReply)
  deriving DecidableEq, Repr

def OauthCall.begin : OauthCall → OauthPhase
  | start forceMethod => .starting (toLowerAscii forceMethod)
  | stop => .halting .stop
  | complete deviceAuthId userCode => .completing deviceAuthId userCode
  | manualCallback callbackUrl => .receiving (Oauth.manualCallback callbackUrl)
  | browserCallback code state error => .receiving ⟨false, code, state, error⟩

structure OauthMoment where
  now : ℤ := 0
  deviceCode : Except OAuthError DeviceCodePayload := .error ⟨[], []⟩
  poll : DeviceTokenPollResult := .pending
  exchange : Except OAuthError OAuthTokens := .error ⟨[], []⟩
  stateToken : Bytes := []
  codeVerifier : Bytes := []
  key : SessionKey := none
  nonces : ℕ → Bytes := fun _ => []
  stamp : Bytes := []
  opens : Bool := true

def OauthMoment.persistCall (moment : OauthMoment) (tokens : OAuthTokens) : PersistCall :=
  ⟨tokens, moment.key, moment.nonces, moment.stamp, moment.opens⟩

section Phases

def OauthShared.hasExistingAccounts (shared : OauthShared) (moment : OauthMoment) : Bool :=
  moment.opens && !shared.accounts.rows.isEmpty

def startAct (shared : OauthShared) (method : Bytes) (moment : OauthMoment) : OauthPhase :=
  if method = [] ∧ shared.hasExistingAccounts moment = true then .adopting
  else if method = ofString "device" then .requesting
  else .halting .start

def requestAct (moment : OauthMoment) : OauthPhase :=
  match moment.deviceCode with
  | .error error => .finished (.start 502 none (some error))
  | .ok code => .issuing code

def notInitialized : Bytes := ofString "Device code flow is not initialized."

def deviceExpired : Bytes := ofString "Device code expired."

def completeFailure (code : String) (message : Bytes) : OauthPhase :=
  .finished (.complete .error (some ⟨ofString code, message⟩))

def completeLocked (shared : OauthShared) (now : ℤ) : OauthShared × OauthPhase :=
  if shared.state.status = .success then (shared, .finished (.complete .success none))
  else if shared.state.method ≠ some .device then (shared, .finished (.complete .pending none))
  else if shared.state.pollActive then (shared, .finished (.complete .pending none))
  else
    match shared.state.deviceAuthId, shared.state.userCode, shared.state.expiresAt with
    | some deviceAuthId, some _, some expiresAt =>
      let flow := shared.history.flowOfCode deviceAuthId
      if expiresAt ≤ now then
        (shared.setErrorLocked (some flow) deviceExpired, completeFailure "device_expired" deviceExpired)
      else ({ shared with state := { shared.state with pollActive := true } }, .replacing flow)
    | _, _, _ =>
      (shared.setErrorLocked (some shared.history.flows) notInitialized,
        completeFailure "device_not_initialized" notInitialized)

def replaceAct (shared : OauthShared) (flow : ℕ) : OauthShared × OauthPhase :=
  match shared.pollThread with
  | none => (shared, .launching flow)
  | some loop => ({ shared with stopRequested := loop :: shared.stopRequested }, .awaiting loop flow)

def launchAct (shared : OauthShared) (flow : ℕ) : OauthShared × OauthPhase :=
  ({ shared with pollThread := some shared.loops, loops := shared.loops + 1 }, .checking shared.loops flow)

def enterAct (shared : OauthShared) (loop flow : ℕ) : OauthShared × OauthPhase :=
  match shared.state.deviceAuthId, shared.state.userCode, shared.state.expiresAt with
  | some deviceAuthId, some userCode, some expiresAt =>
    (shared, .polling loop (shared.history.flowOfCode deviceAuthId) deviceAuthId userCode expiresAt)
  | _, _, _ => ((shared.setErrorLocked (some flow) notInitialized).endLoop loop, .finished .loop)

def pollAct (loop flow : ℕ) : DeviceTokenPollResult → OauthPhase
  | .pending => .checking loop flow
  | .error error =>
    .reporting (.loop loop) (some flow) (some (error.elim (ofString "Device OAuth failed") OAuthError.message))
  | .tokens (some tokens) => .persisting (.loop loop) (some flow) tokens
  | .authorizationCode (some code) (some codeVerifier) => .exchanging (.loop loop) (some flow) code codeVerifier
  | _ => .reporting (.loop loop) (some flow) (some (ofString "OAuth response missing tokens"))

def receiveAct (shared : OauthShared) (callback : Callback) : OauthShared × OauthPhase :=
  let flow := shared.history.flowOfToken callback.state
  if callback.error ≠ [] then
    let message := ofString "OAuth error: " ++ callback.error
    (shared.setErrorLocked flow message, .finished (.callback callback (some message)))
  else if callback.Valid shared.state then
    (shared, .exchanging (.callback callback) flow callback.code (shared.state.codeVerifier.getD []))
  else (shared, .reporting (.callback callback) flow (some callback.invalidMessage))

def exchangeAct (job : Job) (flow : Option ℕ) : Except OAuthError OAuthTokens → OauthPhase
  | .error error => .reporting job flow (some error.message)
  | .ok tokens => .persisting job flow tokens

def reportLocked (shared : OauthShared) (flow : Option ℕ) : Option Bytes → OauthShared
  | none => shared.setSuccessLocked flow
  | some message => shared.setErrorLocked flow message

def reportAct (shared : OauthShared) (job : Job) (flow : Option ℕ) (errorMessage : Option Bytes) :
    OauthShared × OauthPhase :=
  match job with
  | .callback callback => (reportLocked shared flow errorMessage, .finished (.callback callback errorMessage))
  | .loop loop => ((reportLocked shared flow errorMessage).endLoop loop, .finished .loop)

end Phases

section Steps

variable (cipher : TokenCipher) (decodeBase64 : Bytes → Option Bytes) (json : JsonLibrary)

def persistAct (shared : OauthShared) (job : Job) (flow : Option ℕ) (call : PersistCall) : OauthShared × OauthPhase :=
  let written := persistTokens cipher decodeBase64 json shared.accounts call
  if written.2 = true then
    ({ shared with accounts := written.1, history := shared.history.record flow }, .reporting job flow none)
  else
    ({ shared with accounts := written.1 }, .reporting job flow (some (ofString "Failed to persist OAuth account.")))

def oauthAct (shared : OauthShared) (phase : OauthPhase) (moment : OauthMoment) : OauthShared × OauthPhase :=
  match phase with
  | .starting method => (shared, startAct shared method moment)
  | .adopting => (shared.adoptAccounts, .finished (.start 200 (some .browser) none))
  | .requesting => (shared, requestAct moment)
  | .issuing code => (shared.startDevice code moment.now, .finished (.start 200 (some .device) none))
  | .halting caller => (shared.stopPollThread, .joining caller shared.pollThread)
  | .joining caller loop =>
    if loop.any (· ∉ shared.ended) then (shared, .joining caller loop)
    else (shared, match caller with | .start => .opening | .stop => .stopping)
  | .opening =>
    (shared.startBrowser moment.stateToken moment.codeVerifier, .finished (.start 200 (some .browser) none))
  | .stopping => (shared.stop, .finished (statusReply shared.stop.state))
  | .completing deviceAuthId userCode => completeLocked (shared.overrideCodes deviceAuthId userCode) moment.now
  | .replacing flow => replaceAct shared flow
  | .awaiting loop flow =>
    if loop ∈ shared.ended then ({ shared with pollThread := none }, .launching flow) else (shared, .awaiting loop flow)
  | .launching flow => launchAct shared flow
  | .checking loop flow =>
    if loop ∈ shared.stopRequested then ({ shared with ended := loop :: shared.ended }, .finished .loop)
    else (shared, .entering loop flow)
  | .entering loop flow => enterAct shared loop flow
  | .polling loop flow _ _ expiresAt =>
    if expiresAt ≤ moment.now then (shared, .reporting (.loop loop) (some flow) (some deviceExpired))
    else (shared, pollAct loop flow moment.poll)
  | .receiving callback => receiveAct shared callback
  | .exchanging job flow _ _ => (shared, exchangeAct job flow moment.exchange)
  | .persisting job flow tokens => persistAct cipher decodeBase64 json shared job flow (moment.persistCall tokens)
  | .reporting job flow errorMessage => reportAct shared job flow errorMessage
  | .finished reply => (shared, .finished reply)

def oauthStep : State OauthShared OauthPhase → Action OauthCall OauthMoment → State OauthShared OauthPhase :=
  step OauthCall.begin (oauthAct cipher decodeBase64 json)

end Steps

end Tightrope.Auth.Oauth
