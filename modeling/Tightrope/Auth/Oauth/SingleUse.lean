import Tightrope.Auth.Oauth.FlowIsolation

namespace Tightrope.Auth.Oauth

open Bytes Tightrope.Core Crypto Db Runs Threads

section Definitions

def Callback.carries (callback : Callback) (token : Bytes) : ℕ := if callback.state = token then 1 else 0

def OauthPhase.contacting (token : Bytes) : OauthPhase → ℕ
  | exchanging (.callback callback) _ _ _ => callback.carries token
  | persisting (.callback callback) _ _ => callback.carries token
  | _ => 0

def OauthPhase.succeeded (token : Bytes) : OauthPhase → ℕ
  | reporting (.callback callback) _ none => callback.carries token
  | finished (.callback callback none) => callback.carries token
  | _ => 0

def OauthPhase.uses (token : Bytes) (phase : OauthPhase) : ℕ := phase.contacting token + phase.succeeded token

def SingleUse (s : State OauthShared OauthPhase) : Prop :=
  ∀ token, total (OauthPhase.succeeded token) s ≤ 1 ∧
    (total (OauthPhase.succeeded token) s ≠ 0 → total (OauthPhase.contacting token) s = 0)

def OauthPhase.ComesAlone (s : State OauthShared OauthPhase) : OauthPhase → Prop
  | receiving callback => callback.error = [] → callback.Valid s.shared.state →
      total (OauthPhase.contacting callback.state) s = 0 ∧ total (OauthPhase.succeeded callback.state) s = 0
  | _ => True

def TokensUsedAlone (s : State OauthShared OauthPhase) : Action OauthCall OauthMoment → Prop
  | .spawn _ => True
  | .move i _ => ∀ phase ∈ s.threads[i]?, phase.ComesAlone s

def OauthPhase.received? : OauthPhase → Option Callback
  | receiving callback => some callback
  | _ => none

theorem OauthPhase.comesAlone_iff {s : State OauthShared OauthPhase} (phase : OauthPhase) :
    (∀ callback ∈ phase.received?, (receiving callback).ComesAlone s) ↔ phase.ComesAlone s := by
  cases phase <;> simp [received?, ComesAlone]

instance (s : State OauthShared OauthPhase) (phase : OauthPhase) : Decidable (phase.ComesAlone s) :=
  have : ∀ callback, Decidable ((OauthPhase.receiving callback).ComesAlone s) := fun callback => by
    unfold OauthPhase.ComesAlone
    infer_instance
  decidable_of_iff _ phase.comesAlone_iff

instance (s : State OauthShared OauthPhase) (action : Action OauthCall OauthMoment) :
    Decidable (TokensUsedAlone s action) :=
  match action with
  | .spawn _ => inferInstanceAs (Decidable True)
  | .move i _ => inferInstanceAs (Decidable (∀ phase ∈ s.threads[i]?, phase.ComesAlone s))

end Definitions

section Uses

variable {cipher : TokenCipher} {decodeBase64 : Bytes → Option Bytes} {json : JsonLibrary}
  {shared : OauthShared} {phase : OauthPhase} {token : Bytes}

theorem carries_le_one (callback : Callback) (token : Bytes) : callback.carries token ≤ 1 := by
  unfold Callback.carries
  split_ifs <;> omega

theorem uses_completeLocked (now : ℤ) : (completeLocked shared now).2.uses token = 0 := by
  unfold completeLocked
  split_ifs
  · rfl
  · rfl
  · rfl
  · split
    · dsimp only
      split_ifs <;> rfl
    · rfl

theorem uses_pollAct (loop flow : ℕ) (result : DeviceTokenPollResult) :
    (pollAct loop flow result).uses token = 0 := by
  unfold pollAct
  split <;> rfl

theorem uses_exchangeAct_le (job : Job) (flow : Option ℕ) (code codeVerifier : Bytes)
    (result : Except OAuthError OAuthTokens) :
    (exchangeAct job flow result).uses token ≤ (OauthPhase.exchanging job flow code codeVerifier).uses token := by
  cases result with
  | error error => cases job <;> exact Nat.zero_le _
  | ok tokens => cases job <;> exact le_refl _

theorem uses_persistAct_le (job : Job) (flow : Option ℕ) (tokens : OAuthTokens) (call : PersistCall) :
    (persistAct cipher decodeBase64 json shared job flow call).2.uses token ≤
      (OauthPhase.persisting job flow tokens).uses token := by
  simp only [persistAct]
  split_ifs
  · cases job with
    | callback callback =>
      change 0 + callback.carries token ≤ callback.carries token + 0
      omega
    | loop id => exact le_refl _
  · cases job <;> exact Nat.zero_le _

theorem uses_reportAct (job : Job) (flow : Option ℕ) (errorMessage : Option Bytes) :
    (reportAct shared job flow errorMessage).2.uses token =
      (OauthPhase.reporting job flow errorMessage).uses token := by
  cases job with
  | callback callback => cases errorMessage <;> rfl
  | loop id => cases errorMessage <;> rfl

theorem uses_receiveAct_eq_zero {callback : Callback}
    (h : callback.error = [] → callback.Valid shared.state → callback.state ≠ token) :
    (receiveAct shared callback).2.uses token = 0 := by
  simp only [receiveAct]
  split_ifs with herror hvalid
  · rfl
  · change (if callback.state = token then 1 else 0) + 0 = 0
    rw [if_neg (h (not_not.mp herror) hvalid)]
  · rfl

theorem uses_receiveAct_le_one (callback : Callback) : (receiveAct shared callback).2.uses token ≤ 1 := by
  simp only [receiveAct]
  split_ifs
  · exact Nat.zero_le _
  · exact carries_le_one callback token
  · exact Nat.zero_le _

theorem uses_oauthAct_le (hother : ∀ callback, phase ≠ .receiving callback) (moment : OauthMoment) :
    (oauthAct cipher decodeBase64 json shared phase moment).2.uses token ≤ phase.uses token := by
  cases phase with
  | starting method =>
    simp only [oauthAct, startAct]
    split_ifs <;> exact le_refl _
  | requesting =>
    simp only [oauthAct, requestAct]
    split <;> exact le_refl _
  | joining caller loop =>
    simp only [oauthAct]
    split_ifs
    · exact le_refl _
    · cases caller <;> exact le_refl _
  | completing deviceAuthId userCode => exact (uses_completeLocked moment.now).le
  | replacing flow =>
    simp only [oauthAct, replaceAct]
    split <;> exact le_refl _
  | awaiting loop flow =>
    simp only [oauthAct]
    split_ifs <;> exact le_refl _
  | checking loop flow =>
    simp only [oauthAct]
    split_ifs <;> exact le_refl _
  | entering loop flow =>
    simp only [oauthAct, enterAct]
    split <;> exact le_refl _
  | polling loop flow deviceAuthId userCode expiresAt =>
    simp only [oauthAct]
    split_ifs
    · exact le_refl _
    · exact (uses_pollAct loop flow moment.poll).le
  | receiving callback => exact absurd rfl (hother callback)
  | exchanging job flow code codeVerifier => exact uses_exchangeAct_le job flow code codeVerifier moment.exchange
  | persisting job flow tokens => exact uses_persistAct_le job flow tokens _
  | reporting job flow errorMessage => exact (uses_reportAct job flow errorMessage).le
  | _ => exact le_refl _

end Uses

section Invariant

variable {cipher : TokenCipher} {decodeBase64 : Bytes → Option Bytes} {json : JsonLibrary}
  {s : State OauthShared OauthPhase}

def UsedOnce (s : State OauthShared OauthPhase) : Prop := ∀ token, total (OauthPhase.uses token) s ≤ 1

theorem total_uses (s : State OauthShared OauthPhase) (token : Bytes) : total (OauthPhase.uses token) s =
    total (OauthPhase.contacting token) s + total (OauthPhase.succeeded token) s := total_add _ _ s

theorem UsedOnce.singleUse (h : UsedOnce s) : SingleUse s := by
  intro token
  have hle := h token
  rw [total_uses] at hle
  constructor
  · omega
  · intro hne
    omega

theorem usedOnce_step {action : Action OauthCall OauthMoment} (h : UsedOnce s) (halone : TokensUsedAlone s action) :
    UsedOnce (oauthStep cipher decodeBase64 json s action) := by
  unfold oauthStep
  obtain ⟨call, rfl, hstep⟩ | ⟨i, moment, rfl, hnone, hstep⟩ | ⟨i, moment, phase, rfl, hphase, hstep⟩ :=
    step_cases OauthCall.begin (oauthAct cipher decodeBase64 json) s action
  · rw [hstep]
    intro token
    rw [total_append]
    have hbegin : call.begin.uses token = 0 := by cases call <;> rfl
    have hle := h token
    omega
  · rw [hstep]
    exact h
  · rw [hstep]
    intro token
    have htotal := total_set (OauthPhase.uses token) (oauthAct cipher decodeBase64 json s.shared phase moment).2
      (oauthAct cipher decodeBase64 json s.shared phase moment).1 hphase
    have hle := h token
    by_cases hreceiving : ∃ callback, phase = .receiving callback
    · obtain ⟨callback, rfl⟩ := hreceiving
      have hbefore : (OauthPhase.receiving callback).uses token = 0 := rfl
      by_cases huse : callback.error = [] ∧ callback.Valid s.shared.state ∧ callback.state = token
      · obtain ⟨herror, hvalid, rfl⟩ := huse
        obtain ⟨hcontacting, hsucceeded⟩ := halone _ hphase herror hvalid
        have hzero := total_uses s callback.state
        have hone : (oauthAct cipher decodeBase64 json s.shared (.receiving callback) moment).2.uses
            callback.state ≤ 1 :=
          uses_receiveAct_le_one callback
        omega
      · have hnone : (oauthAct cipher decodeBase64 json s.shared (.receiving callback) moment).2.uses token = 0 :=
          uses_receiveAct_eq_zero fun herror hvalid heq => huse ⟨herror, hvalid, heq⟩
        omega
    · have hafter := @uses_oauthAct_le cipher decodeBase64 json s.shared phase token
        (fun callback heq => hreceiving ⟨callback, heq⟩) moment
      omega

end Invariant

section Runs

variable (cipher : TokenCipher) (decodeBase64 : Bytes → Option Bytes) (json : JsonLibrary)

/-- A state token is used once in every run in which the callbacks with it come one at a time and none after one that
succeeded while the service still keeps it. -/
theorem state_token_used_once (accounts : AccountTable) {actions : List (Action OauthCall OauthMoment)}
    (hactions : AllSteps (oauthStep cipher decodeBase64 json) TokensUsedAlone ⟨{ accounts := accounts }, []⟩ actions) :
    AllStates (oauthStep cipher decodeBase64 json) SingleUse ⟨{ accounts := accounts }, []⟩ actions := by
  apply AllStates.mono (oauthStep cipher decodeBase64 json) fun _ => UsedOnce.singleUse
  apply allStates_of_step (oauthStep cipher decodeBase64 json) ?_ ?_ hactions
  · intro s action h halone
    exact usedOnce_step h halone
  · intro token
    exact Nat.zero_le 1

def browserFlow (token : String) : List (Action OauthCall OauthMoment) :=
  .spawn .restart :: movesOf 0 [{}, {}, {}, { stateToken := ofString token, codeVerifier := ofString "verifier" }]

def browserLogin (thread : ℕ) (token : String) : List (Action OauthCall OauthMoment) :=
  .spawn (.browserCallback (ofString "code") (ofString token) []) ::
    movesOf thread [{}, { exchange := .ok namelessA.tokens }, {}, {}]

theorem token_used_once_until_stop : AllStates sampleOauthStep SingleUse ⟨{ accounts := .empty }, []⟩
    (browserFlow "token" ++ browserLogin 1 "token" ++ stopping 2 ++ browserLogin 3 "token") := by
  apply state_token_used_once
  decide +kernel

theorem token_used_twice : ¬ AllStates sampleOauthStep SingleUse ⟨{ accounts := .empty }, []⟩
    (browserFlow "token" ++ browserLogin 1 "token" ++ browserLogin 2 "token") := by
  intro h
  have hfinal := (AllStates.final _ h (ofString "token")).1
  revert hfinal
  decide +kernel

end Runs

end Tightrope.Auth.Oauth
