import Tightrope.Core.Ascii
import Tightrope.Library.Bytes
import Tightrope.Library.FlatMap

namespace Tightrope.Auth.Dashboard

open Bytes Tightrope.Core

-- `crypto_pwhash_str` with its random salt, and `crypto_pwhash_str_verify`.
structure PasswordHashing where
  pwhashStr : Bytes → Bytes → Option Bytes
  pwhashStrVerify : Bytes → Bytes → Bool

def isSupportedPasswordHash (passwordHash : Bytes) : Bool :=
  (startsWith passwordHash (ofString "$argon2id$") || startsWith passwordHash (ofString "$argon2i$")) &&
    NulFree passwordHash

def hashPassword (hashing : PasswordHashing) (salt password : Bytes) : Option Bytes :=
  if password = [] then none else (hashing.pwhashStr salt password).map cstr

def verifyPassword (hashing : PasswordHashing) (password passwordHash : Bytes) : Bool :=
  password ≠ [] && isSupportedPasswordHash passwordHash && hashing.pwhashStrVerify passwordHash password

structure DashboardSessionState where
  expiresAtMs : ℤ := 0
  passwordVerified : Bool := false
  totpVerified : Bool := false
  deriving DecidableEq, Repr

structure DashboardSessionManager where
  ttlMs : ℤ
  ttlPositive : 1 ≤ ttlMs
  sessions : FlatMap Bytes DashboardSessionState := .empty

namespace DashboardSessionManager

def new (ttlMs : ℤ) : DashboardSessionManager where
  ttlMs := max 1 ttlMs
  ttlPositive := le_max_left 1 ttlMs

variable (manager : DashboardSessionManager)

def create (sessionId : Bytes) (passwordVerified totpVerified : Bool) (nowMs : ℤ) : DashboardSessionManager :=
  { manager with sessions := manager.sessions.insert sessionId ⟨nowMs + manager.ttlMs, passwordVerified, totpVerified⟩ }

def get (sessionId : Bytes) (nowMs : ℤ) : Option DashboardSessionState :=
  if sessionId = [] then none
  else
    match manager.sessions.find? sessionId with
    | none => none
    | some session => if session.expiresAtMs ≤ nowMs then none else some session

def erase (sessionId : Bytes) : DashboardSessionManager :=
  if sessionId = [] then manager else { manager with sessions := manager.sessions.erase sessionId }

theorem get_eq_some {manager : DashboardSessionManager} {sessionId : Bytes} {nowMs : ℤ}
    {session : DashboardSessionState}
    (h : manager.get sessionId nowMs = some session) : manager.sessions.find? sessionId = some session := by
  unfold get at h
  split_ifs at h
  cases hfound : manager.sessions.find? sessionId with
  | none =>
    rw [hfound] at h
    cases h
  | some found =>
    rw [hfound] at h
    simp only at h
    split_ifs at h
    exact h

end DashboardSessionManager

end Tightrope.Auth.Dashboard
