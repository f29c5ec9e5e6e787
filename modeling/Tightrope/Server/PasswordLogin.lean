import Tightrope.Server.AuthController

namespace Tightrope.Server

open Bytes Tightrope.Core Db Auth.Dashboard

/-- A stored hash verifies the password that it was made of, and no other one. -/
def ExactHashing (hashing : PasswordHashing) : Prop :=
  ∀ salt password hash, hashPassword hashing salt password = some hash →
    ∀ other, verifyPassword hashing other hash = true ↔ other = password

section Login

variable (hashing : PasswordHashing) (hmac : Bytes → Bytes → Option Bytes)

def Succeeds (state : AuthState) (call : AuthCall) (around : Surroundings) : Prop :=
  around.refusal = none ∧ (authCall hashing hmac state call around).2.status = 200

/-- The password logs in wherever the settings can be read, and none that a setup finds too short does anywhere. -/
structure LogsInWith (state : AuthState) (password : Bytes) : Prop where
  login : ∀ around, around.refusal = none → around.reportRefusal = none →
    Succeeds hashing hmac state (.loginDashboardPassword password) around
  short : ∀ other around, (trimAscii other).length < 8 →
    ¬ Succeeds hashing hmac state (.loginDashboardPassword other) around

variable {hashing hmac} {state : AuthState} {password hash : Bytes} {around : Surroundings}

theorem setup_stores (h : Succeeds hashing hmac state (.setupDashboardPassword password) around) :
    ∃ hash, hashPassword hashing around.salt (trimAscii password) = some hash ∧ 8 ≤ (trimAscii password).length ∧
      passwordHashOf (authCall hashing hmac state (.setupDashboardPassword password) around).1.store.settings =
        some hash := by
  obtain ⟨hrefusal, hstatus⟩ := h
  simp only [authCall, hrefusal] at hstatus ⊢
  unfold setupDashboardPassword at hstatus ⊢
  by_cases hrequired : passwordRequired state.store.settings = true
  · rw [if_pos hrequired] at hstatus
    cases hstatus
  · rw [if_neg hrequired] at hstatus ⊢
    by_cases hshort : (trimAscii password).length < 8
    · rw [if_pos hshort] at hstatus
      cases hstatus
    · rw [if_neg hshort] at hstatus ⊢
      cases hhash : hashPassword hashing around.salt (trimAscii password) with
      | none =>
        rw [hhash] at hstatus
        cases hstatus
      | some hash =>
        rw [hhash] at hstatus
        dsimp only at hstatus ⊢
        by_cases hfails : around.storeFails = true
        · rw [if_pos hfails] at hstatus
          cases hstatus
        · rw [if_neg hfails]
          exact ⟨hash, rfl, not_lt.mp hshort, rfl⟩

theorem ne_nil_of_verify (h : verifyPassword hashing password hash = true) : hash ≠ [] := by
  rintro rfl
  rw [verifyPassword, Bool.and_eq_true, Bool.and_eq_true] at h
  exact absurd h.1.2 (by decide)

theorem verify_of_login (hstored : passwordHashOf state.store.settings = some hash)
    (h : Succeeds hashing hmac state (.loginDashboardPassword password) around) :
    verifyPassword hashing password hash = true := by
  obtain ⟨hrefusal, hstatus⟩ := h
  simp only [authCall, hrefusal, loginDashboardPassword, hstored, Option.getD_some] at hstatus
  by_contra hverify
  rw [Bool.not_eq_true] at hverify
  simp only [hverify, Bool.not_false, if_true] at hstatus
  split_ifs at hstatus
  · cases hstatus
  · cases hstatus

theorem login_of_verify (hstored : passwordHashOf state.store.settings = some hash)
    (hverify : verifyPassword hashing password hash = true) (hrefusal : around.refusal = none)
    (hreport : around.reportRefusal = none) :
    Succeeds hashing hmac state (.loginDashboardPassword password) around := by
  have hrequired : passwordRequired state.store.settings = true := by
    rw [passwordRequired, hstored, Option.any_some]
    exact decide_eq_true (ne_nil_of_verify hverify)
  refine ⟨hrefusal, ?_⟩
  simp only [authCall, hrefusal, loginDashboardPassword, hrequired, hstored, Option.getD_some, hverify, Bool.not_true,
    Bool.false_eq_true, if_false, createSession, getDashboardAuthSession, hreport]

/-- After a setup that succeeds, its password logs in exactly when it has no blanks around it; a password that a setup
finds too short never does. -/
theorem set_up_password_logs_in_iff (hhashing : ExactHashing hashing)
    (hsetup : Succeeds hashing hmac state (.setupDashboardPassword password) around) (next : AuthState)
    (hnext : next.store = (authCall hashing hmac state (.setupDashboardPassword password) around).1.store) :
    (LogsInWith hashing hmac next password ↔ trimAscii password = password) ∧
      ∀ other around', (trimAscii other).length < 8 →
        ¬ Succeeds hashing hmac next (.loginDashboardPassword other) around' := by
  obtain ⟨hash, hhash, hlong, hstored⟩ := setup_stores hsetup
  rw [← hnext] at hstored
  have hverify := hhashing _ _ _ hhash
  have hshort : ∀ other around', (trimAscii other).length < 8 →
      ¬ Succeeds hashing hmac next (.loginDashboardPassword other) around' := by
    intro other around' hlength hlogin
    have hother := (hverify other).mp (verify_of_login hstored hlogin)
    rw [hother, trimAscii_trimAscii] at hlength
    exact absurd hlength (not_lt.mpr hlong)
  refine ⟨⟨fun h => ?_, fun htrim => ⟨fun around' hrefusal hreport => ?_, hshort⟩⟩, hshort⟩
  · exact ((hverify password).mp (verify_of_login hstored (h.login {} rfl rfl))).symm
  · exact login_of_verify hstored ((hverify password).mpr htrim.symm) hrefusal hreport

def fixedPassword : Bytes := ofString "password"

def fixedHash : Bytes := ofString "$argon2id$password"

def fixedHashing : PasswordHashing where
  pwhashStr _ password := if password = fixedPassword then some fixedHash else none
  pwhashStrVerify hash password := hash = fixedHash && password = fixedPassword

theorem exactHashing_fixedHashing : ExactHashing fixedHashing := by
  intro salt password hash hhash other
  have hpassword : password = fixedPassword ∧ fixedHash = hash := by
    rw [hashPassword] at hhash
    split_ifs at hhash
    obtain ⟨raw, hraw, rfl⟩ := Option.map_eq_some_iff.mp hhash
    change (if password = fixedPassword then some fixedHash else none) = some raw at hraw
    split_ifs at hraw with hfixed
    obtain rfl := Option.some_inj.mp hraw
    exact ⟨hfixed, by decide⟩
  obtain ⟨rfl, rfl⟩ := hpassword
  constructor
  · intro hverify
    rw [verifyPassword, Bool.and_eq_true] at hverify
    have hboth : (decide (fixedHash = fixedHash) && decide (other = fixedPassword)) = true := hverify.2
    rw [Bool.and_eq_true] at hboth
    exact of_decide_eq_true hboth.2
  · rintro rfl
    decide

def freshAuthState : AuthState := ⟨freshSettingsStore, .new 43200000, .empty⟩

theorem fixedPassword_logs_in : LogsInWith fixedHashing (fun _ _ => none)
    (authCall fixedHashing (fun _ _ => none) freshAuthState (.setupDashboardPassword fixedPassword) {}).1
    fixedPassword :=
  (set_up_password_logs_in_iff exactHashing_fixedHashing ⟨rfl, by decide⟩ _ rfl).1.mpr (by decide)

theorem padded_password_does_not_log_in :
    Succeeds fixedHashing (fun _ _ => none) freshAuthState (.setupDashboardPassword (32 :: fixedPassword)) {} ∧
      ¬ LogsInWith fixedHashing (fun _ _ => none)
        (authCall fixedHashing (fun _ _ => none) freshAuthState (.setupDashboardPassword (32 :: fixedPassword)) {}).1
        (32 :: fixedPassword) := by
  refine ⟨⟨rfl, by decide⟩, fun h => ?_⟩
  obtain ⟨-, hstatus⟩ := h.login {} rfl rfl
  revert hstatus
  decide

end Login

end Tightrope.Server
