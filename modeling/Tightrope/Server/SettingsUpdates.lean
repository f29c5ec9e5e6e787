import Tightrope.Library.Interleaving
import Tightrope.Server.SettingsController

namespace Tightrope.Server

open Bytes Tightrope.Core Db Interleaving

inductive SettingsWriter where
  | updateSettings (update : DashboardSettingsUpdate)
  | updateDashboardSettings (patch : DashboardSettingsPatch)
  | setDashboardPasswordHash (passwordHash : Option Bytes)
  | setDashboardTotpSecret (totpSecret : Option Bytes)
  | advanceDashboardTotpLastVerifiedStep (step : ℤ)

structure SettingsReads where
  controller : DashboardSettingsRecord := defaultDashboardSettings
  repository : DashboardSettingsRecord := defaultDashboardSettings

def readForController (store : SettingsStore) (held : SettingsReads) : SettingsReads :=
  { held with controller := store.settings }

def readForRepository (store : SettingsStore) (held : SettingsReads) : SettingsReads :=
  { held with repository := store.settings }

namespace SettingsWriter

def reads : SettingsWriter → List (SettingsStore → SettingsReads → SettingsReads)
  | updateSettings _ => [readForController, readForRepository]
  | updateDashboardSettings _ => [readForRepository]
  | _ => []

def write (strtod : Bytes → Option ℚ) (stamp : Bytes) (writer : SettingsWriter) (store : SettingsStore)
    (held : SettingsReads) : Option SettingsStore :=
  match writer with
  | updateSettings update =>
    match checkedPatch strtod update held.controller with
    | .error _ => none
    | .ok patch => some (Db.updateDashboardSettings patch stamp held.repository store)
  | updateDashboardSettings patch => some (Db.updateDashboardSettings patch stamp held.repository store)
  | setDashboardPasswordHash passwordHash => some (Db.setDashboardPasswordHash passwordHash store)
  | setDashboardTotpSecret totpSecret => some (Db.setDashboardTotpSecret totpSecret store)
  | advanceDashboardTotpLastVerifiedStep step => Db.advanceDashboardTotpLastVerifiedStep step store

def names : SettingsWriter → Assignment
  | updateSettings update => fun
    | .routingStrategy => (update.values .routingStrategy).map normalizeSupportedRoutingStrategy
    | .lockedRoutingAccountIds => update.lockedRoutingAccountIds.map serializeLockedRoutingAccountIds
    | column => update.values column
  | updateDashboardSettings patch => patch.values
  | setDashboardPasswordHash passwordHash => passwordHashColumns passwordHash
  | setDashboardTotpSecret totpSecret => totpSecretColumns totpSecret
  | advanceDashboardTotpLastVerifiedStep step => totpStepColumns step

end SettingsWriter

/-- Both calls have succeeded, with the database steps in the order of the schedule. -/
def settingsCalls (strtod : Bytes → Option ℚ) (stamp : Bytes) (writers : Caller → SettingsWriter)
    (schedule : List Caller) (store : SettingsStore) : Option SettingsStore :=
  outcome (fun c => (writers c).write strtod stamp) (fun c => (writers c).reads) {} store schedule

section Property

def standsFor : (column : SettingsColumn) → column.Value → column.Value
  | .routingStrategy, value => normalizeSupportedRoutingStrategy value
  | _, value => value

def SameSetting (column : SettingsColumn) (a b : column.Value) : Prop := standsFor column a = standsFor column b

def DisjointFields (writers : Caller → SettingsWriter) : Prop :=
  ∀ column, (writers .first).names column = none ∨ (writers .second).names column = none

structure NoUpdateLost (writers : Caller → SettingsWriter) (store final : SettingsStore) : Prop where
  named : ∀ c column value, (writers c).names column = some value → SameSetting column (final.settings column) value
  others : ∀ column, (∀ c, (writers c).names column = none) →
    SameSetting column (final.settings column) (store.settings column)

def SettingsWriter.sinceRead : SettingsWriter → SettingsColumn → ℕ
  | .updateSettings _, .connectAddress => 2
  | .updateSettings _, .passwordHash => 2
  | .updateSettings _, .totpSecret => 2
  | .updateSettings _, .totpLastVerifiedStep => 2
  | .updateSettings _, _ => 3
  | .updateDashboardSettings _, _ => 2
  | _, _ => 1

/-- Each field that the first of the two to write has named had that value before, or the other call has read the field
after that write. -/
def ReadsWhatIsWritten (writers : Caller → SettingsWriter) (schedule : List Caller) (store : SettingsStore) : Prop :=
  ∃ last, EndsAlone schedule last 1 ∧ ∀ column value, (writers last.other).names column = some value →
    SameSetting column (store.settings column) value ∨ EndsAlone schedule last ((writers last).sinceRead column)

end Property

section Writers

theorem normalizeSupportedRoutingStrategy_supported (value : Bytes) :
    normalizeSupportedRoutingStrategy value ∈
      [ofString "round_robin", ofString "weighted_round_robin", ofString "drain_hop"] := by
  unfold normalizeSupportedRoutingStrategy
  simp only
  split_ifs with hvalid
  · have hnormal : toLowerAscii (trimAscii (toLowerAscii (trimAscii value))) = toLowerAscii (trimAscii value) := by
      rw [trimAscii_eq_self.mpr (trimmed_toLowerAscii (trimmed_trimAscii value)), toLowerAscii_toLowerAscii]
    simpa [isValidRoutingStrategy, hnormal, or_assoc] using hvalid
  · decide

theorem standsFor_standsFor (column : SettingsColumn) (value : column.Value) :
    standsFor column (standsFor column value) = standsFor column value := by
  cases column
  case routingStrategy =>
    have hsupported : ∀ strategy ∈ [ofString "round_robin", ofString "weighted_round_robin", ofString "drain_hop"],
        normalizeSupportedRoutingStrategy strategy = strategy := by decide
    change normalizeSupportedRoutingStrategy (normalizeSupportedRoutingStrategy value) = _
    rw [hsupported _ (normalizeSupportedRoutingStrategy_supported value)]
    rfl
  all_goals rfl

def SettingsWriter.readOf (writer : SettingsWriter) (column : SettingsColumn) (held : SettingsReads)
    (store : SettingsStore) : column.Value :=
  match writer.sinceRead column with
  | 3 => held.controller column
  | 2 => held.repository column
  | _ => store.settings column

theorem assign_patchValues (update : DashboardSettingsUpdate) (held : SettingsReads) (store : SettingsStore)
    (column : SettingsColumn) :
    SameSetting column (assign (patchValues update held.controller) held.repository column)
      (((SettingsWriter.updateSettings update).names column).getD
        ((SettingsWriter.updateSettings update).readOf column held store)) := by
  have hown := update.own column
  cases column
  case routingStrategy =>
    change standsFor .routingStrategy (standsFor .routingStrategy ((update.values .routingStrategy).getD _)) =
      standsFor .routingStrategy (((update.values .routingStrategy).map (standsFor .routingStrategy)).getD _)
    rw [standsFor_standsFor]
    cases update.values .routingStrategy with
    | none => rfl
    | some value => exact (standsFor_standsFor .routingStrategy value).symm
  case connectAddress =>
    change SameSetting _ (held.repository .connectAddress) ((update.values .connectAddress).getD _)
    rw [hown (by decide)]
    rfl
  case passwordHash =>
    change SameSetting _ (held.repository .passwordHash) ((update.values .passwordHash).getD _)
    rw [hown (by decide)]
    rfl
  case totpSecret =>
    change SameSetting _ (held.repository .totpSecret) ((update.values .totpSecret).getD _)
    rw [hown (by decide)]
    rfl
  case totpLastVerifiedStep =>
    change SameSetting _ (held.repository .totpLastVerifiedStep) ((update.values .totpLastVerifiedStep).getD _)
    rw [hown (by decide)]
    rfl
  all_goals rfl

variable {strtod : Bytes → Option ℚ} {stamp : Bytes}

theorem write_column {writer : SettingsWriter} {store final : SettingsStore} {held : SettingsReads}
    (h : writer.write strtod stamp store held = some final) (column : SettingsColumn) :
    SameSetting column (final.settings column) ((writer.names column).getD (writer.readOf column held store)) := by
  cases writer with
  | updateSettings update =>
    simp only [SettingsWriter.write, checkedPatch] at h
    split at h
    · cases h
    · rename_i patch hpatch
      split at hpatch
      · cases hpatch
      · cases hpatch
        obtain rfl := Option.some.inj h
        exact assign_patchValues update held store column
  | updateDashboardSettings patch =>
    obtain rfl := Option.some.inj h
    rfl
  | setDashboardPasswordHash passwordHash =>
    obtain rfl := Option.some.inj h
    rfl
  | setDashboardTotpSecret totpSecret =>
    obtain rfl := Option.some.inj h
    rfl
  | advanceDashboardTotpLastVerifiedStep step =>
    simp only [SettingsWriter.write, advanceDashboardTotpLastVerifiedStep] at h
    split_ifs at h
    obtain rfl := Option.some.inj h
    rfl

theorem readOf_readAll (writer : SettingsWriter) (column : SettingsColumn) (store : SettingsStore) :
    writer.readOf column (readAll writer.reads store {}) store = store.settings column := by
  cases writer with
  | updateSettings update => cases column <;> rfl
  | _ => rfl

theorem readOf_late {writer : SettingsWriter} {early late : List (SettingsStore → SettingsReads → SettingsReads)}
    (hreads : writer.reads = early ++ late) (column : SettingsColumn) (store middle : SettingsStore) :
    writer.readOf column (readAll late middle (readAll early store {})) middle =
      if writer.sinceRead column ≤ late.length + 1 then middle.settings column else store.settings column := by
  cases writer with
  | updateSettings update =>
    obtain _ | ⟨first, _ | ⟨second, rest⟩⟩ := early
    · obtain rfl : _ = late := hreads
      cases column <;> rfl
    · obtain ⟨rfl, rfl⟩ : _ = first ∧ _ = late := by simpa [SettingsWriter.reads] using hreads
      cases column <;> rfl
    · obtain ⟨rfl, rfl, rfl, rfl⟩ : _ = first ∧ _ = second ∧ rest = [] ∧ late = [] := by
        simpa [SettingsWriter.reads] using hreads
      cases column <;> rfl
  | updateDashboardSettings patch =>
    obtain _ | ⟨first, rest⟩ := early
    · obtain rfl : _ = late := hreads
      rfl
    · obtain ⟨rfl, rfl, rfl⟩ : _ = first ∧ rest = [] ∧ late = [] := by simpa [SettingsWriter.reads] using hreads
      rfl
  | _ =>
    obtain ⟨rfl, rfl⟩ : early = [] ∧ late = [] := by simpa [SettingsWriter.reads] using hreads.symm
    rfl

end Writers

section Concurrent

variable {strtod : Bytes → Option ℚ} {stamp : Bytes} {writers : Caller → SettingsWriter} {schedule : List Caller}
  {store final : SettingsStore}

theorem DisjointFields.other_none (h : DisjointFields writers) {c : Caller} {column : SettingsColumn}
    {value : column.Value} (hvalue : (writers c.other).names column = some value) :
    (writers c).names column = none := by
  have hcolumn := h column
  cases c with
  | first => exact hcolumn.resolve_right (by simp [show (writers .second).names column = _ from hvalue])
  | second => exact hcolumn.resolve_left (by simp [show (writers .first).names column = _ from hvalue])

/-- Two concurrent writers of disjoint fields lose no update exactly where the one that writes last has read, after the
other's write, all that the other has changed. -/
theorem settings_updates_kept_iff (hdisjoint : DisjointFields writers)
    (h : settingsCalls strtod stamp writers schedule store = some final) :
    NoUpdateLost writers store final ↔ ReadsWhatIsWritten writers schedule store := by
  obtain ⟨last, early, late, middle, hreads, hends, hlate, hfirst, hlast⟩ := outcome_cases h
  have hmiddle := write_column hfirst
  have hfinal := write_column hlast
  simp only [readOf_readAll] at hmiddle
  simp only [readOf_late hreads] at hfinal
  constructor
  · intro hkept
    refine ⟨last, (hends last).mpr rfl, ?_⟩
    intro column value hvalue
    rw [hlate]
    have hnamed := hkept.named last.other column value hvalue
    have hcolumn := hfinal column
    rw [hdisjoint.other_none hvalue, Option.getD_none] at hcolumn
    split_ifs at hcolumn with hseen
    · exact .inr hseen
    · exact .inl (hcolumn.symm.trans hnamed)
  · rintro ⟨last', hlast', hseen⟩
    obtain rfl := (hends last').mp hlast'
    constructor
    · intro c column value hvalue
      have hcolumn := hfinal column
      obtain rfl | rfl := Caller.eq_or_eq_other last' c
      · rwa [hvalue, Option.getD_some] at hcolumn
      · have hother := hmiddle column
        rw [hvalue, Option.getD_some] at hother
        rw [hdisjoint.other_none hvalue, Option.getD_none] at hcolumn
        obtain hsame | hlater := hseen column value hvalue
        · split_ifs at hcolumn
          · exact hcolumn.trans hother
          · exact hcolumn.trans hsame
        · rw [if_pos ((hlate _).mp hlater)] at hcolumn
          exact hcolumn.trans hother
    · intro column hnone
      have hcolumn := hfinal column
      have hother := hmiddle column
      rw [hnone, Option.getD_none] at hcolumn hother
      split_ifs at hcolumn
      · exact hcolumn.trans hother
      · exact hcolumn

def darkTheme : DashboardSettingsUpdate where
  values := single .theme (ofString "dark")
  own := by
    rintro column ((rfl | rfl | rfl) | rfl | rfl) <;> rfl

def themeAndPassword : Caller → SettingsWriter
  | .first => .updateSettings darkTheme
  | .second => .setDashboardPasswordHash (some (ofString "hash"))

theorem themeAndPassword_disjoint : DisjointFields themeAndPassword := by
  intro column
  by_cases hcolumn : column = .passwordHash
  · subst hcolumn
    exact .inl rfl
  · exact .inr (single_of_ne _ hcolumn)

theorem password_after_theme_is_kept :
    ∃ final, settingsCalls (fun _ => none) [] themeAndPassword [.first, .first, .first, .second]
      freshSettingsStore = some final ∧
      NoUpdateLost themeAndPassword freshSettingsStore final := by
  obtain ⟨final, hrun⟩ : ∃ final, settingsCalls (fun _ => none) [] themeAndPassword [.first, .first, .first, .second]
      freshSettingsStore = some final := ⟨_, rfl⟩
  refine ⟨final, hrun, (settings_updates_kept_iff themeAndPassword_disjoint hrun).mpr ?_⟩
  refine ⟨.second, by decide, ?_⟩
  intro column value _
  right
  change EndsAlone _ _ 1
  decide

theorem password_during_theme_is_lost :
    DisjointFields themeAndPassword ∧ ∃ final,
      settingsCalls (fun _ => none) [] themeAndPassword [.first, .first, .second, .first]
        freshSettingsStore = some final ∧
        ¬ NoUpdateLost themeAndPassword freshSettingsStore final := by
  refine ⟨themeAndPassword_disjoint, _, rfl, ?_⟩
  intro h
  have hlost := h.named .second .passwordHash (some (ofString "hash")) rfl
  cases hlost

end Concurrent

end Tightrope.Server
