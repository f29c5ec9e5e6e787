import Tightrope.Db.Accounts

namespace Tightrope.Db

open Bytes Tightrope.Core RowTable

inductive ColumnType where
  | text
  | flag
  | number
  | real
  | optionalText
  | optionalNumber
  deriving DecidableEq, Repr

def ColumnType.Value : ColumnType → Type
  | .text => Bytes
  | .flag => Bool
  | .number => ℤ
  | .real => ℚ
  | .optionalText => Option Bytes
  | .optionalNumber => Option ℤ

instance ColumnType.decidableEq : (type : ColumnType) → DecidableEq type.Value
  | .text => inferInstanceAs (DecidableEq Bytes)
  | .flag => inferInstanceAs (DecidableEq Bool)
  | .number => inferInstanceAs (DecidableEq ℤ)
  | .real => inferInstanceAs (DecidableEq ℚ)
  | .optionalText => inferInstanceAs (DecidableEq (Option Bytes))
  | .optionalNumber => inferInstanceAs (DecidableEq (Option ℤ))

inductive SettingsColumn where
  | theme
  | stickyThreadsEnabled
  | upstreamStreamTransport
  | preferEarlierResetAccounts
  | routingStrategy
  | strictLockPoolContinuations
  | lockedRoutingAccountIds
  | openaiCacheAffinityMaxAgeSeconds
  | importWithoutOverwrite
  | totpRequiredOnLogin
  | apiKeyAuthEnabled
  | routingHeadroomWeightPrimary
  | routingHeadroomWeightSecondary
  | routingScoreAlpha
  | routingScoreBeta
  | routingScoreGamma
  | routingScoreDelta
  | routingScoreZeta
  | routingScoreEta
  | routingSuccessRateRho
  | routingPlanModelPricingUsdPerMillion
  | syncClusterName
  | syncSiteId
  | syncPort
  | syncDiscoveryEnabled
  | syncIntervalSeconds
  | syncConflictResolution
  | syncJournalRetentionDays
  | syncTlsEnabled
  | syncRequireHandshakeAuth
  | syncClusterSharedSecret
  | syncTlsVerifyPeer
  | syncTlsCaCertificatePath
  | syncTlsCertificateChainPath
  | syncTlsPrivateKeyPath
  | syncTlsPinnedPeerCertificateSha256
  | syncSchemaVersion
  | syncMinSupportedSchemaVersion
  | syncAllowSchemaDowngrade
  | syncPeerProbeEnabled
  | syncPeerProbeIntervalMs
  | syncPeerProbeTimeoutMs
  | syncPeerProbeMaxPerRefresh
  | syncPeerProbeFailClosed
  | syncPeerProbeFailClosedFailures
  | connectAddress
  | passwordHash
  | totpSecret
  | totpLastVerifiedStep
  deriving DecidableEq, Repr

namespace SettingsColumn

def type : SettingsColumn → ColumnType
  | .theme => .text
  | .upstreamStreamTransport => .text
  | .routingStrategy => .text
  | .lockedRoutingAccountIds => .text
  | .routingPlanModelPricingUsdPerMillion => .text
  | .syncClusterName => .text
  | .syncConflictResolution => .text
  | .syncClusterSharedSecret => .text
  | .syncTlsCaCertificatePath => .text
  | .syncTlsCertificateChainPath => .text
  | .syncTlsPrivateKeyPath => .text
  | .syncTlsPinnedPeerCertificateSha256 => .text
  | .connectAddress => .text
  | .openaiCacheAffinityMaxAgeSeconds => .number
  | .syncSiteId => .number
  | .syncPort => .number
  | .syncIntervalSeconds => .number
  | .syncJournalRetentionDays => .number
  | .syncSchemaVersion => .number
  | .syncMinSupportedSchemaVersion => .number
  | .syncPeerProbeIntervalMs => .number
  | .syncPeerProbeTimeoutMs => .number
  | .syncPeerProbeMaxPerRefresh => .number
  | .syncPeerProbeFailClosedFailures => .number
  | .routingHeadroomWeightPrimary => .real
  | .routingHeadroomWeightSecondary => .real
  | .routingScoreAlpha => .real
  | .routingScoreBeta => .real
  | .routingScoreGamma => .real
  | .routingScoreDelta => .real
  | .routingScoreZeta => .real
  | .routingScoreEta => .real
  | .routingSuccessRateRho => .real
  | .passwordHash => .optionalText
  | .totpSecret => .optionalText
  | .totpLastVerifiedStep => .optionalNumber
  | _ => .flag

abbrev Value (column : SettingsColumn) : Type := column.type.Value

def IsCredential (column : SettingsColumn) : Prop :=
  column = .passwordHash ∨ column = .totpSecret ∨ column = .totpLastVerifiedStep

instance (column : SettingsColumn) : Decidable column.IsCredential := inferInstanceAs (Decidable (_ ∨ _))

end SettingsColumn

abbrev DashboardSettingsRecord := (column : SettingsColumn) → column.Value

abbrev Assignment := (column : SettingsColumn) → Option column.Value

def defaultDashboardSettings : DashboardSettingsRecord
  | .theme => ofString "auto"
  | .stickyThreadsEnabled => false
  | .upstreamStreamTransport => ofString "default"
  | .preferEarlierResetAccounts => false
  | .routingStrategy => ofString "weighted_round_robin"
  | .strictLockPoolContinuations => false
  | .lockedRoutingAccountIds => []
  | .openaiCacheAffinityMaxAgeSeconds => (300 : ℤ)
  | .importWithoutOverwrite => false
  | .totpRequiredOnLogin => false
  | .apiKeyAuthEnabled => false
  | .routingHeadroomWeightPrimary => (35 / 100 : ℚ)
  | .routingHeadroomWeightSecondary => (65 / 100 : ℚ)
  | .routingScoreAlpha => (3 / 10 : ℚ)
  | .routingScoreBeta => (25 / 100 : ℚ)
  | .routingScoreGamma => (2 / 10 : ℚ)
  | .routingScoreDelta => (2 / 10 : ℚ)
  | .routingScoreZeta => (5 / 100 : ℚ)
  | .routingScoreEta => (1 : ℚ)
  | .routingSuccessRateRho => (2 : ℚ)
  | .routingPlanModelPricingUsdPerMillion => []
  | .syncClusterName => ofString "default"
  | .syncSiteId => (1 : ℤ)
  | .syncPort => (9400 : ℤ)
  | .syncDiscoveryEnabled => true
  | .syncIntervalSeconds => (5 : ℤ)
  | .syncConflictResolution => ofString "lww"
  | .syncJournalRetentionDays => (30 : ℤ)
  | .syncTlsEnabled => true
  | .syncRequireHandshakeAuth => true
  | .syncClusterSharedSecret => []
  | .syncTlsVerifyPeer => true
  | .syncTlsCaCertificatePath => []
  | .syncTlsCertificateChainPath => []
  | .syncTlsPrivateKeyPath => []
  | .syncTlsPinnedPeerCertificateSha256 => []
  | .syncSchemaVersion => (1 : ℤ)
  | .syncMinSupportedSchemaVersion => (1 : ℤ)
  | .syncAllowSchemaDowngrade => false
  | .syncPeerProbeEnabled => true
  | .syncPeerProbeIntervalMs => (5000 : ℤ)
  | .syncPeerProbeTimeoutMs => (500 : ℤ)
  | .syncPeerProbeMaxPerRefresh => (2 : ℤ)
  | .syncPeerProbeFailClosed => true
  | .syncPeerProbeFailClosedFailures => (3 : ℤ)
  | .connectAddress => []
  | .passwordHash => none
  | .totpSecret => none
  | .totpLastVerifiedStep => none

structure DashboardSettingsPatch where
  values : Assignment := fun _ => none
  credentials : ∀ column, column.IsCredential → values column = none

structure SettingsStore where
  settings : DashboardSettingsRecord
  accounts : Accounts

def freshSettingsStore : SettingsStore := { settings := defaultDashboardSettings, accounts := [] }

section Columns

def parseLockedRoutingAccountIds (raw : Bytes) : List Bytes :=
  ((((trimAscii raw).splitOn 44).map trimAscii).filter (· ≠ [])).eraseDups

def countLockedRoutingAccountIds (raw : Bytes) : ℕ := (parseLockedRoutingAccountIds raw).length

def assign (values : Assignment) (current : DashboardSettingsRecord) : DashboardSettingsRecord :=
  fun column => (values column).getD (current column)

def single (column : SettingsColumn) (value : column.Value) : Assignment :=
  Function.update (fun _ => none) column (some value)

@[simp] theorem assign_of_none {values : Assignment} {current : DashboardSettingsRecord} {column : SettingsColumn}
    (h : values column = none) : assign values current column = current column := by
  rw [assign, h, Option.getD_none]

theorem single_of_ne {column other : SettingsColumn} (value : column.Value) (h : other ≠ column) :
    single column value other = none := Function.update_of_ne h _ _

end Columns

section Statements

def updateDashboardSettings (patch : DashboardSettingsPatch) (stamp : Bytes) (current : DashboardSettingsRecord)
    (store : SettingsStore) : SettingsStore :=
  let next := assign patch.values current
  { settings := next
    accounts :=
      if 2 ≤ countLockedRoutingAccountIds (next .lockedRoutingAccountIds) then
        updateWhere Account.routingPinned (fun row => { row with routingPinned := false, updatedAt := stamp })
          store.accounts
      else store.accounts }

theorem updateDashboardSettings_credential (patch : DashboardSettingsPatch) (stamp : Bytes)
    (current : DashboardSettingsRecord) (store : SettingsStore) {column : SettingsColumn} (h : column.IsCredential) :
    (updateDashboardSettings patch stamp current store).settings column = current column :=
  assign_of_none (patch.credentials column h)

def passwordHashColumns (passwordHash : Option Bytes) : Assignment := single .passwordHash passwordHash

def totpSecretColumns (totpSecret : Option Bytes) : Assignment
  | .totpSecret => some totpSecret
  | .totpLastVerifiedStep => some none
  | .totpRequiredOnLogin => if totpSecret = none then some false else none
  | _ => none

def totpStepColumns (step : ℤ) : Assignment := single .totpLastVerifiedStep (some step)

def setDashboardPasswordHash (passwordHash : Option Bytes) (store : SettingsStore) : SettingsStore :=
  { store with settings := assign (passwordHashColumns passwordHash) store.settings }

def setDashboardTotpSecret (totpSecret : Option Bytes) (store : SettingsStore) : SettingsStore :=
  { store with settings := assign (totpSecretColumns totpSecret) store.settings }

-- `none` where no row is changed.
def advanceDashboardTotpLastVerifiedStep (step : ℤ) (store : SettingsStore) : Option SettingsStore :=
  let last : Option ℤ := store.settings .totpLastVerifiedStep
  if last.all (· < step) then some { store with settings := assign (totpStepColumns step) store.settings }
  else none

end Statements

end Tightrope.Db
