import Tightrope.Db.SettingsRepo

namespace Tightrope.Server

open Bytes Tightrope.Core Db

structure DashboardSettingsUpdate where
  values : Assignment := fun _ => none
  lockedRoutingAccountIds : Option (List Bytes) := none
  own : ∀ column, column.IsCredential ∨ column = .connectAddress ∨ column = .lockedRoutingAccountIds →
    values column = none

structure Refusal where
  status : ℕ
  code : Bytes
  message : Bytes
  deriving DecidableEq, Repr

section Checks

def isValidUpstreamStreamTransport (value : Bytes) : Bool :=
  value = ofString "default" || value = ofString "auto" || value = ofString "http" || value = ofString "websocket"

def isValidTheme (value : Bytes) : Bool := value = ofString "auto" || value = ofString "dark" ||
    value = ofString "light"

def isValidRoutingStrategy (value : Bytes) : Bool :=
  let normalized := toLowerAscii (trimAscii value)
  normalized = ofString "round_robin" || normalized = ofString "weighted_round_robin" ||
    normalized = ofString "drain_hop"

def normalizeSupportedRoutingStrategy (value : Bytes) : Bytes :=
  let normalized := toLowerAscii (trimAscii value)
  if isValidRoutingStrategy normalized then normalized else ofString "weighted_round_robin"

def serializeLockedRoutingAccountIds (accountIds : List Bytes) : Bytes :=
  [44].intercalate (((accountIds.map trimAscii).filter (· ≠ [])).eraseDups)

def isValidConflictResolution (value : Bytes) : Bool :=
  value = ofString "lww" || value = ofString "site_priority" || value = ofString "field_merge"

def isValidWeight (value : Option ℚ) : Bool := value.all fun weight => 0 ≤ weight && weight ≤ 1

def cutAt (separator : UInt8) (text : Bytes) : Option (Bytes × Bytes) :=
  match text.span (· ≠ separator) with
  | (_, []) => none
  | (before, _ :: after) => some (before, after)

variable (strtod : Bytes → Option ℚ)

def parseNonNegativeDouble (raw : Bytes) : Bool :=
  let trimmed := trimAscii raw
  trimmed ≠ [] && (strtod (cstr trimmed)).any fun parsed => 0 ≤ parsed

def isValidPricingEntry (entry : Bytes) : Bool :=
  let token := trimAscii entry
  let prices : Option Bool := do
    let (left, right) ← cutAt 61 token
    let (plan, model) ← cutAt 64 (toLowerAscii (trimAscii left))
    let (input, output) ← cutAt 58 (trimAscii right)
    return trimAscii plan ≠ [] && trimAscii model ≠ [] && parseNonNegativeDouble strtod input &&
      parseNonNegativeDouble strtod output
  token = [] || prices.getD false

def isValidRoutingPlanModelPricing (rawValue : Bytes) : Bool :=
  ((trimAscii rawValue).splitOnP fun b => b = 44 || b = 59).all (isValidPricingEntry strtod)

end Checks

section Update

variable (strtod : Bytes → Option ℚ) (update : DashboardSettingsUpdate) (current : DashboardSettingsRecord)

def refuse (code message : String) : Refusal := { status := 400, code := ofString code, message := ofString message }

def positive (value : ℤ) : Bool := 0 < value

def within (low high value : ℤ) : Bool := low ≤ value && value ≤ high

def atMost (value bound : ℤ) : Bool := value ≤ bound

def filled (value : Bytes) : Bool := value ≠ []

def isValidSuccessRateRho (value : ℚ) : Bool := 0 < value && value ≤ 64

def DashboardSettingsUpdate.valueOr (column : SettingsColumn) : column.Value :=
  (update.values column).getD (current column)

def totpConfigured : Bool :=
  let totpSecret : Option Bytes := current .totpSecret
  totpSecret.any (· ≠ [])

-- In the order of the source; the first that fails is answered.
def settingsChecks : List (Bool × Refusal) :=
  [(isValidUpstreamStreamTransport (update.valueOr current .upstreamStreamTransport),
      refuse "invalid_upstream_stream_transport" "Invalid upstream stream transport"),
    (isValidTheme (update.valueOr current .theme), refuse "invalid_theme" "Invalid dashboard theme"),
    ((update.values .routingStrategy).all isValidRoutingStrategy,
      refuse "invalid_routing_strategy" "Invalid routing strategy"),
    (positive (update.valueOr current .openaiCacheAffinityMaxAgeSeconds),
      refuse "invalid_cache_affinity_ttl" "openai_cache_affinity_max_age_seconds must be positive"),
    (filled (update.valueOr current .syncClusterName),
      refuse "invalid_sync_cluster_name" "sync_cluster_name must not be empty"),
    (positive (update.valueOr current .syncSiteId), refuse "invalid_sync_site_id" "sync_site_id must be positive"),
    (within 1 65535 (update.valueOr current .syncPort),
      refuse "invalid_sync_port" "sync_port must be between 1 and 65535"),
    (within 0 86400 (update.valueOr current .syncIntervalSeconds),
      refuse "invalid_sync_interval_seconds" "sync_interval_seconds must be between 0 and 86400"),
    (isValidConflictResolution (update.valueOr current .syncConflictResolution),
      refuse "invalid_sync_conflict_resolution" "Invalid sync conflict resolution"),
    (within 1 3650 (update.valueOr current .syncJournalRetentionDays),
      refuse "invalid_sync_journal_retention_days" "sync_journal_retention_days must be between 1 and 3650"),
    (within 1 1000000 (update.valueOr current .syncSchemaVersion),
      refuse "invalid_sync_schema_version" "sync_schema_version must be between 1 and 1000000"),
    (within 1 1000000 (update.valueOr current .syncMinSupportedSchemaVersion),
      refuse "invalid_sync_min_supported_schema_version"
        "sync_min_supported_schema_version must be between 1 and 1000000"),
    (atMost (update.valueOr current .syncMinSupportedSchemaVersion) (update.valueOr current .syncSchemaVersion),
      refuse "invalid_sync_schema_range"
        "sync_min_supported_schema_version must be less than or equal to sync_schema_version"),
    (within 100 300000 (update.valueOr current .syncPeerProbeIntervalMs),
      refuse "invalid_sync_peer_probe_interval_ms" "sync_peer_probe_interval_ms must be between 100 and 300000"),
    (within 50 60000 (update.valueOr current .syncPeerProbeTimeoutMs),
      refuse "invalid_sync_peer_probe_timeout_ms" "sync_peer_probe_timeout_ms must be between 50 and 60000"),
    (within 1 64 (update.valueOr current .syncPeerProbeMaxPerRefresh),
      refuse "invalid_sync_peer_probe_max_per_refresh" "sync_peer_probe_max_per_refresh must be between 1 and 64"),
    (within 1 1000 (update.valueOr current .syncPeerProbeFailClosedFailures),
      refuse "invalid_sync_peer_probe_fail_closed_failures"
        "sync_peer_probe_fail_closed_failures must be between 1 and 1000"),
    (isValidWeight (update.values .routingHeadroomWeightPrimary) &&
        isValidWeight (update.values .routingHeadroomWeightSecondary) &&
        isValidWeight (update.values .routingScoreAlpha) && isValidWeight (update.values .routingScoreBeta) &&
        isValidWeight (update.values .routingScoreGamma) && isValidWeight (update.values .routingScoreDelta) &&
        isValidWeight (update.values .routingScoreZeta) && isValidWeight (update.values .routingScoreEta),
      refuse "invalid_routing_weight" "Routing weights must be between 0 and 1"),
    (isValidSuccessRateRho (update.valueOr current .routingSuccessRateRho),
      refuse "invalid_routing_success_rate_rho" "routing_success_rate_rho must be greater than 0 and at most 64"),
    (isValidRoutingPlanModelPricing strtod (update.valueOr current .routingPlanModelPricingUsdPerMillion),
      refuse "invalid_routing_plan_model_pricing_usd_per_million"
        "routing_plan_model_pricing_usd_per_million must use plan@model=input:output entries"),
    (!update.valueOr current .totpRequiredOnLogin || totpConfigured current,
      refuse "invalid_totp_config" "Configure TOTP before enabling login enforcement")]

def patchValues : Assignment
  | .connectAddress => none
  | .passwordHash => none
  | .totpSecret => none
  | .totpLastVerifiedStep => none
  | .routingStrategy => some (normalizeSupportedRoutingStrategy (update.valueOr current .routingStrategy))
  | .lockedRoutingAccountIds =>
    some ((update.lockedRoutingAccountIds.map serializeLockedRoutingAccountIds).getD (current .lockedRoutingAccountIds))
  | column => some (update.valueOr current column)

def settingsPatch : DashboardSettingsPatch where
  values := patchValues update current
  credentials := by
    rintro column (rfl | rfl | rfl) <;> rfl

-- `update_settings` up to the call of `update_dashboard_settings`.
def checkedPatch : Except Refusal DashboardSettingsPatch :=
  match (settingsChecks strtod update current).find? (!·.1) with
  | some check => .error check.2
  | none => .ok (settingsPatch update current)

end Update

end Tightrope.Server
