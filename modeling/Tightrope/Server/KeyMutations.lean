import Tightrope.Server.KeysController

namespace Tightrope.Server.KeysController

open Auth.ApiKeys Bytes Tightrope.Core Db.ApiKeyRepo

section Specification

variable (json : StringListJson)

def createdSettings (request : ApiKeyCreateRequest) : KeySettings where
  name := trimAscii request.name
  isActive := true
  allowedModels := serializeAllowedModels json (normalizeAllowedModels request.allowedModels)
  enforcedModel := normalizeOptionalSlug request.enforcedModel
  enforcedReasoningEffort := (request.enforcedReasoningEffort.bind normalizeReasoningEffort).filter (· ≠ [])
  expiresAt := request.expiresAt
  limits := request.limits.map ApiKeyLimitRuleInput.input

def updatedSettings (request : ApiKeyUpdateRequest) (settings : KeySettings) : KeySettings where
  name := request.name.elim settings.name trimAscii
  isActive := request.isActive.getD settings.isActive
  allowedModels := request.allowedModels.elim settings.allowedModels fun models =>
    (serializeAllowedModels json (normalizeAllowedModels (some models))).filter (· ≠ [])
  enforcedModel := request.enforcedModel.elim settings.enforcedModel fun model => normalizeOptionalSlug (some model)
  enforcedReasoningEffort := request.enforcedReasoningEffort.elim settings.enforcedReasoningEffort fun effort =>
    (normalizeReasoningEffort effort).filter (· ≠ [])
  expiresAt := request.expiresAt.elim settings.expiresAt nullif
  limits := request.limits.elim settings.limits fun limits => limits.map ApiKeyLimitRuleInput.input

def CreateAllOrNothing (env : CreateEnv) (request : ApiKeyCreateRequest) (t : Tables) : Prop :=
  let result := createApiKey json env request t
  (400 ≤ result.2.status → result.1 = t) ∧
    (result.2.status < 400 → result.1.settings? env.keyId = some (createdSettings json request) ∧
      ∀ other, other ≠ env.keyId → result.1.settings? other = t.settings? other)

def UpdateAllOrNothing (env : UpdateEnv) (keyId : Bytes) (request : ApiKeyUpdateRequest) (t : Tables) : Prop :=
  let result := updateApiKey json env keyId request t
  (400 ≤ result.2.status → result.1 = t) ∧
    (result.2.status < 400 → (∃ settings, t.settings? keyId = some settings ∧
        result.1.settings? keyId = some (updatedSettings json request settings)) ∧
      ∀ other, other ≠ keyId → result.1.settings? other = t.settings? other)

end Specification

section Answers

variable {t : Tables} {refresh : Access} {keyId : Bytes} {missing : ApiKeyMutationResponse}
  {found : ApiKeyRecord → ApiKeyMutationResponse}

theorem answerFrom_fst : (answerFrom t refresh keyId missing found).1 = t.backfilled refresh.backfills := by
  rw [answerFrom, getApiKeyByKeyId_eq]
  split <;> next heq => exact (congrArg Prod.fst heq).symm

theorem answerFrom_of_works {row : KeyRow} (hworks : refresh.works = true) (hkeyId : keyId ≠ [])
    (hrow : t.row? keyId = some row) : ∃ record, (answerFrom t refresh keyId missing found).2 = found record := by
  have hfilled := row?_backfilled t refresh.backfills keyId
  rw [hrow, Option.map_some] at hfilled
  rw [answerFrom, getApiKeyByKeyId_eq, if_pos ⟨hworks, hkeyId⟩, hfilled]
  exact ⟨_, rfl⟩

theorem answerFrom_of_not_works (hworks : refresh.works = false) :
    (answerFrom t refresh keyId missing found).2 = missing := by
  rw [answerFrom, getApiKeyByKeyId_eq, if_neg (by simp [hworks])]

end Answers

section Create

variable {json : StringListJson} {env : CreateEnv} {request : ApiKeyCreateRequest} {t : Tables} {checked : CheckedKey}

theorem status_of_guard {overrideAllow : Option Bool} {leaderId : Option Bytes} {tableName : Bytes}
    (h : (checkLinearizableReadAccess overrideAllow leaderId tableName).allow = false) :
    (checkLinearizableReadAccess overrideAllow leaderId tableName).status = 503 := by
  unfold checkLinearizableReadAccess at h ⊢
  by_cases hraft : Sync.tableRequiresRaft tableName = false
  · rw [if_pos hraft] at h
    cases h
  · rw [if_neg hraft] at h ⊢
    by_cases hallow : overrideAllow.getD true = true
    · rw [if_pos hallow] at h
      cases h
    · rw [if_neg hallow]
      rfl

theorem status_of_checkCreate {response : ApiKeyMutationResponse} (h : checkCreate json env request = .error response) :
    400 ≤ response.status := by
  unfold checkCreate at h
  dsimp only at h
  split_ifs at h with hguard hopens hname henforced
  · cases h
    rw [LinearizableReadGuardResult.response, status_of_guard hguard]
    exact Nat.le_of_ble_eq_true rfl
  · cases h
    decide
  · cases h
    decide
  · cases h
    decide
  · split at h
    · cases h
      decide
    · split at h
      · cases h
        decide
      · split at h
        · cases h
          decide
        · cases h

structure Checked (json : StringListJson) (env : CreateEnv) (request : ApiKeyCreateRequest) (checked : CheckedKey) :
    Prop where
  keyId : checked.row.keyId = env.keyId
  settings : ∀ t : Tables, { t.settingsOf checked.row with limits := [] } =
    { createdSettings json request with limits := [] }
  limits : checked.limits = request.limits.map ApiKeyLimitRuleInput.input
  valid : ∀ limit ∈ checked.limits, validLimit limit.limitType limit.limitWindow limit.maxValue = true

theorem normalizeLimits_eq_some {limits : List ApiKeyLimitRuleInput} {normalized : List ApiKeyLimitInput}
    (h : normalizeLimits limits = some normalized) :
    normalized = limits.map ApiKeyLimitRuleInput.input ∧
      ∀ limit ∈ normalized, validLimit limit.limitType limit.limitWindow limit.maxValue = true := by
  unfold normalizeLimits at h
  split_ifs at h with hvalid
  cases h
  refine ⟨rfl, ?_⟩
  rw [List.all_eq_true] at hvalid
  intro limit hlimit
  obtain ⟨rule, hrule, rfl⟩ := List.mem_map.mp hlimit
  exact hvalid rule hrule

theorem checked_of_ok (h : checkCreate json env request = .ok checked) : Checked json env request checked := by
  unfold checkCreate at h
  dsimp only at h
  split_ifs at h with hguard hopens hname henforced
  split at h
  · cases h
  · next effort heffort =>
    split at h
    · cases h
    · next limits hlimits =>
      split at h
      · cases h
      · next material hmaterial =>
        cases h
        obtain ⟨hinput, hvalid⟩ := normalizeLimits_eq_some hlimits
        refine ⟨rfl, fun t => ?_, hinput, hvalid⟩
        have heq : effort.filter (· ≠ []) =
            (request.enforcedReasoningEffort.bind normalizeReasoningEffort).filter (· ≠ []) := by
          unfold checkedEffort at heffort
          cases hrequested : request.enforcedReasoningEffort with
          | none =>
            rw [hrequested] at heffort
            cases heffort
            rfl
          | some value =>
            rw [hrequested] at heffort
            obtain ⟨normalized, hnormalized, rfl⟩ := Option.map_eq_some_iff.mp heffort
            rw [Option.bind_some, hnormalized]
        simpa [Tables.settingsOf, Tables.record, ApiKeyRecord.settings, createdSettings] using heq

structure CreateFinishes (env : CreateEnv) (limits : List ApiKeyLimitInput) : Prop where
  reloads : env.reload.works = true
  stores : limits ≠ [] → Stores env.store limits
  refreshes : env.refresh.works = true

def CreateIsClean (json : StringListJson) (env : CreateEnv) (request : ApiKeyCreateRequest) (t : Tables) : Prop :=
  ∀ checked, checkCreate json env request = .ok checked →
    (t.Inserts env.insert checked.row → CreateFinishes env checked.limits) ∧
      (¬ t.Inserts env.insert checked.row → env.insert.resolves = true → t.backfilled env.insert.backfills = t)

theorem length_backfilled (t : Tables) (backfills : ℕ) : (t.backfilled backfills).keys.length = t.keys.length :=
  List.length_map _

theorem createApiKey_of_error {response : ApiKeyMutationResponse} (h : checkCreate json env request = .error response) :
    createApiKey json env request t = (t, response) := by
  rw [createApiKey, h]

theorem createApiKey_of_not_inserts' (h : checkCreate json env request = .ok checked)
    (hinserts : ¬ t.Inserts env.insert checked.row) :
    createApiKey json env request t = (if env.insert.resolves then t.backfilled env.insert.backfills else t,
      failure 500 "api_key_create_failed" "Failed to create API key") := by
  rw [createApiKey, h]
  dsimp only
  rw [createApiKey_of_not_inserts env.reload hinserts]

theorem settings?_created (h : Checked json env request checked) {ready : Tables}
    (hsettings : ∀ keyId, ready.settings? keyId = t.settings? keyId) (hkeyId hkeyHash) (other : Bytes) :
    (ready.insertKey checked.row hkeyId hkeyHash).settings? other =
      if other = env.keyId then some { createdSettings json request with limits := [] } else t.settings? other := by
  rw [settings?_insertKey, h.keyId, h.settings, hsettings]

structure Created (json : StringListJson) (env : CreateEnv) (request : ApiKeyCreateRequest) (t created : Tables) :
    Prop where
  keyId : env.keyId ≠ []
  row : ∃ row, created.row? env.keyId = some row
  length : created.keys.length = t.keys.length + 1
  settings : ∀ other, created.settings? other =
    if other = env.keyId then some { createdSettings json request with limits := [] } else t.settings? other

theorem Created.backfilled {created : Tables} (h : Created json env request t created) (backfills : ℕ) :
    Created json env request t (created.backfilled backfills) := by
  obtain ⟨row, hrow⟩ := h.row
  refine ⟨h.keyId, ⟨row.filled backfills, ?_⟩, ?_, fun other => ?_⟩
  · rw [row?_backfilled, hrow]
    rfl
  · rw [length_backfilled, h.length]
  · rw [settings?_backfilled, h.settings]

theorem exists_created (h : Checked json env request checked) (hinserts : t.Inserts env.insert checked.row) :
    ∃ created, Created json env request t created ∧
      t.createApiKey env.insert env.reload checked.row = created.getApiKeyByKeyId env.reload env.keyId := by
  obtain ⟨hkeyId, hkeyHash, heq⟩ := createApiKey_of_inserts env.reload hinserts
  refine ⟨_, ⟨?_, ?_, ?_, ?_⟩, heq.trans (by rw [h.keyId])⟩
  · rw [← h.keyId]
    exact hinserts.named.1
  · refine ⟨_, (row?_insertKey _ _ hkeyId hkeyHash _).trans (if_pos h.keyId.symm)⟩
  · rw [Tables.insertKey, List.length_append, length_backfilled]
    rfl
  · exact settings?_created h (settings?_backfilled t env.insert.backfills) hkeyId hkeyHash

theorem limitWindow_ne_nil {limit : ApiKeyLimitInput}
    (h : validLimit limit.limitType limit.limitWindow limit.maxValue = true) : limit.limitWindow ≠ [] := by
  intro hnil
  rw [hnil, validLimit] at h
  exact absurd h (by simp [show windowToPeriodSeconds [] = none by decide])

theorem Created.withLimits {created : Tables} (h : Created json env request t created)
    (hchecked : Checked json env request checked) {row : KeyRow} (hrow : created.row? env.keyId = some row)
    (hle : row.id ≤ created.keySequence) (other : Bytes) :
    (created.withLimits ⟨row.id, hle⟩ checked.limits env.now).settings? other =
      if other = env.keyId then some (createdSettings json request) else t.settings? other := by
  have hsettings := h.settings env.keyId
  rw [if_pos rfl, Tables.settings?, hrow, Option.map_some, Option.some_inj] at hsettings
  rw [settings?_withLimits hrow hle fun limit hlimit => limitWindow_ne_nil (hchecked.valid limit hlimit), h.settings,
    hsettings, hchecked.limits]
  split_ifs
  · rfl
  · rfl

theorem answerCreated_of_works {plainKey : Bytes} {stored : Tables} {row : KeyRow} (hworks : env.refresh.works = true)
    (hkeyId : env.keyId ≠ []) (hrow : stored.row? env.keyId = some row) :
    (answerCreated json env plainKey env.keyId stored).2.status = 201 := by
  obtain ⟨record, hrecord⟩ := answerFrom_of_works hworks hkeyId hrow
  exact (congrArg ApiKeyMutationResponse.status hrecord).trans rfl

theorem answerCreated_of_not_works {plainKey : Bytes} {stored : Tables} (hworks : env.refresh.works = false) :
    (answerCreated json env plainKey env.keyId stored).2.status = 500 := by
  rw [answerCreated, answerFrom_of_not_works hworks]
  rfl

theorem finishes_of_inserts (h : checkCreate json env request = .ok checked)
    (hinserts : t.Inserts env.insert checked.row) :
    (CreateFinishes env checked.limits → (createApiKey json env request t).2.status = 201 ∧
      ∀ other, (createApiKey json env request t).1.settings? other =
        if other = env.keyId then some (createdSettings json request) else t.settings? other) ∧
      (¬ CreateFinishes env checked.limits → 400 ≤ (createApiKey json env request t).2.status ∧
        (createApiKey json env request t).1.keys.length = t.keys.length + 1) := by
  have hchecked := checked_of_ok h
  obtain ⟨created, hcreated, heq⟩ := exists_created hchecked hinserts
  have hready := hcreated.backfilled env.reload.backfills
  obtain ⟨row, hrow⟩ := hready.row
  have hkey : row.keyId = env.keyId := RowTable.key_of_rowOf KeyRow.keyId hrow
  rw [createApiKey, h]
  dsimp only
  rw [heq, getApiKeyByKeyId_eq]
  by_cases hreloads : env.reload.works = true
  · rw [if_pos ⟨hreloads, hcreated.keyId⟩, hrow]
    simp only [Option.map_some, Tables.record, hkey]
    by_cases hnone : checked.limits = []
    · rw [if_pos hnone]
      by_cases hrefreshes : env.refresh.works = true
      · refine ⟨fun _ => ⟨answerCreated_of_works hrefreshes hcreated.keyId hrow, fun other => ?_⟩,
          fun hfails => absurd ⟨hreloads, fun hsome => absurd hnone hsome, hrefreshes⟩ hfails⟩
        rw [answerCreated, answerFrom_fst, settings?_backfilled, hready.settings]
        have hlimits : (createdSettings json request).limits = [] := hchecked.limits.symm.trans hnone
        rw [← hlimits]
      · refine ⟨fun hfinishes => absurd hfinishes.refreshes hrefreshes, fun _ => ?_⟩
        rw [answerCreated_of_not_works (by simpa using hrefreshes), answerCreated, answerFrom_fst, length_backfilled]
        exact ⟨by decide, hready.length⟩
    · rw [if_neg hnone]
      by_cases hstores : Stores env.store checked.limits
      · obtain ⟨filled, hle, records, hfilled, hreplace⟩ := replaceApiKeyLimits_of_stores hstores hrow env.now
        rw [hreplace]
        dsimp only
        have hfull := hready.backfilled env.store.backfills
        have hstored := hfull.withLimits hchecked hfilled hle
        by_cases hrefreshes : env.refresh.works = true
        · refine ⟨fun _ => ⟨answerCreated_of_works hrefreshes hcreated.keyId hfilled, fun other => ?_⟩,
            fun hfails => absurd ⟨hreloads, fun _ => hstores, hrefreshes⟩ hfails⟩
          rw [answerCreated, answerFrom_fst, settings?_backfilled, hstored]
        · refine ⟨fun hfinishes => absurd hfinishes.refreshes hrefreshes, fun _ => ?_⟩
          rw [answerCreated_of_not_works (by simpa using hrefreshes), answerCreated, answerFrom_fst, length_backfilled]
          exact ⟨by decide, hfull.length⟩
      · refine ⟨fun hfinishes => absurd (hfinishes.stores hnone) hstores, fun _ => ?_⟩
        obtain hsame | hsame := replaceApiKeyLimits_of_not_stores hstores
          (created.backfilled env.reload.backfills) env.keyId env.now
        · rw [hsame]
          exact ⟨show 400 ≤ 500 by decide, hready.length⟩
        · rw [hsame]
          exact ⟨show 400 ≤ 500 by decide, (length_backfilled _ _).trans hready.length⟩
  · rw [if_neg fun hboth => hreloads hboth.1]
    dsimp only
    refine ⟨fun hfinishes => absurd hfinishes.reloads hreloads, fun _ => ⟨by decide, hready.length⟩⟩

theorem create_all_or_nothing_iff (json : StringListJson) (env : CreateEnv) (request : ApiKeyCreateRequest)
    (t : Tables) : CreateAllOrNothing json env request t ↔ CreateIsClean json env request t := by
  unfold CreateAllOrNothing CreateIsClean
  dsimp only
  cases h : checkCreate json env request with
  | error response =>
    have hstatus := status_of_checkCreate h
    rw [createApiKey_of_error h]
    constructor
    · nofun
    · intro _
      exact ⟨fun _ => rfl, fun hlow => absurd hstatus (not_le.mpr hlow)⟩
  | ok checked =>
    by_cases hinserts : t.Inserts env.insert checked.row
    · obtain ⟨hfinishes, hfails⟩ := finishes_of_inserts h hinserts
      constructor
      · rintro ⟨hunchanged, -⟩ checked' hchecked'
        cases hchecked'
        refine ⟨fun _ => ?_, fun hnot => absurd hinserts hnot⟩
        by_contra hnot
        obtain ⟨hstatus, hlength⟩ := hfails hnot
        rw [hunchanged hstatus] at hlength
        omega
      · intro hclean
        obtain ⟨hstatus, hsettings⟩ := hfinishes ((hclean checked rfl).1 hinserts)
        rw [hstatus]
        refine ⟨fun hhigh => absurd hhigh (by decide), fun _ => ⟨?_, fun other hother => ?_⟩⟩
        · rw [hsettings, if_pos rfl]
        · rw [hsettings, if_neg hother]
    · rw [createApiKey_of_not_inserts' h hinserts]
      constructor
      · rintro ⟨hunchanged, -⟩ checked' hchecked'
        cases hchecked'
        refine ⟨fun hyes => absurd hyes hinserts, fun _ hresolves => ?_⟩
        have hsame := hunchanged (show 400 ≤ 500 by decide)
        rwa [if_pos hresolves] at hsame
      · intro hclean
        refine ⟨fun _ => ?_, fun hlow => absurd hlow (show ¬ 500 < 400 by decide)⟩
        dsimp only
        split_ifs with hresolves
        · exact (hclean checked rfl).2 hinserts hresolves
        · rfl

end Create

section Update

variable {json : StringListJson} {env : UpdateEnv} {keyId : Bytes} {request : ApiKeyUpdateRequest} {t : Tables}
  {row : KeyRow} {existing : ApiKeyRecord} {patch : ApiKeyPatch}

def Serves (env : UpdateEnv) : Prop :=
  (checkLinearizableReadAccess env.overrideAllow env.overrideLeaderId (ofString "api_keys")).allow = true ∧
    env.opens = true

structure Writes (json : StringListJson) (env : UpdateEnv) (keyId : Bytes) (request : ApiKeyUpdateRequest) (t : Tables)
    (row : KeyRow) (patch : ApiKeyPatch) : Prop where
  stored : t.row? keyId = some row
  named : keyId ≠ []
  accepted : checkUpdate json request (t.record true row) = .ok patch
  found : env.existing.works = true
  resolves : env.update.resolves = true
  current : env.current.works = true
  runs : env.update.runs = true

structure UpdateFinishes (env : UpdateEnv) (request : ApiKeyUpdateRequest) : Prop where
  reloads : env.reload.works = true
  stores : ∀ limits, request.limits = some limits → Stores env.store (limits.map ApiKeyLimitRuleInput.input)
  refreshes : env.refresh.works = true

structure KeepsTexts (request : ApiKeyUpdateRequest) (settings : KeySettings) : Prop where
  allowedModels : request.allowedModels = none → settings.allowedModels ≠ some []
  enforcedModel : request.enforcedModel = none → settings.enforcedModel ≠ some []
  enforcedReasoningEffort : request.enforcedReasoningEffort = none → settings.enforcedReasoningEffort ≠ some []
  expiresAt : request.expiresAt = none → settings.expiresAt ≠ some []

structure LeavesNoTrace (env : UpdateEnv) (request : ApiKeyUpdateRequest) (t : Tables) (row : KeyRow)
    (patch : ApiKeyPatch) : Prop where
  filled : t.backfilled 4 = t
  same : row.patched (t.record true row) patch env.now = row
  limits : ∀ limits, request.limits = some limits → env.reload.works = true →
    Stores env.store (limits.map ApiKeyLimitRuleInput.input) → limits = [] ∧ t.loadLimits row.id = []

def UpdateIsClean (json : StringListJson) (env : UpdateEnv) (keyId : Bytes) (request : ApiKeyUpdateRequest)
    (t : Tables) : Prop :=
  Serves env →
    (∀ row patch, Writes json env keyId request t row patch →
      (UpdateFinishes env request → KeepsTexts request (t.settingsOf row)) ∧
        (¬ UpdateFinishes env request → LeavesNoTrace env request t row patch)) ∧
      ((∀ row patch, ¬ Writes json env keyId request t row patch) → t.backfilled env.existing.backfills = t)

section Patch

structure Accepted (json : StringListJson) (request : ApiKeyUpdateRequest) (patch : ApiKeyPatch) : Prop where
  name : patch.name = request.name.map trimAscii
  isActive : patch.isActive = request.isActive
  keyHash : patch.keyHash = none
  keyPrefix : patch.keyPrefix = none
  allowedModels : patch.allowedModels = request.allowedModels.map fun models =>
    (serializeAllowedModels json (normalizeAllowedModels (some models))).getD []
  enforcedModel : patch.enforcedModel = request.enforcedModel.map fun model =>
    (normalizeOptionalSlug (some model)).getD []
  enforcedReasoningEffort : patch.enforcedReasoningEffort = request.enforcedReasoningEffort.map fun effort =>
    (normalizeReasoningEffort effort).getD []
  expiresAt : patch.expiresAt = request.expiresAt

theorem checkUpdate_congr {existing' : ApiKeyRecord} (henforced : existing.enforcedModel = existing'.enforcedModel)
    (hallowed : existing.allowedModels = existing'.allowedModels) :
    checkUpdate json request existing = checkUpdate json request existing' := by
  simp only [checkUpdate, henforced, hallowed]

theorem status_of_checkUpdate {response : ApiKeyMutationResponse}
    (h : checkUpdate json request existing = .error response) : response.status = 400 := by
  unfold checkUpdate at h
  dsimp only at h
  by_cases henforced : validateModelEnforcement
      (if request.enforcedModel.isSome then normalizeOptionalSlug request.enforcedModel else existing.enforcedModel)
      (if request.allowedModels.isSome then normalizeAllowedModels request.allowedModels
        else deserializeAllowedModels json existing.allowedModels) = false
  · rw [if_pos henforced] at h
    cases h
    rfl
  · rw [if_neg henforced] at h
    split at h
    · cases h
      rfl
    · by_cases hname : request.name.map trimAscii = some []
      · rw [if_pos hname] at h
        cases h
        rfl
      · rw [if_neg hname] at h
        cases h

theorem accepted_of_ok (h : checkUpdate json request existing = .ok patch) : Accepted json request patch := by
  unfold checkUpdate at h
  dsimp only at h
  by_cases henforced : validateModelEnforcement
      (if request.enforcedModel.isSome then normalizeOptionalSlug request.enforcedModel else existing.enforcedModel)
      (if request.allowedModels.isSome then normalizeAllowedModels request.allowedModels
        else deserializeAllowedModels json existing.allowedModels) = false
  · rw [if_pos henforced] at h
    cases h
  · rw [if_neg henforced] at h
    split at h
    · cases h
    · next effort heffort =>
      by_cases hname : request.name.map trimAscii = some []
      · rw [if_pos hname] at h
        cases h
      · rw [if_neg hname] at h
        cases h
        constructor
        case enforcedReasoningEffort =>
          unfold checkedEffort at heffort
          cases hrequested : request.enforcedReasoningEffort with
          | none =>
            rw [hrequested] at heffort
            cases heffort
            rfl
          | some value =>
            rw [hrequested] at heffort
            obtain ⟨normalized, hnormalized, rfl⟩ := Option.map_eq_some_iff.mp heffort
            simp [hnormalized]
        case allowedModels => cases request.allowedModels <;> rfl
        case enforcedModel => cases request.enforcedModel <;> rfl
        all_goals rfl

theorem nullif_getD (value : Option Bytes) : nullif (value.getD []) = value.filter (· ≠ []) := by
  cases value with
  | none => rfl
  | some text =>
    rw [Option.getD_some, nullif, Option.filter_some]
    split_ifs with hnil hkept hkept
    · simp [hnil] at hkept
    · rfl
    · rfl
    · simp [hnil] at hkept

theorem nullif_patched {α : Type} (requested : Option α) (write : α → Bytes) (stored : Option Bytes) :
    nullif ((requested.map write).getD (stored.getD [])) =
      requested.elim (stored.filter (· ≠ [])) fun value => nullif (write value) := by
  cases requested with
  | none => exact nullif_getD stored
  | some value => rfl

theorem filter_eq_self_iff {value : Option Bytes} : value.filter (· ≠ []) = value ↔ value ≠ some [] := by
  cases value with
  | none => simp
  | some text => simp

def nullified (settings : KeySettings) : KeySettings :=
  { settings with
    allowedModels := settings.allowedModels.filter (· ≠ [])
    enforcedModel := settings.enforcedModel.filter (· ≠ [])
    enforcedReasoningEffort := settings.enforcedReasoningEffort.filter (· ≠ [])
    expiresAt := settings.expiresAt.filter (· ≠ []) }

theorem settingsOf_patched (h : Accepted json request patch) (t : Tables) (limitsRead : Bool) (row : KeyRow)
    (now : Bytes) : t.settingsOf (row.patched (t.record limitsRead row) patch now) =
      { updatedSettings json request (nullified (t.settingsOf row)) with limits := (t.settingsOf row).limits } := by
  have hname : (request.name.map trimAscii).getD row.name = request.name.elim row.name trimAscii := by
    cases request.name <;> rfl
  have hslug : ∀ model, (normalizeOptionalSlug (some model)).filter (· ≠ []) = normalizeOptionalSlug (some model) := by
    intro model
    apply filter_eq_self_iff.mpr
    intro hnil
    simp only [normalizeOptionalSlug] at hnil
    split_ifs at hnil with htrimmed
    exact htrimmed (Option.some_inj.mp hnil)
  have hactive : ∀ flag : Bool, decide ((if flag then (1 : ℤ) else 0) % 2 ^ 32 ≠ 0) = flag := by decide
  have hexpires : nullif (request.expiresAt.getD (row.expiresAt.getD [])) =
      request.expiresAt.elim (row.expiresAt.filter (· ≠ [])) nullif := by
    cases request.expiresAt with
    | none => exact nullif_getD row.expiresAt
    | some text => rfl
  simp only [Tables.settingsOf, ApiKeyRecord.settings, Tables.record, KeyRow.patched, h.name, h.isActive,
    h.allowedModels, h.enforcedModel, h.enforcedReasoningEffort, h.expiresAt, nullif_patched, nullif_getD, hname,
    hactive, hslug, hexpires, updatedSettings, nullified]

theorem updatedSettings_nullified_iff {settings : KeySettings} :
    updatedSettings json request (nullified settings) = updatedSettings json request settings ↔
      KeepsTexts request settings := by
  have hfield : ∀ {α : Type} (requested : Option α) (write : α → Option Bytes) (stored : Option Bytes),
      requested.elim (stored.filter (· ≠ [])) write = requested.elim stored write ↔
        (requested = none → stored ≠ some []) := by
    intro α requested write stored
    cases requested with
    | none => simpa using filter_eq_self_iff
    | some value => simp
  simp only [updatedSettings, nullified, KeySettings.mk.injEq, hfield, true_and, and_true]
  constructor
  · rintro ⟨hallowed, henforced, heffort, hexpires⟩
    exact ⟨hallowed, henforced, heffort, hexpires⟩
  · rintro ⟨hallowed, henforced, heffort, hexpires⟩
    exact ⟨hallowed, henforced, heffort, hexpires⟩

end Patch

section Result

theorem updateApiKey_of_not_serves (h : ¬ Serves env) : 400 ≤ (updateApiKey json env keyId request t).2.status ∧
    (updateApiKey json env keyId request t).1 = t := by
  rw [updateApiKey]
  by_cases hguard : (checkLinearizableReadAccess env.overrideAllow env.overrideLeaderId (ofString "api_keys")).allow =
      false
  · rw [if_pos hguard]
    refine ⟨?_, rfl⟩
    rw [LinearizableReadGuardResult.response, status_of_guard hguard]
    exact Nat.le_of_ble_eq_true rfl
  · rw [if_neg hguard]
    by_cases hopens : env.opens = false
    · rw [if_pos hopens]
      exact ⟨show 400 ≤ 500 by decide, rfl⟩
    · exact absurd ⟨by simpa using hguard, by simpa using hopens⟩ h

theorem checkUpdate_filled (t : Tables) (backfills : ℕ) (limitsRead : Bool) (row : KeyRow) :
    checkUpdate json request ((t.backfilled backfills).record limitsRead (row.filled backfills)) =
      checkUpdate json request (t.record true row) := by
  apply checkUpdate_congr
  · unfold KeyRow.filled
    split_ifs <;> rfl
  · unfold KeyRow.filled
    split_ifs <;> rfl

theorem schemaReady_of_works {access : Access} (h : access.works = true) : 4 ≤ access.backfills := by
  simpa [Access.schemaReady] using (works_iff.mp h).2.1

theorem updateApiKey_of_not_writes (hserves : Serves env)
    (h : ∀ row patch, ¬ Writes json env keyId request t row patch) :
    400 ≤ (updateApiKey json env keyId request t).2.status ∧
      (updateApiKey json env keyId request t).1 = t.backfilled env.existing.backfills := by
  rw [updateApiKey, if_neg (by simp [hserves.1]), if_neg (by simp [hserves.2]), getApiKeyByKeyId_eq]
  by_cases hfound : env.existing.works = true ∧ keyId ≠ []
  · rw [if_pos hfound, row?_backfilled]
    cases hrow : t.row? keyId with
    | none => exact ⟨show 400 ≤ 404 by decide, rfl⟩
    | some row =>
      rw [Option.map_some, Option.map_some]
      dsimp only
      rw [checkUpdate_filled]
      cases hcheck : checkUpdate json request (t.record true row) with
      | error response => exact ⟨(status_of_checkUpdate hcheck).ge, rfl⟩
      | ok patch =>
        dsimp only
        rw [updateApiKey_of_not_works (filled_backfilled t (schemaReady_of_works hfound.1))]
        · exact ⟨show 400 ≤ 404 by decide, rfl⟩
        · rintro ⟨hresolves, hcurrent, hruns⟩
          exact h row patch ⟨hrow, hfound.2, hcheck, hfound.1, hresolves, hcurrent, hruns⟩
  · rw [if_neg hfound]
    exact ⟨show 400 ≤ 404 by decide, rfl⟩

structure Written (json : StringListJson) (env : UpdateEnv) (keyId : Bytes) (request : ApiKeyUpdateRequest)
    (t : Tables) (row : KeyRow) (patch : ApiKeyPatch) (written : Tables) : Prop where
  filled : written.Filled
  stored : ∃ row', written.row? keyId = some row' ∧ row'.id = row.id
  settings : ∀ other, written.settings? other = if other = keyId then
    some { updatedSettings json request (nullified (t.settingsOf row)) with limits := (t.settingsOf row).limits }
    else t.settings? other
  same_iff : written = t ↔ t.backfilled 4 = t ∧ row.patched (t.record true row) patch env.now = row
  same_of_keys : t.Filled → written.keys = t.keys → written = t

theorem id_filled (row : KeyRow) (backfills : ℕ) : (row.filled backfills).id = row.id := by
  unfold KeyRow.filled
  split_ifs <;> rfl

theorem exists_written (hserves : Serves env) (hwrites : Writes json env keyId request t row patch) :
    ∃ written, Written json env keyId request t row patch written ∧
      updateApiKey json env keyId request t = match written.getApiKeyByKeyId env.reload keyId with
        | (written, none) => (written, notFound)
        | (written, some _) => storeLimits json env keyId request written := by
  obtain ⟨hrow, hkeyId, haccepted, hfound, hresolves, hcurrent, hruns⟩ := hwrites
  have hpatch := accepted_of_ok haccepted
  have hready := filled_backfilled t (schemaReady_of_works hfound)
  have hfilledRow := row?_backfilled t env.existing.backfills keyId
  rw [hrow, Option.map_some] at hfilledRow
  obtain ⟨hnodup, hupdate⟩ := updateApiKey_of_works hready hresolves hruns hcurrent hkeyId hfilledRow hpatch.keyHash
    env.reload env.now
  have hstored := row?_patchKey (t.backfilled env.existing.backfills) keyId _ patch env.now hnodup keyId
  rw [if_pos rfl, hfilledRow, Option.map_some] at hstored
  have hkept := filled_patchKey hready hfilledRow rfl hpatch.keyPrefix hnodup
  -- Where the backfill has nothing to do, the call works on the tables as they are.
  have hrowSelf : t.Filled → row.filled env.existing.backfills = row := by
    intro hfilled
    rw [hfilled, hrow] at hfilledRow
    exact (Option.some_inj.mp hfilledRow).symm
  have hpatched : t.Filled → (row.filled env.existing.backfills).patched ((t.backfilled env.existing.backfills).record
      env.current.limitsRead (row.filled env.existing.backfills)) patch env.now =
      row.patched (t.record true row) patch env.now := by
    intro hfilled
    rw [hrowSelf hfilled]
    rfl
  have hself : t.Filled → row.patched (t.record true row) patch env.now = row →
      (t.backfilled env.existing.backfills).patchKey keyId _ patch env.now hnodup = t := by
    intro hfilled hsame
    have hkeys := (patchKey_eq_self_iff hfilledRow hnodup).mpr
      ((hpatched hfilled).trans (hsame.trans (hrowSelf hfilled).symm))
    exact hkeys.trans (hfilled _)
  refine ⟨_, ⟨hkept, ⟨_, hstored, id_filled row env.existing.backfills⟩, fun other => ?_, ?_, ?_⟩, ?_⟩
  · rw [settings?_patchKey, hfilledRow, Option.map_some, settingsOf_patched hpatch, settingsOf_filled,
      settings?_backfilled]
  · constructor
    · intro hsame
      rw [hsame] at hstored hkept
      have hrows := hrow.symm.trans hstored
      rw [hpatched hkept] at hrows
      exact ⟨hkept 4, (Option.some_inj.mp hrows).symm⟩
    · rintro ⟨hfilled, hsame⟩
      exact hself (filled_iff.mpr hfilled) hsame
  · intro hfilled hkeys
    have hrows := (congrArg (RowTable.rowOf KeyRow.keyId keyId) hkeys).symm.trans hstored
    change t.row? keyId = _ at hrows
    rw [hrow, hpatched hfilled] at hrows
    exact hself hfilled (Option.some_inj.mp hrows).symm
  · rw [updateApiKey, if_neg (by simp [hserves.1]), if_neg (by simp [hserves.2]), getApiKeyByKeyId_eq,
      if_pos ⟨hfound, hkeyId⟩, hfilledRow, Option.map_some]
    dsimp only
    rw [checkUpdate_filled, haccepted]
    dsimp only
    rw [hupdate]
    all_goals rfl

theorem leavesNoTrace_iff {written : Tables} (h : Written json env keyId request t row patch written)
    (hunstored : ∀ limits, request.limits = some limits → env.reload.works = true →
      ¬ Stores env.store (limits.map ApiKeyLimitRuleInput.input)) :
    written = t ↔ LeavesNoTrace env request t row patch := by
  rw [h.same_iff]
  constructor
  · rintro ⟨hfilled, hsame⟩
    exact ⟨hfilled, hsame, fun limits hlimits hreloads hstores => absurd hstores (hunstored limits hlimits hreloads)⟩
  · rintro ⟨hfilled, hsame, -⟩
    exact ⟨hfilled, hsame⟩

theorem leavesNoTrace_iff_of_stores {written : Tables} (h : Written json env keyId request t row patch written)
    {limits : List ApiKeyLimitRuleInput} (hlimits : request.limits = some limits) (hreloads : env.reload.works = true)
    (hstores : Stores env.store (limits.map ApiKeyLimitRuleInput.input)) {row' : KeyRow} (hid : row'.id = row.id)
    (hle : row'.id ≤ written.keySequence) :
    written.withLimits ⟨row'.id, hle⟩ (limits.map ApiKeyLimitRuleInput.input) env.now = t ↔
      LeavesNoTrace env request t row patch := by
  constructor
  · intro hsame
    have hfilled := filled_withLimits h.filled ⟨row'.id, hle⟩
      (fun limit hlimit => limitWindow_ne_nil (hstores.valid limit hlimit)) env.now
    rw [hsame] at hfilled
    have hkeys : written.keys = t.keys := by
      rw [← hsame]
      rfl
    have hwritten := h.same_of_keys hfilled hkeys
    subst hwritten
    obtain ⟨hnil, hload⟩ := (withLimits_eq_self_iff written ⟨row'.id, hle⟩ env.now).mp hsame
    obtain ⟨hbackfilled, hrow⟩ := h.same_iff.mp rfl
    refine ⟨hbackfilled, hrow, fun limits' hlimits' _ _ => ?_⟩
    rw [hlimits, Option.some_inj] at hlimits'
    exact ⟨hlimits' ▸ List.map_eq_nil_iff.mp hnil, hid ▸ hload⟩
  · rintro ⟨hbackfilled, hrow, hstored⟩
    obtain ⟨rfl, hload⟩ := hstored limits hlimits hreloads hstores
    have hwritten := h.same_iff.mpr ⟨hbackfilled, hrow⟩
    subst hwritten
    have hload' : written.loadLimits row'.id = [] := by rw [hid, hload]
    exact (withLimits_eq_self_iff written ⟨row'.id, hle⟩ env.now).mpr ⟨rfl, hload'⟩

theorem answerUpdated_of_works {stored : Tables} {row' : KeyRow} (hworks : env.refresh.works = true)
    (hkeyId : keyId ≠ []) (hrow : stored.row? keyId = some row') :
    (answerUpdated json env keyId stored).2.status = 200 := by
  obtain ⟨record, hrecord⟩ := answerFrom_of_works hworks hkeyId hrow
  exact (congrArg ApiKeyMutationResponse.status hrecord).trans rfl

theorem answerUpdated_of_not_works {stored : Tables} (hworks : ¬ env.refresh.works = true) :
    (answerUpdated json env keyId stored).2 = notFound :=
  answerFrom_of_not_works (by simpa using hworks)

theorem normalizeLimits_of_stores {store : Access} {limits : List ApiKeyLimitRuleInput}
    (h : Stores store (limits.map ApiKeyLimitRuleInput.input)) :
    normalizeLimits limits = some (limits.map ApiKeyLimitRuleInput.input) := by
  apply if_pos
  rw [List.all_eq_true]
  intro limit hlimit
  exact h.valid _ (List.mem_map_of_mem hlimit)

theorem finishes_of_writes (hserves : Serves env) (hwrites : Writes json env keyId request t row patch) :
    (UpdateFinishes env request → (updateApiKey json env keyId request t).2.status = 200 ∧
      ∀ other, (updateApiKey json env keyId request t).1.settings? other =
        if other = keyId then some (updatedSettings json request (nullified (t.settingsOf row)))
        else t.settings? other) ∧
      (¬ UpdateFinishes env request → 400 ≤ (updateApiKey json env keyId request t).2.status ∧
        ((updateApiKey json env keyId request t).1 = t ↔ LeavesNoTrace env request t row patch)) := by
  obtain ⟨written, hwritten, heq⟩ := exists_written hserves hwrites
  obtain ⟨row', hrow', hid⟩ := hwritten.stored
  rw [heq, getApiKeyByKeyId_eq, hwritten.filled]
  by_cases hreloads : env.reload.works = true
  · rw [if_pos ⟨hreloads, hwrites.named⟩, hrow', Option.map_some]
    dsimp only
    rw [storeLimits]
    cases hlimits : request.limits with
    | none =>
      dsimp only
      rw [answerUpdated, answerFrom_fst, hwritten.filled, ← answerUpdated]
      by_cases hrefreshes : env.refresh.works = true
      · refine ⟨fun _ => ⟨answerUpdated_of_works hrefreshes hwrites.named hrow', fun other => ?_⟩,
          fun hfails => absurd ⟨hreloads, fun limits hsome => ?_, hrefreshes⟩ hfails⟩
        · rw [hwritten.settings]
          simp only [updatedSettings, hlimits, Option.elim_none, nullified]
        · rw [hlimits] at hsome
          cases hsome
      · refine ⟨fun hfinishes => absurd hfinishes.refreshes hrefreshes, fun _ => ⟨?_, ?_⟩⟩
        · rw [answerUpdated_of_not_works hrefreshes]
          exact show 400 ≤ 404 by decide
        · apply leavesNoTrace_iff hwritten
          intro limits hsome
          rw [hlimits] at hsome
          cases hsome
    | some limits =>
      have hother : ∀ limits', request.limits = some limits' → limits' = limits := by
        intro limits' hsome
        rw [hlimits, Option.some_inj] at hsome
        exact hsome.symm
      dsimp only
      by_cases hstores : Stores env.store (limits.map ApiKeyLimitRuleInput.input)
      · rw [normalizeLimits_of_stores hstores]
        dsimp only
        obtain ⟨hle, records, hreplace⟩ := replaceApiKeyLimits_of_filled hwritten.filled hstores hrow' env.now
        rw [hreplace]
        dsimp only
        have hwindows : ∀ limit ∈ limits.map ApiKeyLimitRuleInput.input, limit.limitWindow ≠ [] :=
          fun limit hlimit => limitWindow_ne_nil (hstores.valid limit hlimit)
        rw [answerUpdated, answerFrom_fst, filled_withLimits hwritten.filled _ hwindows, ← answerUpdated]
        by_cases hrefreshes : env.refresh.works = true
        · refine ⟨fun _ => ⟨answerUpdated_of_works hrefreshes hwrites.named hrow', fun other => ?_⟩,
            fun hfails => absurd ⟨hreloads, fun limits' hsome => ?_, hrefreshes⟩ hfails⟩
          · have hsettings := hwritten.settings keyId
            rw [if_pos rfl, Tables.settings?, hrow', Option.map_some, Option.some_inj] at hsettings
            rw [settings?_withLimits hrow' hle hwindows, hsettings, hwritten.settings]
            split_ifs
            · simp only [updatedSettings, hlimits, Option.elim_some]
            · rfl
          · rw [hother limits' hsome]
            exact hstores
        · refine ⟨fun hfinishes => absurd hfinishes.refreshes hrefreshes, fun _ => ⟨?_, ?_⟩⟩
          · rw [answerUpdated_of_not_works hrefreshes]
            exact show 400 ≤ 404 by decide
          · exact leavesNoTrace_iff_of_stores hwritten hlimits hreloads hstores hid hle
      · refine ⟨fun hfinishes => absurd (hfinishes.stores limits hlimits) hstores, fun _ => ?_⟩
        have hsame := leavesNoTrace_iff hwritten fun limits' hsome _ => by rwa [hother limits' hsome]
        cases hnormalized : normalizeLimits limits with
        | none => exact ⟨show 400 ≤ 400 by decide, hsame⟩
        | some normalized =>
          obtain ⟨rfl, -⟩ := normalizeLimits_eq_some hnormalized
          dsimp only
          obtain hreplace | hreplace := replaceApiKeyLimits_of_not_stores hstores written keyId env.now
          · rw [hreplace]
            exact ⟨show 400 ≤ 500 by decide, hsame⟩
          · rw [hreplace, hwritten.filled]
            exact ⟨show 400 ≤ 500 by decide, hsame⟩
  · rw [if_neg fun hboth => hreloads hboth.1]
    refine ⟨fun hfinishes => absurd hfinishes.reloads hreloads, fun _ => ⟨show 400 ≤ 404 by decide, ?_⟩⟩
    exact leavesNoTrace_iff hwritten fun limits _ hyes => absurd hyes hreloads

end Result

theorem settings?_of_writes (h : Writes json env keyId request t row patch) :
    t.settings? keyId = some (t.settingsOf row) := by
  rw [Tables.settings?, h.stored, Option.map_some]

theorem update_all_or_nothing_iff (json : StringListJson) (env : UpdateEnv) (keyId : Bytes)
    (request : ApiKeyUpdateRequest) (t : Tables) :
    UpdateAllOrNothing json env keyId request t ↔ UpdateIsClean json env keyId request t := by
  unfold UpdateAllOrNothing UpdateIsClean
  by_cases hserves : Serves env
  · by_cases hwrites : ∃ row patch, Writes json env keyId request t row patch
    · constructor
      · rintro ⟨hunchanged, hupdated⟩ -
        refine ⟨fun row patch hwrites' => ?_, fun hnone => ?_⟩
        · obtain ⟨hfinishes, hfails⟩ := finishes_of_writes hserves hwrites'
          constructor
          · intro hfinish
            obtain ⟨hstatus, hsettings⟩ := hfinishes hfinish
            obtain ⟨⟨settings, hbefore, hafter⟩, -⟩ := hupdated (by rw [hstatus]; decide)
            rw [settings?_of_writes hwrites', Option.some_inj] at hbefore
            rw [hsettings, if_pos rfl, Option.some_inj, ← hbefore] at hafter
            exact updatedSettings_nullified_iff.mp hafter
          · intro hfail
            obtain ⟨hstatus, hsame⟩ := hfails hfail
            exact hsame.mp (hunchanged hstatus)
        · obtain ⟨row, patch, hwrites'⟩ := hwrites
          exact absurd hwrites' (hnone row patch)
      · intro hclean
        obtain ⟨row, patch, hwrites'⟩ := hwrites
        obtain ⟨hfinishes, hfails⟩ := finishes_of_writes hserves hwrites'
        obtain ⟨hkeeps, hleaves⟩ := (hclean hserves).1 row patch hwrites'
        by_cases hfinish : UpdateFinishes env request
        · obtain ⟨hstatus, hsettings⟩ := hfinishes hfinish
          refine ⟨fun hhigh => absurd hhigh (by rw [hstatus]; decide), fun _ => ⟨?_, fun other hother => ?_⟩⟩
          · refine ⟨_, settings?_of_writes hwrites', ?_⟩
            rw [hsettings, if_pos rfl, updatedSettings_nullified_iff.mpr (hkeeps hfinish)]
          · rw [hsettings, if_neg hother]
        · obtain ⟨hstatus, hsame⟩ := hfails hfinish
          exact ⟨fun _ => hsame.mpr (hleaves hfinish), fun hlow => absurd hstatus (not_le.mpr hlow)⟩
    · have hnone : ∀ row patch, ¬ Writes json env keyId request t row patch :=
        fun row patch hyes => hwrites ⟨row, patch, hyes⟩
      obtain ⟨hstatus, hready⟩ := updateApiKey_of_not_writes hserves hnone
      constructor
      · rintro ⟨hunchanged, -⟩ -
        refine ⟨fun row patch hyes => absurd hyes (hnone row patch), fun _ => ?_⟩
        rw [← hready, hunchanged hstatus]
      · intro hclean
        refine ⟨fun _ => ?_, fun hlow => absurd hstatus (not_le.mpr hlow)⟩
        exact hready.trans ((hclean hserves).2 hnone)
  · obtain ⟨hstatus, hsame⟩ := @updateApiKey_of_not_serves json env keyId request t hserves
    exact iff_of_true ⟨fun _ => hsame, fun hlow => absurd hstatus (not_le.mpr hlow)⟩ fun hyes => absurd hyes hserves

end Update

section Mutations

/-- A call of either mutation leaves all or nothing exactly when it stops before it writes, or nothing fails once it has
written. -/
theorem mutations_all_or_nothing_iff (json : StringListJson) (t : Tables) :
    (∀ env request, CreateAllOrNothing json env request t ↔ CreateIsClean json env request t) ∧
      ∀ env keyId request, UpdateAllOrNothing json env keyId request t ↔ UpdateIsClean json env keyId request t :=
  ⟨fun env request => create_all_or_nothing_iff json env request t,
    fun env keyId request => update_all_or_nothing_iff json env keyId request t⟩

def sampleTables : Tables where
  keys :=
    [{ id := 1
       keyId := ofString "k"
       keyHash := ofString "h"
       keyPrefix := some (ofString "sk-clb-")
       name := ofString "old" }]
  keySequence := 1
  consistent := ⟨by decide, by decide, by decide, by decide, by decide⟩

def requestLimit : ApiKeyUpdateRequest :=
  { name := some (ofString "new"),
    limits := some [{ limitType := ofString "requests", limitWindow := ofString "daily" }] }

theorem refused_update_renames_the_key :
    ¬ UpdateAllOrNothing ⟨fun _ => none, fun _ => none⟩ {} (ofString "k") requestLimit sampleTables := by
  rintro ⟨hunchanged, -⟩
  exact absurd (congrArg (Tables.settings? · (ofString "k")) (hunchanged (by decide))) (by decide)

end Mutations

end Tightrope.Server.KeysController
