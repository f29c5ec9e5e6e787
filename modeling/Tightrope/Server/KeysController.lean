import Tightrope.Db.ApiKeyRepo
import Tightrope.Sync.ConflictResolver

namespace Tightrope.Auth.ApiKeys

structure IssuedApiKeyMaterial where
  plainKey : Bytes
  keyHash : Bytes
  keyPrefix : Bytes
  deriving DecidableEq

end Tightrope.Auth.ApiKeys

namespace Tightrope.Server.KeysController

open Auth.ApiKeys Bytes Tightrope.Core Db.ApiKeyRepo

structure LinearizableReadGuardResult where
  allow : Bool := true
  status : ℕ := 200
  code : Bytes := []
  message : Bytes := []
  deriving DecidableEq

def rejectResult (tableName : Bytes) (leaderId : Option Bytes) : LinearizableReadGuardResult where
  allow := false
  status := 503
  code := ofString "linearizable_read_requires_leader"
  message := ofString "Linearizable read for table '" ++ tableName ++ ofString "' requires cluster leader" ++
    match leaderId.filter (· ≠ []) with
    | some leader => ofString " (leader site_id=" ++ leader ++ ofString ")"
    | none => ofString " (leader unavailable)"

def checkLinearizableReadAccess (overrideAllow : Option Bool) (overrideLeaderId : Option Bytes) (tableName : Bytes) :
    LinearizableReadGuardResult :=
  if Sync.tableRequiresRaft tableName = false then {}
  else if overrideAllow.getD true then {}
  else rejectResult tableName overrideLeaderId

structure ApiKeyLimitRuleInput where
  limitType : Bytes
  limitWindow : Bytes
  maxValue : UInt64 := 0
  modelFilter : Option Bytes := none
  deriving DecidableEq

structure ApiKeyLimitPayload where
  id : ℤ
  limitType : Bytes
  limitWindow : Bytes
  maxValue : UInt64
  currentValue : UInt64
  modelFilter : Option Bytes
  deriving DecidableEq

structure ApiKeyPayload where
  keyId : Bytes := []
  name : Bytes := []
  keyPrefix : Bytes := []
  isActive : Bool := true
  allowedModels : List Bytes := []
  enforcedModel : Option Bytes := none
  enforcedReasoningEffort : Option Bytes := none
  expiresAt : Option Bytes := none
  createdAt : Bytes := []
  lastUsedAt : Option Bytes := none
  limits : List ApiKeyLimitPayload := []
  deriving DecidableEq

structure ApiKeyCreateRequest where
  name : Bytes
  allowedModels : Option (List Bytes) := none
  enforcedModel : Option Bytes := none
  enforcedReasoningEffort : Option Bytes := none
  expiresAt : Option Bytes := none
  limits : List ApiKeyLimitRuleInput := []
  deriving DecidableEq

structure ApiKeyUpdateRequest where
  name : Option Bytes := none
  allowedModels : Option (List Bytes) := none
  enforcedModel : Option Bytes := none
  enforcedReasoningEffort : Option Bytes := none
  isActive : Option Bool := none
  expiresAt : Option Bytes := none
  limits : Option (List ApiKeyLimitRuleInput) := none
  deriving DecidableEq

structure ApiKeyMutationResponse where
  status : ℕ := 500
  code : Bytes := []
  message : Bytes := []
  key : Bytes := []
  apiKey : ApiKeyPayload := {}
  deriving DecidableEq

def failure (status : ℕ) (code message : String) : ApiKeyMutationResponse :=
  { status, code := ofString code, message := ofString message }

def invalidPayload (message : String) : ApiKeyMutationResponse := failure 400 "invalid_api_key_payload" message

def notFound : ApiKeyMutationResponse := failure 404 "api_key_not_found" "API key not found"

def databaseUnavailable : ApiKeyMutationResponse := failure 500 "db_unavailable" "Database unavailable"

def limitsFailed : ApiKeyMutationResponse := failure 500 "api_key_limits_failed" "Failed to store API key limits"

def LinearizableReadGuardResult.response (guard : LinearizableReadGuardResult) : ApiKeyMutationResponse :=
  { status := guard.status, code := guard.code, message := guard.message }

def normalizeOptionalSlug (value : Option Bytes) : Option Bytes :=
  match value with
  | none => none
  | some text =>
    let trimmed := trimAscii text
    if trimmed = [] then none else some trimmed

def ApiKeyLimitRuleInput.input (limit : ApiKeyLimitRuleInput) : ApiKeyLimitInput where
  limitType := limit.limitType
  limitWindow := limit.limitWindow
  maxValue := limit.maxValue
  modelFilter := limit.modelFilter

def normalizeLimits (limits : List ApiKeyLimitRuleInput) : Option (List ApiKeyLimitInput) :=
  if limits.all fun limit => validLimit limit.limitType limit.limitWindow limit.maxValue then
    some (limits.map ApiKeyLimitRuleInput.input)
  else none

def toPayload (json : StringListJson) (row : ApiKeyRecord) : ApiKeyPayload where
  keyId := row.keyId
  name := row.name
  keyPrefix := row.keyPrefix
  isActive := row.isActive
  allowedModels := deserializeAllowedModels json row.allowedModels
  enforcedModel := row.enforcedModel
  enforcedReasoningEffort := row.enforcedReasoningEffort
  expiresAt := row.expiresAt
  createdAt := row.createdAt
  lastUsedAt := row.lastUsedAt
  limits := row.limits.map fun limit => ⟨limit.id, limit.limitType, limit.limitWindow, limit.maxValue,
    limit.currentValue, limit.modelFilter⟩

def checkedEffort (requested : Option Bytes) : Option (Option Bytes) :=
  match requested with
  | none => some none
  | some value => (normalizeReasoningEffort value).map some

def answerFrom (t : Tables) (refresh : Access) (keyId : Bytes) (missing : ApiKeyMutationResponse)
    (found : ApiKeyRecord → ApiKeyMutationResponse) : Tables × ApiKeyMutationResponse :=
  match t.getApiKeyByKeyId refresh keyId with
  | (ready, none) => (ready, missing)
  | (ready, some record) => (ready, found record)

section Create

-- What the environment puts into a call: the override of the guard, the handle, the random material, how far each
-- call of the repository gets, and the time that SQLite writes.
structure CreateEnv where
  overrideAllow : Option Bool := none
  overrideLeaderId : Option Bytes := none
  opens : Bool := true
  keyId : Bytes
  material : Option IssuedApiKeyMaterial
  insert : Access := {}
  reload : Access := {}
  store : Access := {}
  refresh : Access := {}
  now : Bytes := []
  deriving DecidableEq

structure CheckedKey where
  row : KeyRow
  limits : List ApiKeyLimitInput
  plainKey : Bytes

variable (json : StringListJson) (env : CreateEnv) (request : ApiKeyCreateRequest)

def checkCreate : Except ApiKeyMutationResponse CheckedKey :=
  let guard := checkLinearizableReadAccess env.overrideAllow env.overrideLeaderId (ofString "api_keys")
  let name := trimAscii request.name
  let allowedModels := normalizeAllowedModels request.allowedModels
  let enforcedModel := normalizeOptionalSlug request.enforcedModel
  if guard.allow = false then .error guard.response
  else if env.opens = false then .error databaseUnavailable
  else if name = [] then .error (invalidPayload "API key name is required")
  else if validateModelEnforcement enforcedModel allowedModels = false then
    .error (invalidPayload "enforced_model must be present in allowed_models when allowed_models is configured")
  else
    match checkedEffort request.enforcedReasoningEffort with
    | none => .error (invalidPayload "Unsupported enforced reasoning effort")
    | some effort =>
      match normalizeLimits request.limits with
      | none => .error (invalidPayload "Invalid limit definition")
      | some limits =>
        match env.material with
        | none => .error (failure 500 "api_key_generation_failed" "Failed to generate API key")
        | some material =>
          .ok
            { row :=
                { id := 0
                  keyId := env.keyId
                  keyHash := material.keyHash
                  keyPrefix := some material.keyPrefix
                  name
                  allowedModels := serializeAllowedModels json allowedModels
                  enforcedModel
                  enforcedReasoningEffort := effort.filter (· ≠ [])
                  expiresAt := request.expiresAt
                  createdAt := env.now
                  updatedAt := env.now }
              limits
              plainKey := material.plainKey }

def answerCreated (plainKey keyId : Bytes) (t : Tables) : Tables × ApiKeyMutationResponse :=
  answerFrom t env.refresh keyId (failure 500 "api_key_create_failed" "Failed to load API key") fun record =>
    { status := 201, key := plainKey, apiKey := toPayload json record }

def createApiKey (t : Tables) : Tables × ApiKeyMutationResponse :=
  match checkCreate json env request with
  | .error response => (t, response)
  | .ok checked =>
    match t.createApiKey env.insert env.reload checked.row with
    | (created, none) => (created, failure 500 "api_key_create_failed" "Failed to create API key")
    | (created, some record) =>
      if checked.limits = [] then answerCreated json env checked.plainKey record.keyId created
      else
        match created.replaceApiKeyLimits env.store record.keyId checked.limits env.now with
        | (stored, none) => (stored, limitsFailed)
        | (stored, some _) => answerCreated json env checked.plainKey record.keyId stored

end Create

section Update

structure UpdateEnv where
  overrideAllow : Option Bool := none
  overrideLeaderId : Option Bytes := none
  opens : Bool := true
  existing : Access := {}
  update : Access := {}
  current : Access := {}
  reload : Access := {}
  store : Access := {}
  refresh : Access := {}
  now : Bytes := []
  deriving DecidableEq

variable (json : StringListJson) (env : UpdateEnv) (keyId : Bytes) (request : ApiKeyUpdateRequest)

def checkUpdate (existing : ApiKeyRecord) : Except ApiKeyMutationResponse ApiKeyPatch :=
  let enforcedModel :=
    if request.enforcedModel.isSome then normalizeOptionalSlug request.enforcedModel else existing.enforcedModel
  let allowedModels :=
    if request.allowedModels.isSome then normalizeAllowedModels request.allowedModels
    else deserializeAllowedModels json existing.allowedModels
  if validateModelEnforcement enforcedModel allowedModels = false then
    .error (invalidPayload "enforced_model must be present in allowed_models when allowed_models is configured")
  else
    match checkedEffort request.enforcedReasoningEffort with
    | none => .error (invalidPayload "Unsupported enforced reasoning effort")
    | some effort =>
      if request.name.map trimAscii = some [] then .error (invalidPayload "API key name is required")
      else
        .ok
          { name := request.name.map trimAscii
            isActive := request.isActive
            expiresAt := request.expiresAt
            allowedModels := request.allowedModels.map fun _ => (serializeAllowedModels json allowedModels).getD []
            enforcedModel := request.enforcedModel.map fun _ => enforcedModel.getD []
            enforcedReasoningEffort := effort }

def answerUpdated (t : Tables) : Tables × ApiKeyMutationResponse :=
  answerFrom t env.refresh keyId notFound fun record => { status := 200, apiKey := toPayload json record }

def storeLimits (t : Tables) : Tables × ApiKeyMutationResponse :=
  match request.limits with
  | none => answerUpdated json env keyId t
  | some limits =>
    match normalizeLimits limits with
    | none => (t, invalidPayload "Invalid limit definition")
    | some normalized =>
      match t.replaceApiKeyLimits env.store keyId normalized env.now with
      | (stored, none) => (stored, limitsFailed)
      | (stored, some _) => answerUpdated json env keyId stored

def updateApiKey (t : Tables) : Tables × ApiKeyMutationResponse :=
  let guard := checkLinearizableReadAccess env.overrideAllow env.overrideLeaderId (ofString "api_keys")
  if guard.allow = false then (t, guard.response)
  else if env.opens = false then (t, databaseUnavailable)
  else
    match t.getApiKeyByKeyId env.existing keyId with
    | (ready, none) => (ready, notFound)
    | (ready, some existing) =>
      match checkUpdate json request existing with
      | .error response => (ready, response)
      | .ok patch =>
        match ready.updateApiKey env.update env.current env.reload keyId patch env.now with
        | (written, none) => (written, notFound)
        | (written, some _) => storeLimits json env keyId request written

end Update

end Tightrope.Server.KeysController
