import Tightrope.Auth.ApiKeys.LimitEnforcer
import Tightrope.Library.RowTable

namespace Tightrope.Core

def isNaN (value : UInt64) : Bool := 0x7FF0000000000000 < value &&& 0x7FFFFFFFFFFFFFFF

-- `value <= 0.0`, which no NaN is.
def notPositive (value : UInt64) : Bool := !isNaN value && (value = 0 || 0x8000000000000000 ≤ value)

end Tightrope.Core

namespace Tightrope.Db.ApiKeyRepo

open Bytes Tightrope.Core RowTable Auth.ApiKeys

-- A row of `api_keys`; the times are those that SQLite writes.
structure KeyRow where
  id : ℤ
  keyId : Bytes
  keyHash : Bytes
  keyPrefix : Option Bytes := none
  name : Bytes
  status : Bytes := ofString "active"
  isActive : ℤ := 1
  allowedModels : Option Bytes := none
  enforcedModel : Option Bytes := none
  enforcedReasoningEffort : Option Bytes := none
  expiresAt : Option Bytes := none
  lastUsedAt : Option Bytes := none
  createdAt : Bytes := []
  updatedAt : Bytes := []
  deriving DecidableEq

structure LimitRow where
  id : ℤ
  apiKeyId : ℤ
  limitType : Bytes
  limitValue : UInt64
  periodSeconds : ℤ
  limitWindow : Option Bytes := none
  maxValue : Option UInt64 := none
  currentValue : UInt64 := 0
  modelFilter : Option Bytes := none
  createdAt : Bytes := []
  deriving DecidableEq

structure ApiKeyLimitInput where
  limitType : Bytes
  limitWindow : Bytes
  maxValue : UInt64 := 0
  modelFilter : Option Bytes := none
  currentValue : UInt64 := 0
  deriving DecidableEq

structure ApiKeyLimitRecord where
  id : ℤ
  apiKeyId : ℤ
  limitType : Bytes
  limitWindow : Bytes
  maxValue : UInt64
  currentValue : UInt64
  modelFilter : Option Bytes
  deriving DecidableEq

structure ApiKeyRecord where
  id : ℤ
  keyId : Bytes
  keyHash : Bytes
  keyPrefix : Bytes
  name : Bytes
  isActive : Bool
  allowedModels : Option Bytes
  enforcedModel : Option Bytes
  enforcedReasoningEffort : Option Bytes
  expiresAt : Option Bytes
  createdAt : Bytes
  lastUsedAt : Option Bytes
  limits : List ApiKeyLimitRecord
  deriving DecidableEq

structure ApiKeyPatch where
  name : Option Bytes := none
  isActive : Option Bool := none
  keyHash : Option Bytes := none
  keyPrefix : Option Bytes := none
  allowedModels : Option Bytes := none
  enforcedModel : Option Bytes := none
  enforcedReasoningEffort : Option Bytes := none
  expiresAt : Option Bytes := none
  lastUsedAt : Option Bytes := none
  deriving DecidableEq

structure Consistent (keys : List KeyRow) (limits : List LimitRow) (keySequence : ℤ) : Prop where
  ids : (keys.map KeyRow.id).Nodup
  keyIds : (keys.map KeyRow.keyId).Nodup
  keyHashes : (keys.map KeyRow.keyHash).Nodup
  numbered : ∀ id ∈ keys.map KeyRow.id, id ≤ keySequence
  owned : ∀ id ∈ limits.map LimitRow.apiKeyId, id ≤ keySequence

structure Tables where
  keys : List KeyRow := []
  limits : List LimitRow := []
  keySequence : ℤ := 0
  limitSequence : ℤ := 0
  consistent : Consistent keys limits keySequence
  deriving DecidableEq

structure Access where
  resolves : Bool := true
  backfills : ℕ := 4
  runs : Bool := true
  limitsRead : Bool := true
  deriving DecidableEq

def Access.schemaReady (access : Access) : Bool := 4 ≤ access.backfills

def Access.works (access : Access) : Bool := access.resolves && access.schemaReady && access.runs

section Schema

-- SQLite's `substr(text, 1, count)` counts characters and ends at a NUL; `multibyte` says whether the character that
-- was begun may go on.
def sqlLeft (count : ℕ) (multibyte : Bool) : Bytes → Bytes
  | [] => []
  | c :: rest =>
    if c = 0 then []
    else if multibyte && c &&& 0xC0 = 0x80 then c :: sqlLeft count multibyte rest
    else
      match count with
      | 0 => []
      | count + 1 => c :: sqlLeft count (0xC0 ≤ c) rest

def missingText (value : Option Bytes) : Bool := value = none || value = some []

def KeyRow.filled (backfills : ℕ) (row : KeyRow) : KeyRow :=
  if 2 ≤ backfills ∧ missingText row.keyPrefix then { row with keyPrefix := some (sqlLeft 15 false row.keyId) } else row

def LimitRow.filled (backfills : ℕ) (row : LimitRow) : LimitRow :=
  { row with
    limitWindow :=
      if 3 ≤ backfills ∧ missingText row.limitWindow then
        some ((periodSecondsToWindow row.periodSeconds).getD (ofString "weekly"))
      else row.limitWindow
    maxValue := if 4 ≤ backfills then some (row.maxValue.getD row.limitValue) else row.maxValue }

variable {keys keys' : List KeyRow} {limits limits' : List LimitRow} {keySequence : ℤ}

theorem Consistent.congr (h : Consistent keys limits keySequence) (hids : keys'.map KeyRow.id = keys.map KeyRow.id)
    (hkeyIds : keys'.map KeyRow.keyId = keys.map KeyRow.keyId) (hhashes : (keys'.map KeyRow.keyHash).Nodup)
    (howned : ∀ id ∈ limits'.map LimitRow.apiKeyId, id ≤ keySequence) : Consistent keys' limits' keySequence :=
  ⟨hids ▸ h.ids, hkeyIds ▸ h.keyIds, hhashes, hids ▸ h.numbered, howned⟩

theorem map_filled_key {α : Type} {g : KeyRow → α} (backfills : ℕ)
    (hg : ∀ (row : KeyRow) (text : Option Bytes), g { row with keyPrefix := text } = g row) (keys : List KeyRow) :
    (keys.map (KeyRow.filled backfills)).map g = keys.map g := by
  rw [List.map_map]
  apply List.map_congr_left
  intro row _
  rw [Function.comp_apply, KeyRow.filled]
  split_ifs
  · exact hg row _
  · rfl

def Tables.backfilled (t : Tables) (backfills : ℕ) : Tables where
  keys := t.keys.map (KeyRow.filled backfills)
  limits := t.limits.map (LimitRow.filled backfills)
  keySequence := t.keySequence
  limitSequence := t.limitSequence
  consistent := by
    have howned : (t.limits.map (LimitRow.filled backfills)).map LimitRow.apiKeyId =
        t.limits.map LimitRow.apiKeyId := by
      rw [List.map_map]
      rfl
    apply t.consistent.congr
    · exact map_filled_key backfills (fun _ _ => rfl) t.keys
    · exact map_filled_key backfills (fun _ _ => rfl) t.keys
    · rw [map_filled_key backfills fun _ _ => rfl]
      exact t.consistent.keyHashes
    · rw [howned]
      exact t.consistent.owned

end Schema

section Reading

def LimitRow.record (row : LimitRow) : ApiKeyLimitRecord where
  id := row.id
  apiKeyId := row.apiKeyId
  limitType := row.limitType
  limitWindow :=
    let limitWindow := row.limitWindow.getD []
    if limitWindow = [] then (periodSecondsToWindow row.periodSeconds).getD (ofString "weekly") else limitWindow
  maxValue := row.maxValue.getD row.limitValue
  currentValue := row.currentValue
  modelFilter := row.modelFilter

def Tables.loadLimits (t : Tables) (apiKeyPk : ℤ) : List ApiKeyLimitRecord :=
  (t.limits.filter fun limit => limit.apiKeyId = apiKeyPk).map LimitRow.record

-- `getInt` takes the low 32 bits.
def Tables.record (t : Tables) (limitsRead : Bool) (row : KeyRow) : ApiKeyRecord where
  id := row.id
  keyId := row.keyId
  keyHash := row.keyHash
  keyPrefix := row.keyPrefix.getD []
  name := row.name
  isActive := row.isActive % 2 ^ 32 ≠ 0
  allowedModels := row.allowedModels
  enforcedModel := row.enforcedModel
  enforcedReasoningEffort := row.enforcedReasoningEffort
  expiresAt := row.expiresAt
  createdAt := row.createdAt
  lastUsedAt := row.lastUsedAt
  limits := if limitsRead then t.loadLimits row.id else []

def Tables.loadKeyByClause (t : Tables) (limitsRead : Bool) (clause : KeyRow → Bool) : Option ApiKeyRecord :=
  (t.keys.find? clause).map (t.record limitsRead)

def Tables.getApiKeyByKeyId (t : Tables) (access : Access) (keyId : Bytes) : Tables × Option ApiKeyRecord :=
  let ready := t.backfilled access.backfills
  (ready, if access.works && keyId ≠ [] then ready.loadKeyByClause access.limitsRead (·.keyId = keyId) else none)

def Tables.getApiKeyByHash (t : Tables) (access : Access) (keyHash : Bytes) : Tables × Option ApiKeyRecord :=
  let ready := t.backfilled access.backfills
  (ready, if access.works && keyHash ≠ [] then ready.loadKeyByClause access.limitsRead (·.keyHash = keyHash) else none)

def Tables.findApiKeyPk (t : Tables) (keyId : Bytes) : Option {pk : ℤ // pk ≤ t.keySequence} :=
  (t.keys.find? (·.keyId = keyId)).attach.map fun row =>
    ⟨row.1.id, t.consistent.numbered _ (List.mem_map_of_mem (List.mem_of_find?_eq_some row.2))⟩

end Reading

section Writing

variable (t : Tables)

-- `NULLIF(value, '')`
def nullif (value : Bytes) : Option Bytes := if value = [] then none else some value

def Tables.insertKey (row : KeyRow) (hkeyId : row.keyId ∉ t.keys.map KeyRow.keyId)
    (hkeyHash : row.keyHash ∉ t.keys.map KeyRow.keyHash) : Tables where
  keys := t.keys ++ [{ row with id := t.keySequence + 1 }]
  limits := t.limits
  keySequence := t.keySequence + 1
  limitSequence := t.limitSequence
  consistent := by
    obtain ⟨hids, hkeyIds, hkeyHashes, hnumbered, howned⟩ := t.consistent
    have hfresh : t.keySequence + 1 ∉ t.keys.map KeyRow.id := by
      intro hmem
      have hle := hnumbered _ hmem
      omega
    constructor
    · rw [List.map_append, List.map_singleton]
      exact List.nodup_append.mpr ⟨hids, List.nodup_singleton _, by simpa using hfresh⟩
    · rw [List.map_append, List.map_singleton]
      exact List.nodup_append.mpr ⟨hkeyIds, List.nodup_singleton _, by simpa using hkeyId⟩
    · rw [List.map_append, List.map_singleton]
      exact List.nodup_append.mpr ⟨hkeyHashes, List.nodup_singleton _, by simpa using hkeyHash⟩
    · intro id hid
      rw [List.map_append, List.map_singleton, List.mem_append, List.mem_singleton] at hid
      obtain hid | rfl := hid
      · have hle := hnumbered id hid
        omega
      · exact le_refl _
    · intro id hid
      have hle := howned id hid
      omega

def Tables.createApiKey (insert reload : Access) (row : KeyRow) : Tables × Option ApiKeyRecord :=
  if insert.resolves = false then (t, none)
  else
    let ready := t.backfilled insert.backfills
    if insert.schemaReady = false ∨ row.keyId = [] ∨ row.keyHash = [] ∨ row.name = [] then (ready, none)
    else if h : insert.runs = true ∧ row.keyId ∉ ready.keys.map KeyRow.keyId ∧
        row.keyHash ∉ ready.keys.map KeyRow.keyHash then
      (ready.insertKey row h.2.1 h.2.2).getApiKeyByKeyId reload row.keyId
    else (ready, none)

def KeyRow.patched (current : ApiKeyRecord) (patch : ApiKeyPatch) (now : Bytes) (row : KeyRow) : KeyRow :=
  let isActive := patch.isActive.getD current.isActive
  { row with
    name := patch.name.getD current.name
    status := if isActive then ofString "active" else ofString "inactive"
    isActive := if isActive then 1 else 0
    keyHash := patch.keyHash.getD current.keyHash
    keyPrefix := some (patch.keyPrefix.getD current.keyPrefix)
    allowedModels := nullif (patch.allowedModels.getD (current.allowedModels.getD []))
    enforcedModel := nullif (patch.enforcedModel.getD (current.enforcedModel.getD []))
    enforcedReasoningEffort :=
      nullif (patch.enforcedReasoningEffort.getD (current.enforcedReasoningEffort.getD []))
    expiresAt := nullif (patch.expiresAt.getD (current.expiresAt.getD []))
    lastUsedAt := nullif (patch.lastUsedAt.getD (current.lastUsedAt.getD []))
    updatedAt := now }

def Tables.patchedKeys (keyId : Bytes) (current : ApiKeyRecord) (patch : ApiKeyPatch) (now : Bytes) : List KeyRow :=
  updateWhere (·.keyId = keyId) (.patched current patch now) t.keys

def Tables.patchKey (keyId : Bytes) (current : ApiKeyRecord) (patch : ApiKeyPatch) (now : Bytes)
    (h : ((t.patchedKeys keyId current patch now).map KeyRow.keyHash).Nodup) : Tables where
  keys := t.patchedKeys keyId current patch now
  limits := t.limits
  keySequence := t.keySequence
  limitSequence := t.limitSequence
  consistent := by
    apply t.consistent.congr _ _ h t.consistent.owned
    · exact map_field_updateWhere (g := KeyRow.id) (f := .patched current patch now) (fun _ => rfl) _ _
    · exact map_field_updateWhere (g := KeyRow.keyId) (f := .patched current patch now) (fun _ => rfl) _ _

def Tables.updateApiKey (update current reload : Access) (keyId : Bytes) (patch : ApiKeyPatch) (now : Bytes) :
    Tables × Option ApiKeyRecord :=
  if update.resolves = false then (t, none)
  else
    match t.getApiKeyByKeyId current keyId with
    | (ready, none) => (ready, none)
    | (ready, some record) =>
      if h : update.runs = true ∧ ((ready.patchedKeys keyId record patch now).map KeyRow.keyHash).Nodup then
        (ready.patchKey keyId record patch now h.2).getApiKeyByKeyId reload keyId
      else (ready, none)

def validLimit (limitType limitWindow : Bytes) (maxValue : UInt64) : Bool :=
  isSupportedLimitType limitType && (windowToPeriodSeconds limitWindow).isSome && !notPositive maxValue

-- SQLite stores a NaN as NULL, which these columns refuse.
def ApiKeyLimitInput.storable (limit : ApiKeyLimitInput) : Bool := !isNaN limit.maxValue && !isNaN limit.currentValue

def limitRows (apiKeyPk : ℤ) (now : Bytes) (first : ℤ) : List ApiKeyLimitInput → List LimitRow
  | [] => []
  | limit :: limits =>
    { id := first
      apiKeyId := apiKeyPk
      limitType := limit.limitType
      limitValue := limit.maxValue
      periodSeconds := (windowToPeriodSeconds limit.limitWindow).getD 604800
      limitWindow := some limit.limitWindow
      maxValue := some limit.maxValue
      currentValue := limit.currentValue
      modelFilter := limit.modelFilter
      createdAt := now } :: limitRows apiKeyPk now (first + 1) limits

theorem mem_limitRows {apiKeyPk first : ℤ} {now : Bytes} {limits : List ApiKeyLimitInput} {row : LimitRow}
    (h : row ∈ limitRows apiKeyPk now first limits) : row.apiKeyId = apiKeyPk := by
  induction limits generalizing first with
  | nil => cases h
  | cons limit limits ih =>
    obtain rfl | h := List.mem_cons.mp h
    · rfl
    · exact ih h

def Tables.withLimits (apiKeyPk : {pk : ℤ // pk ≤ t.keySequence}) (limits : List ApiKeyLimitInput) (now : Bytes) :
    Tables where
  keys := t.keys
  limits := t.limits.filter (fun limit => limit.apiKeyId ≠ apiKeyPk.1) ++
    limitRows apiKeyPk now (t.limitSequence + 1) limits
  keySequence := t.keySequence
  limitSequence := t.limitSequence + limits.length
  consistent := by
    apply t.consistent.congr rfl rfl t.consistent.keyHashes
    intro id hid
    obtain ⟨row, hrow, rfl⟩ := List.mem_map.mp hid
    obtain hrow | hrow := List.mem_append.mp hrow
    · exact t.consistent.owned _ (List.mem_map_of_mem (List.mem_of_mem_filter hrow))
    · rw [mem_limitRows hrow]
      exact apiKeyPk.2

def Tables.replaceApiKeyLimits (access : Access) (keyId : Bytes) (limits : List ApiKeyLimitInput) (now : Bytes) :
    Tables × Option (List ApiKeyLimitRecord) :=
  if access.resolves = false then (t, none)
  else
    let ready := t.backfilled access.backfills
    if access.schemaReady = false then (ready, none)
    else
      match ready.findApiKeyPk keyId with
      | none => (ready, none)
      | some apiKeyPk =>
        if !limits.all fun limit => validLimit limit.limitType limit.limitWindow limit.maxValue then (ready, none)
        else if access.runs && limits.all ApiKeyLimitInput.storable then
          let stored := ready.withLimits apiKeyPk limits now
          (stored, some (if access.limitsRead then stored.loadLimits apiKeyPk else []))
        else (ready, none)

end Writing

section Filled

variable {t : Tables} {backfills : ℕ}

theorem KeyRow.filled_eq (row : KeyRow) (backfills : ℕ) :
    row.filled backfills = row ∨ row.filled backfills = row.filled 4 := by
  unfold KeyRow.filled
  by_cases hran : 2 ≤ backfills
  · exact .inr (by simp [hran])
  · exact .inl (by simp [hran])

theorem KeyRow.filled_filled (row : KeyRow) (backfills : ℕ) : (row.filled 4).filled backfills = row.filled 4 := by
  obtain h | h := KeyRow.filled_eq (row.filled 4) backfills
  · exact h
  · rw [h]
    unfold KeyRow.filled
    split_ifs <;> rfl

theorem periodSecondsToWindow_ne_nil (periodSeconds : ℤ) :
    (periodSecondsToWindow periodSeconds).getD (ofString "weekly") ≠ [] := by
  unfold periodSecondsToWindow
  split_ifs <;> decide

theorem LimitRow.limitWindow_filled (row : LimitRow) : missingText (row.filled 4).limitWindow = false := by
  unfold LimitRow.filled
  by_cases hmissing : missingText row.limitWindow = true
  · simp only [hmissing, Nat.reduceLeDiff, and_self, if_true]
    simp [missingText, periodSecondsToWindow_ne_nil]
  · simp [hmissing]

theorem LimitRow.filled_filled (row : LimitRow) (backfills : ℕ) : (row.filled 4).filled backfills = row.filled 4 := by
  rw [LimitRow.filled, row.limitWindow_filled]
  simp [LimitRow.filled]

theorem backfilled_backfilled (t : Tables) (backfills : ℕ) :
    (t.backfilled 4).backfilled backfills = t.backfilled 4 := by
  unfold Tables.backfilled
  simp only [List.map_map, Tables.mk.injEq, and_true]
  exact ⟨List.map_congr_left fun row _ => row.filled_filled backfills,
    List.map_congr_left fun row _ => row.filled_filled backfills⟩

theorem backfilled_of_ready (t : Tables) (h : 4 ≤ backfills) : t.backfilled backfills = t.backfilled 4 := by
  have hkeys : KeyRow.filled backfills = KeyRow.filled 4 := by
    funext row
    simp [KeyRow.filled, show 2 ≤ backfills by omega]
  have hlimits : LimitRow.filled backfills = LimitRow.filled 4 := by
    funext row
    simp [LimitRow.filled, show 3 ≤ backfills by omega, h]
  unfold Tables.backfilled
  simp only [hkeys, hlimits]

def Tables.Filled (t : Tables) : Prop := ∀ backfills, t.backfilled backfills = t

theorem filled_backfilled (t : Tables) (h : 4 ≤ backfills) : (t.backfilled backfills).Filled := by
  intro backfills'
  rw [backfilled_of_ready t h, backfilled_backfilled]

theorem filled_iff : t.Filled ↔ t.backfilled 4 = t := by
  constructor
  · intro h
    exact h 4
  · intro h backfills
    rw [← h, backfilled_backfilled]

theorem KeyRow.filled_eq_self_iff {row : KeyRow} : row.filled 4 = row ↔
    (missingText row.keyPrefix = true → row.keyPrefix = some (sqlLeft 15 false row.keyId)) := by
  unfold KeyRow.filled
  by_cases hmissing : missingText row.keyPrefix = true
  · rw [if_pos ⟨by decide, hmissing⟩]
    constructor
    · intro h _
      exact (congrArg KeyRow.keyPrefix h).symm
    · intro h
      rw [← h hmissing]
  · rw [if_neg fun hboth => hmissing hboth.2]
    exact ⟨fun _ hyes => absurd hyes hmissing, fun _ => rfl⟩

theorem LimitRow.filled_eq_self_iff {row : LimitRow} : row.filled 4 = row ↔
    missingText row.limitWindow = false ∧ row.maxValue.isSome = true := by
  constructor
  · intro h
    rw [← h]
    exact ⟨row.limitWindow_filled, rfl⟩
  · rintro ⟨hwindow, hmax⟩
    obtain ⟨value, hvalue⟩ := Option.isSome_iff_exists.mp hmax
    have hfill : some (row.maxValue.getD row.limitValue) = row.maxValue := by
      rw [hvalue]
      rfl
    simp [LimitRow.filled, hwindow, hfill]

theorem filled_iff_rows : t.Filled ↔
    (∀ row ∈ t.keys, row.filled 4 = row) ∧ ∀ limit ∈ t.limits, limit.filled 4 = limit := by
  have hself : ∀ {α : Type} (f : α → α) (rows : List α), rows.map f = rows ↔ ∀ row ∈ rows, f row = row := by
    intro α f rows
    have hid := List.map_inj_left (l := rows) (f := f) (g := id)
    rwa [List.map_id] at hid
  rw [filled_iff, ← hself, ← hself]
  constructor
  · intro h
    exact ⟨congrArg Tables.keys h, congrArg Tables.limits h⟩
  · rintro ⟨hkeys, hlimits⟩
    unfold Tables.backfilled
    simp only [hkeys, hlimits]

end Filled

section Settings

structure KeySettings where
  name : Bytes
  isActive : Bool := true
  allowedModels : Option Bytes := none
  enforcedModel : Option Bytes := none
  enforcedReasoningEffort : Option Bytes := none
  expiresAt : Option Bytes := none
  limits : List ApiKeyLimitInput := []
  deriving DecidableEq

def ApiKeyLimitRecord.input (limit : ApiKeyLimitRecord) : ApiKeyLimitInput where
  limitType := limit.limitType
  limitWindow := limit.limitWindow
  maxValue := limit.maxValue
  modelFilter := limit.modelFilter
  currentValue := limit.currentValue

def ApiKeyRecord.settings (record : ApiKeyRecord) : KeySettings where
  name := record.name
  isActive := record.isActive
  allowedModels := record.allowedModels
  enforcedModel := record.enforcedModel
  enforcedReasoningEffort := record.enforcedReasoningEffort
  expiresAt := record.expiresAt
  limits := record.limits.map ApiKeyLimitRecord.input

def Tables.row? (t : Tables) (keyId : Bytes) : Option KeyRow := rowOf KeyRow.keyId keyId t.keys

def Tables.settingsOf (t : Tables) (row : KeyRow) : KeySettings := (t.record true row).settings

def Tables.settings? (t : Tables) (keyId : Bytes) : Option KeySettings := (t.row? keyId).map t.settingsOf

variable {t t' : Tables} {row row' : KeyRow} {keyId other : Bytes} {limits : List ApiKeyLimitInput} {now : Bytes}

theorem getApiKeyByKeyId_eq (t : Tables) (access : Access) (keyId : Bytes) :
    t.getApiKeyByKeyId access keyId = (t.backfilled access.backfills,
      if access.works ∧ keyId ≠ [] then
        ((t.backfilled access.backfills).row? keyId).map ((t.backfilled access.backfills).record access.limitsRead)
      else none) := by
  simp [Tables.getApiKeyByKeyId, Tables.loadKeyByClause, Tables.row?, rowOf]

theorem KeyRow.keyId_filled (row : KeyRow) (backfills : ℕ) : (row.filled backfills).keyId = row.keyId := by
  unfold KeyRow.filled
  split_ifs <;> rfl

theorem LimitRow.record_filled (row : LimitRow) (backfills : ℕ) : (row.filled backfills).record = row.record := by
  have hmax : (if 4 ≤ backfills then some (row.maxValue.getD row.limitValue) else row.maxValue).getD row.limitValue =
      row.maxValue.getD row.limitValue := by
    split_ifs <;> rfl
  unfold LimitRow.filled LimitRow.record
  simp only [hmax]
  by_cases hmissing : 3 ≤ backfills ∧ missingText row.limitWindow = true
  · obtain h | h : row.limitWindow = none ∨ row.limitWindow = some [] := by simpa [missingText] using hmissing.2
    all_goals simp [hmissing.1, h, missingText]
  · simp [hmissing]

theorem loadLimits_backfilled (t : Tables) (backfills : ℕ) (apiKeyPk : ℤ) :
    (t.backfilled backfills).loadLimits apiKeyPk = t.loadLimits apiKeyPk := by
  rw [Tables.loadLimits, Tables.backfilled, List.filter_map, List.map_map]
  exact List.map_congr_left fun row _ => row.record_filled backfills

theorem row?_backfilled (t : Tables) (backfills : ℕ) (keyId : Bytes) :
    (t.backfilled backfills).row? keyId = (t.row? keyId).map (KeyRow.filled backfills) :=
  rowOf_map KeyRow.keyId (fun row => row.keyId_filled backfills) keyId t.keys

theorem settingsOf_filled (t : Tables) (backfills : ℕ) (row : KeyRow) :
    (t.backfilled backfills).settingsOf (row.filled backfills) = t.settingsOf row := by
  simp only [Tables.settingsOf, ApiKeyRecord.settings, Tables.record, loadLimits_backfilled]
  unfold KeyRow.filled
  split_ifs <;> rfl

theorem settings?_backfilled (t : Tables) (backfills : ℕ) (keyId : Bytes) :
    (t.backfilled backfills).settings? keyId = t.settings? keyId := by
  rw [Tables.settings?, row?_backfilled, Option.map_map, Tables.settings?]
  congr 1
  funext row
  exact settingsOf_filled t backfills row

theorem row?_insertKey (t : Tables) (row : KeyRow) (hkeyId : row.keyId ∉ t.keys.map KeyRow.keyId)
    (hkeyHash : row.keyHash ∉ t.keys.map KeyRow.keyHash) (keyId : Bytes) :
    (t.insertKey row hkeyId hkeyHash).row? keyId =
      if keyId = row.keyId then some { row with id := t.keySequence + 1 } else t.row? keyId := by
  have hnone : t.row? row.keyId = none := by
    apply List.find?_eq_none.mpr
    intro old hold
    simp only [decide_eq_true_eq]
    intro heq
    exact hkeyId (heq ▸ List.mem_map_of_mem hold)
  rw [Tables.row?, Tables.insertKey, rowOf, List.find?_append]
  by_cases heq : keyId = row.keyId
  · rw [if_pos heq, heq]
    change ((t.row? row.keyId).or _) = _
    rw [hnone, Option.none_or, List.find?_singleton, if_pos (by simp)]
  · rw [if_neg heq, List.find?_singleton, if_neg (by simpa using fun h => heq h.symm), Option.or_none]
    rfl

theorem loadLimits_fresh (t : Tables) : t.loadLimits (t.keySequence + 1) = [] := by
  rw [Tables.loadLimits, List.map_eq_nil_iff, List.filter_eq_nil_iff]
  intro limit hlimit
  have hle := t.consistent.owned _ (List.mem_map_of_mem hlimit)
  simp only [decide_eq_true_eq]
  omega

theorem row?_patchKey (t : Tables) (keyId : Bytes) (current : ApiKeyRecord) (patch : ApiKeyPatch) (now : Bytes)
    (h : ((t.patchedKeys keyId current patch now).map KeyRow.keyHash).Nodup) (other : Bytes) :
    (t.patchKey keyId current patch now h).row? other =
      if other = keyId then (t.row? keyId).map (.patched current patch now) else t.row? other := by
  split_ifs with heq
  · rw [heq]
    exact rowOf_updateWhere_self KeyRow.keyId (f := .patched current patch now) (fun _ => rfl) keyId t.keys
  · exact rowOf_updateWhere_ne KeyRow.keyId (f := .patched current patch now) (fun _ => rfl) heq t.keys

theorem record_limitRows {apiKeyPk first : ℤ} (hvalid : ∀ limit ∈ limits, limit.limitWindow ≠ []) :
    (limitRows apiKeyPk now first limits).map (fun row => row.record.input) = limits := by
  induction limits generalizing first with
  | nil => rfl
  | cons limit limits ih =>
    obtain ⟨hlimit, hlimits⟩ := List.forall_mem_cons.mp hvalid
    rw [limitRows, List.map_cons, ih hlimits]
    simp [LimitRow.record, ApiKeyLimitRecord.input, hlimit]

theorem loadLimits_withLimits (t : Tables) (apiKeyPk : {pk : ℤ // pk ≤ t.keySequence}) (apiKeyPk' : ℤ) :
    (t.withLimits apiKeyPk limits now).loadLimits apiKeyPk' =
      if apiKeyPk' = apiKeyPk then (limitRows apiKeyPk now (t.limitSequence + 1) limits).map LimitRow.record
      else t.loadLimits apiKeyPk' := by
  have hnew : ∀ row ∈ limitRows apiKeyPk now (t.limitSequence + 1) limits, row.apiKeyId = apiKeyPk :=
    fun row hrow => mem_limitRows hrow
  rw [Tables.loadLimits, Tables.withLimits, List.filter_append, List.map_append, List.filter_filter]
  split_ifs with heq
  · have hold : (t.limits.filter fun limit => decide (limit.apiKeyId = apiKeyPk') &&
        decide (limit.apiKeyId ≠ apiKeyPk.1)) = [] := by
      rw [List.filter_eq_nil_iff]
      intro limit _
      simp [heq]
    rw [hold, List.map_nil, List.nil_append, List.filter_eq_self.mpr]
    intro row hrow
    simp [hnew row hrow, heq]
  · have hold : (t.limits.filter fun limit => decide (limit.apiKeyId = apiKeyPk') &&
        decide (limit.apiKeyId ≠ apiKeyPk.1)) = t.limits.filter fun limit => limit.apiKeyId = apiKeyPk' := by
      apply List.filter_congr
      intro limit _
      by_cases howner : limit.apiKeyId = apiKeyPk'
      · simp [howner, heq]
      · simp [howner]
    have hnone : ((limitRows apiKeyPk now (t.limitSequence + 1) limits).filter fun limit =>
        limit.apiKeyId = apiKeyPk') = [] := by
      rw [List.filter_eq_nil_iff]
      intro row hrow
      simp [hnew row hrow, Ne.symm heq]
    rw [hold, hnone, List.map_nil, List.append_nil]
    rfl

theorem row_of_id (hrow : t.row? keyId = some row) (hother : t.row? other = some row') (h : row'.id = row.id) :
    other = keyId := by
  have heq : row' = row := List.inj_on_of_nodup_map t.consistent.ids (mem_of_rowOf KeyRow.keyId hother)
    (mem_of_rowOf KeyRow.keyId hrow) h
  rw [← key_of_rowOf KeyRow.keyId hother, heq, key_of_rowOf KeyRow.keyId hrow]

theorem settings?_insertKey (t : Tables) (row : KeyRow) (hkeyId : row.keyId ∉ t.keys.map KeyRow.keyId)
    (hkeyHash : row.keyHash ∉ t.keys.map KeyRow.keyHash) (keyId : Bytes) :
    (t.insertKey row hkeyId hkeyHash).settings? keyId =
      if keyId = row.keyId then some { t.settingsOf row with limits := [] } else t.settings? keyId := by
  rw [Tables.settings?, row?_insertKey]
  split_ifs with heq
  · have hlimits : (t.insertKey row hkeyId hkeyHash).loadLimits (t.keySequence + 1) = [] := loadLimits_fresh t
    simp [Tables.settingsOf, Tables.record, ApiKeyRecord.settings, hlimits]
  · rfl

theorem settings?_patchKey (t : Tables) (keyId : Bytes) (current : ApiKeyRecord) (patch : ApiKeyPatch) (now : Bytes)
    (h : ((t.patchedKeys keyId current patch now).map KeyRow.keyHash).Nodup) (other : Bytes) :
    (t.patchKey keyId current patch now h).settings? other =
      if other = keyId then (t.row? keyId).map fun row => t.settingsOf (row.patched current patch now)
      else t.settings? other := by
  rw [Tables.settings?, row?_patchKey]
  split_ifs with heq
  · rw [Option.map_map]
    rfl
  · rfl

theorem settings?_withLimits (hrow : t.row? keyId = some row) (hle : row.id ≤ t.keySequence)
    (hvalid : ∀ limit ∈ limits, limit.limitWindow ≠ []) (now other : Bytes) :
    (t.withLimits ⟨row.id, hle⟩ limits now).settings? other =
      if other = keyId then some { t.settingsOf row with limits } else t.settings? other := by
  have hrows : (t.withLimits ⟨row.id, hle⟩ limits now).row? other = t.row? other := rfl
  rw [Tables.settings?, hrows]
  split_ifs with heq
  · have hlimits := @loadLimits_withLimits limits now t ⟨row.id, hle⟩ row.id
    rw [if_pos rfl] at hlimits
    have hinput : ((t.withLimits ⟨row.id, hle⟩ limits now).loadLimits row.id).map ApiKeyLimitRecord.input = limits := by
      rw [hlimits, List.map_map]
      exact record_limitRows hvalid
    rw [heq, hrow]
    simp [Tables.settingsOf, Tables.record, ApiKeyRecord.settings, hinput]
  · rw [Tables.settings?]
    cases hother : t.row? other with
    | none => rfl
    | some row' =>
      have hlimits := @loadLimits_withLimits limits now t ⟨row.id, hle⟩ row'.id
      rw [if_neg fun hid => heq (row_of_id hrow hother hid)] at hlimits
      simp [Tables.settingsOf, Tables.record, hlimits]

theorem findApiKeyPk_eq (h : t.row? keyId = some row) :
    ∃ hle, t.findApiKeyPk keyId = some ⟨row.id, hle⟩ := by
  have hmem := mem_of_rowOf KeyRow.keyId h
  refine ⟨t.consistent.numbered _ (List.mem_map_of_mem hmem), ?_⟩
  exact Option.map_eq_some_iff.mpr ⟨⟨row, h⟩, Option.attach_eq_some_iff.mpr h, rfl⟩

theorem eq_of_row? (hrow : t.row? keyId = some row) (hmem : row' ∈ t.keys) (hkeyId : row'.keyId = keyId) :
    row' = row := by
  have hrow' := rowOf_of_mem KeyRow.keyId t.consistent.keyIds hmem
  rw [hkeyId] at hrow'
  exact Option.some_inj.mp (hrow'.symm.trans hrow)

section Patching

variable {current : ApiKeyRecord} {patch : ApiKeyPatch}

theorem nodup_patchedKeys (hrow : t.row? keyId = some row) (hcurrent : current.keyHash = row.keyHash)
    (hpatch : patch.keyHash = none) : ((t.patchedKeys keyId current patch now).map KeyRow.keyHash).Nodup := by
  have hsame : (t.patchedKeys keyId current patch now).map KeyRow.keyHash = t.keys.map KeyRow.keyHash := by
    rw [Tables.patchedKeys, updateWhere, List.map_map]
    apply List.map_congr_left
    intro row' hmem
    rw [Function.comp_apply, setWhere]
    split_ifs with hkeyId
    · rw [eq_of_row? hrow hmem (of_decide_eq_true hkeyId), KeyRow.patched, hpatch]
      exact hcurrent
    · rfl
  rw [hsame]
  exact t.consistent.keyHashes

theorem filled_patchKey (hfilled : t.Filled) (hrow : t.row? keyId = some row)
    (hcurrent : current.keyPrefix = row.keyPrefix.getD []) (hpatch : patch.keyPrefix = none) (h) :
    (t.patchKey keyId current patch now h).Filled := by
  obtain ⟨hkeys, hlimits⟩ := filled_iff_rows.mp hfilled
  refine filled_iff_rows.mpr ⟨fun row' hrow' => ?_, hlimits⟩
  obtain ⟨old, hold, rfl⟩ := mem_updateWhere.mp hrow'
  by_cases hkeyId : old.keyId = keyId
  · rw [eq_of_row? hrow hold hkeyId, setWhere_of_pos (by simp [← hkeyId, eq_of_row? hrow hold hkeyId]),
      KeyRow.filled_eq_self_iff]
    have hself := KeyRow.filled_eq_self_iff.mp (hkeys row (mem_of_rowOf KeyRow.keyId hrow))
    rw [KeyRow.patched, hpatch]
    dsimp only
    rw [Option.getD_none, hcurrent]
    intro hmissing
    cases hleft : row.keyPrefix with
    | none =>
      rw [hleft] at hself
      cases hself rfl
    | some text =>
      rw [hleft] at hself hmissing
      exact hself hmissing
  · rw [setWhere_of_neg (by simpa using hkeyId)]
    exact hkeys old hold

theorem patchKey_eq_self_iff (hrow : t.row? keyId = some row) (h) :
    t.patchKey keyId current patch now h = t ↔ row.patched current patch now = row := by
  constructor
  · intro hsame
    have hpatched := row?_patchKey t keyId current patch now h keyId
    rw [hsame, if_pos rfl, hrow] at hpatched
    exact (Option.some_inj.mp hpatched).symm
  · intro hsame
    have hkeys : t.patchedKeys keyId current patch now = t.keys := by
      rw [Tables.patchedKeys, updateWhere]
      conv_rhs => rw [← List.map_id t.keys]
      apply List.map_congr_left
      intro row' hmem
      rw [setWhere]
      split_ifs with hkeyId
      · rw [eq_of_row? hrow hmem (of_decide_eq_true hkeyId), hsame]
        rfl
      · rfl
    unfold Tables.patchKey
    simp only [hkeys]

end Patching

end Settings

section Calls

variable {t : Tables} {row : KeyRow} {keyId : Bytes} {limits : List ApiKeyLimitInput}

structure Tables.Inserts (t : Tables) (insert : Access) (row : KeyRow) : Prop where
  works : insert.works = true
  named : row.keyId ≠ [] ∧ row.keyHash ≠ [] ∧ row.name ≠ []
  fresh : row.keyId ∉ t.keys.map KeyRow.keyId ∧ row.keyHash ∉ t.keys.map KeyRow.keyHash

theorem works_iff {access : Access} :
    access.works = true ↔ access.resolves = true ∧ access.schemaReady = true ∧ access.runs = true := by
  simp [Access.works, and_assoc]

theorem map_keyId_backfilled (t : Tables) (backfills : ℕ) :
    (t.backfilled backfills).keys.map KeyRow.keyId = t.keys.map KeyRow.keyId :=
  map_filled_key backfills (fun _ _ => rfl) t.keys

theorem map_keyHash_backfilled (t : Tables) (backfills : ℕ) :
    (t.backfilled backfills).keys.map KeyRow.keyHash = t.keys.map KeyRow.keyHash :=
  map_filled_key backfills (fun _ _ => rfl) t.keys

theorem createApiKey_of_inserts {insert : Access} (reload : Access) (h : t.Inserts insert row) :
    ∃ hkeyId hkeyHash, t.createApiKey insert reload row =
      ((t.backfilled insert.backfills).insertKey row hkeyId hkeyHash).getApiKeyByKeyId reload row.keyId := by
  obtain ⟨hworks, ⟨hkeyId, hkeyHash, hname⟩, hfresh⟩ := h
  obtain ⟨hresolves, hready, hruns⟩ := works_iff.mp hworks
  rw [← map_keyId_backfilled t insert.backfills, ← map_keyHash_backfilled t insert.backfills] at hfresh
  refine ⟨hfresh.1, hfresh.2, ?_⟩
  rw [Tables.createApiKey, if_neg (by simp [hresolves])]
  dsimp only
  rw [if_neg (by simp [hready, hkeyId, hkeyHash, hname]), dif_pos ⟨hruns, hfresh⟩]

theorem createApiKey_of_not_inserts {insert : Access} (reload : Access) (h : ¬ t.Inserts insert row) :
    t.createApiKey insert reload row = (if insert.resolves then t.backfilled insert.backfills else t, none) := by
  unfold Tables.createApiKey
  by_cases hresolves : insert.resolves = true
  · rw [if_neg (by simp [hresolves]), if_pos hresolves]
    dsimp only
    by_cases hskip : insert.schemaReady = false ∨ row.keyId = [] ∨ row.keyHash = [] ∨ row.name = []
    · rw [if_pos hskip]
    · rw [if_neg hskip]
      apply dif_neg
      rintro ⟨hruns, hfresh⟩
      rw [map_keyId_backfilled, map_keyHash_backfilled] at hfresh
      simp only [not_or, Bool.not_eq_false] at hskip
      exact h ⟨works_iff.mpr ⟨hresolves, hskip.1, hruns⟩, hskip.2, hfresh⟩
  · rw [if_pos (by simpa using hresolves), if_neg hresolves]

structure Stores (store : Access) (limits : List ApiKeyLimitInput) : Prop where
  works : store.works = true
  valid : ∀ limit ∈ limits, validLimit limit.limitType limit.limitWindow limit.maxValue = true
  storable : ∀ limit ∈ limits, limit.storable = true

theorem replaceApiKeyLimits_of_stores {store : Access} (h : Stores store limits) (hrow : t.row? keyId = some row)
    (now : Bytes) :
    ∃ filled hle records, (t.backfilled store.backfills).row? keyId = some filled ∧
      t.replaceApiKeyLimits store keyId limits now =
        ((t.backfilled store.backfills).withLimits ⟨filled.id, hle⟩ limits now, some records) := by
  obtain ⟨hworks, hvalid, hstorable⟩ := h
  obtain ⟨hresolves, hready, hruns⟩ := works_iff.mp hworks
  have hfilled : (t.backfilled store.backfills).row? keyId = some (row.filled store.backfills) := by
    rw [row?_backfilled, hrow]
    rfl
  obtain ⟨hle, hpk⟩ := findApiKeyPk_eq hfilled
  refine ⟨row.filled store.backfills, hle, if store.limitsRead then ((t.backfilled store.backfills).withLimits
    ⟨(row.filled store.backfills).id, hle⟩ limits now).loadLimits (row.filled store.backfills).id else [], hfilled, ?_⟩
  rw [Tables.replaceApiKeyLimits, if_neg (by simp [hresolves])]
  dsimp only
  rw [if_neg (by simp [hready]), hpk]
  dsimp only
  rw [if_neg (by simpa using hvalid), if_pos (by simpa [hruns] using hstorable)]

theorem replaceApiKeyLimits_of_filled {store : Access} (hfilled : t.Filled) (h : Stores store limits)
    (hrow : t.row? keyId = some row) (now : Bytes) :
    ∃ hle records, t.replaceApiKeyLimits store keyId limits now =
      (t.withLimits ⟨row.id, hle⟩ limits now, some records) := by
  obtain ⟨filled, hle, records, hrow', hreplace⟩ := replaceApiKeyLimits_of_stores h hrow now
  have hready := hfilled store.backfills
  generalize t.backfilled store.backfills = ready at hle hrow' hreplace hready
  subst hready
  obtain rfl : row = filled := Option.some_inj.mp (hrow.symm.trans hrow')
  exact ⟨hle, records, hreplace⟩

theorem replaceApiKeyLimits_of_not_stores {store : Access} (h : ¬ Stores store limits) (t : Tables)
    (keyId now : Bytes) :
    t.replaceApiKeyLimits store keyId limits now = (t, none) ∨
      t.replaceApiKeyLimits store keyId limits now = (t.backfilled store.backfills, none) := by
  rw [Tables.replaceApiKeyLimits]
  by_cases hresolves : store.resolves = false
  · exact .inl (if_pos hresolves)
  · rw [if_neg hresolves]
    right
    dsimp only
    by_cases hready : store.schemaReady = false
    · exact if_pos hready
    · rw [if_neg hready]
      cases (t.backfilled store.backfills).findApiKeyPk keyId with
      | none => rfl
      | some apiKeyPk =>
        dsimp only
        by_cases hvalid : (!limits.all fun limit => validLimit limit.limitType limit.limitWindow limit.maxValue) = true
        · exact if_pos hvalid
        · rw [if_neg hvalid]
          apply if_neg
          intro hstores
          simp only [Bool.and_eq_true, List.all_eq_true] at hstores
          simp only [Bool.not_eq_true, Bool.not_eq_false', List.all_eq_true] at hvalid
          exact h ⟨works_iff.mpr ⟨by simpa using hresolves, by simpa using hready, hstores.1⟩, hvalid, hstores.2⟩

theorem filled_limitRows {apiKeyPk first : ℤ} {now : Bytes} {row : LimitRow}
    (hlimits : ∀ limit ∈ limits, limit.limitWindow ≠ []) (hrow : row ∈ limitRows apiKeyPk now first limits) :
    row.filled 4 = row := by
  induction limits generalizing first with
  | nil => cases hrow
  | cons limit limits ih =>
    obtain ⟨hlimit, hrest⟩ := List.forall_mem_cons.mp hlimits
    obtain rfl | hrow := List.mem_cons.mp hrow
    · rw [LimitRow.filled_eq_self_iff]
      simp [missingText, hlimit]
    · exact ih hrest hrow

theorem filled_withLimits (hfilled : t.Filled) (apiKeyPk : {pk : ℤ // pk ≤ t.keySequence})
    (hlimits : ∀ limit ∈ limits, limit.limitWindow ≠ []) (now : Bytes) : (t.withLimits apiKeyPk limits now).Filled := by
  obtain ⟨hkeys, hrows⟩ := filled_iff_rows.mp hfilled
  refine filled_iff_rows.mpr ⟨hkeys, fun row hrow => ?_⟩
  obtain hrow | hrow := List.mem_append.mp hrow
  · exact hrows row (List.mem_of_mem_filter hrow)
  · exact filled_limitRows hlimits hrow

theorem withLimits_eq_self_iff (t : Tables) (apiKeyPk : {pk : ℤ // pk ≤ t.keySequence}) (now : Bytes) :
    t.withLimits apiKeyPk limits now = t ↔ limits = [] ∧ t.loadLimits apiKeyPk = [] := by
  constructor
  · intro hsame
    have hsequence : t.limitSequence + limits.length = t.limitSequence := congrArg Tables.limitSequence hsame
    have hnil : limits = [] := List.length_eq_zero_iff.mp (by omega)
    have hload := @loadLimits_withLimits limits now t apiKeyPk apiKeyPk
    rw [hsame, if_pos rfl, hnil] at hload
    exact ⟨hnil, hload⟩
  · rintro ⟨rfl, hload⟩
    have hkept : (t.limits.filter fun limit => limit.apiKeyId ≠ apiKeyPk.1) = t.limits := by
      rw [Tables.loadLimits, List.map_eq_nil_iff, List.filter_eq_nil_iff] at hload
      apply List.filter_eq_self.mpr
      simpa using hload
    unfold Tables.withLimits
    simp only [hkept, limitRows, List.append_nil, List.length_nil, Nat.cast_zero, add_zero]

section Updating

variable {update current : Access} {patch : ApiKeyPatch}

theorem updateApiKey_of_works (hfilled : t.Filled) (hresolves : update.resolves = true) (hruns : update.runs = true)
    (hcurrent : current.works = true) (hkeyId : keyId ≠ []) (hrow : t.row? keyId = some row)
    (hpatch : patch.keyHash = none) (reload : Access) (now : Bytes) :
    ∃ h, t.updateApiKey update current reload keyId patch now =
      (t.patchKey keyId (t.record current.limitsRead row) patch now h).getApiKeyByKeyId reload keyId := by
  have hnodup := @nodup_patchedKeys t row keyId now (t.record current.limitsRead row) patch hrow rfl hpatch
  refine ⟨hnodup, ?_⟩
  rw [Tables.updateApiKey, if_neg (by simp [hresolves]), getApiKeyByKeyId_eq, hfilled, if_pos ⟨hcurrent, hkeyId⟩, hrow]
  exact dif_pos ⟨hruns, hnodup⟩

theorem updateApiKey_of_not_works (hfilled : t.Filled)
    (h : ¬ (update.resolves = true ∧ current.works = true ∧ update.runs = true)) (reload : Access) (keyId now : Bytes) :
    t.updateApiKey update current reload keyId patch now = (t, none) := by
  rw [Tables.updateApiKey, getApiKeyByKeyId_eq, hfilled]
  by_cases hresolves : update.resolves = false
  · exact if_pos hresolves
  · rw [if_neg hresolves]
    by_cases hfound : current.works = true ∧ keyId ≠ []
    · rw [if_pos hfound]
      cases t.row? keyId with
      | none => rfl
      | some row => exact dif_neg fun hboth => h ⟨by simpa using hresolves, hfound.1, hboth.1⟩
    · rw [if_neg hfound]

end Updating

end Calls

end Tightrope.Db.ApiKeyRepo
