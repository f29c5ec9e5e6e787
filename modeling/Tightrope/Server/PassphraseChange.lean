import Mathlib.Logic.Function.Basic
import Tightrope.Auth.Crypto.TokenStore
import Tightrope.Library.Fallible
import Tightrope.Library.Runs

namespace Tightrope.Server

open Auth.Crypto Bytes Tightrope.Core Fallible Runs

inductive TokenColumn where
  | access
  | refresh
  | idToken
  deriving DecidableEq, Repr

structure Stamped where
  value : Bytes
  token : Bytes
  deriving DecidableEq, Repr

structure TokenRow where
  id : ℤ
  tokens : TokenColumn → Option Stamped := fun _ => none

structure Prepared where
  column : TokenColumn
  stamped : Stamped
  under : Bytes
  deriving DecidableEq, Repr

structure DatabasePassphraseChangeResponse where
  status : ℕ
  code : Bytes := []
  message : Bytes := []
  deriving DecidableEq, Repr

inductive ChangePhase where
  | idle
  | rotating (current next : Bytes)
  | rekeying (current next : Bytes)
  | rollingBack (current next error : Bytes)
  | settingSession (next : Bytes)
  | configuringTokens (next : Bytes)
  | finished (response : DatabasePassphraseChangeResponse)
  deriving DecidableEq, Repr

structure ChangeInput where
  begins : Bool := true
  nonces : ℤ → TokenColumn → Bytes := fun _ _ => []
  rekeyError : Option Bytes := none

structure Vault where
  rows : List TokenRow
  sessionPassphrase : Bytes
  configuredPassphrase : Bytes
  databasePassphrase : Bytes
  phase : ChangePhase := .idle
  passphraseBefore : Bytes := []
  writers : ℕ → List Prepared := fun _ => []

inductive VaultAction where
  | start (current next : Bytes) (opens : Bool)
  | change (input : ChangeInput)
  | encrypt (writer : ℕ) (column : TokenColumn) (token nonce : Bytes)
  | read (writer : ℕ) (accountId : ℤ) (column : TokenColumn)
  | readTrimmed (writer : ℕ) (accountId : ℤ)
  | migrate (writer : ℕ) (column : TokenColumn) (nonce : Bytes)
  | update (writer : ℕ) (accountId : ℤ)
  | insert (writer : ℕ) (accountId : ℤ)

section Responses

def response (status : ℕ) (code message : String) : DatabasePassphraseChangeResponse :=
  { status := status, code := ofString code, message := ofString message }

def missingCurrentPassphrase : DatabasePassphraseChangeResponse :=
  response 400 "missing_current_passphrase" "Current passphrase is required"

def invalidNextPassphrase : DatabasePassphraseChangeResponse :=
  response 400 "invalid_next_passphrase" "New passphrase must be at least 8 characters"

def passphraseUnchanged : DatabasePassphraseChangeResponse :=
  response 400 "passphrase_unchanged" "New passphrase must differ from the current passphrase"

def invalidCurrentPassphrase : DatabasePassphraseChangeResponse :=
  response 401 "invalid_current_passphrase" "Current passphrase is incorrect"

def databaseUnavailable : DatabasePassphraseChangeResponse := response 500 "db_unavailable" "Database unavailable"

def tokenRotationFailed : DatabasePassphraseChangeResponse :=
  response 500 "token_rotation_failed" "Failed to rotate account token encryption for new database passphrase"

def databaseRekeyFailed (error : Bytes) : DatabasePassphraseChangeResponse :=
  { status := 500
    code := ofString "database_rekey_failed"
    message := if error = [] then ofString "Failed to rekey SQLCipher database" else error }

end Responses

section Rotation

variable (cipher : TokenCipher)

def rotateToken (current next nonce storedValue : Bytes) : Option Bytes :=
  if storedValue = [] then some storedValue
  else
    let plaintext :=
      if tokenStorageValueIsEncrypted storedValue then decryptTokenFromStorageWithPassphrase cipher storedValue current
      else some storedValue
    plaintext.bind fun plaintext => encryptTokenForStorageWithPassphrase cipher nonce plaintext next

def rotateColumn (current next nonce : Bytes) : Option Stamped → Option (Option Stamped)
  | none => some none
  | some stamped => (rotateToken cipher current next nonce stamped.value).map fun value =>
    some { stamped with value := value }

def rotateRow (current next : Bytes) (nonces : ℤ → TokenColumn → Bytes) (row : TokenRow) : Option TokenRow := do
  let access ← rotateColumn cipher current next (nonces row.id .access) (row.tokens .access)
  let refresh ← rotateColumn cipher current next (nonces row.id .refresh) (row.tokens .refresh)
  let idToken ← rotateColumn cipher current next (nonces row.id .idToken) (row.tokens .idToken)
  return { row with tokens := fun
    | .access => access
    | .refresh => refresh
    | .idToken => idToken }

def rotateAccountTokenStoragePassphrase (rows : List TokenRow) (current next : Bytes) (input : ChangeInput) :
    Option (List TokenRow) :=
  if current = [] ∨ next = [] ∨ !input.begins then none else rows.mapM (rotateRow cipher current next input.nonces)

end Rotation

section Step

variable (cipher : TokenCipher)

def sessionPassphraseMatches (vault : Vault) (candidate : Bytes) : Bool :=
  vault.sessionPassphrase ≠ [] && vault.sessionPassphrase = candidate

def isValidDatabasePassphrase (value : Bytes) : Bool := 8 ≤ value.length

def startChange (vault : Vault) (current next : Bytes) (opens : Bool) : ChangePhase :=
  if current = [] then .finished missingCurrentPassphrase
  else if !isValidDatabasePassphrase next then .finished invalidNextPassphrase
  else if current = next then .finished passphraseUnchanged
  else if !sessionPassphraseMatches vault current then .finished invalidCurrentPassphrase
  else if !opens then .finished databaseUnavailable
  else .rotating current next

def changeStep (vault : Vault) (input : ChangeInput) : Vault :=
  match vault.phase with
  | .rotating current next =>
    match rotateAccountTokenStoragePassphrase cipher vault.rows current next input with
    | none => { vault with phase := .finished tokenRotationFailed }
    | some rows => { vault with rows := rows, phase := .rekeying current next }
  | .rekeying current next =>
    match input.rekeyError with
    | some error => { vault with phase := .rollingBack current next error }
    | none => { vault with databasePassphrase := next, phase := .settingSession next }
  | .rollingBack current next error =>
    { vault with
      rows := (rotateAccountTokenStoragePassphrase cipher vault.rows next current input).getD vault.rows
      phase := .finished (databaseRekeyFailed error) }
  | .settingSession next => { vault with sessionPassphrase := next, phase := .configuringTokens next }
  | .configuringTokens next => { vault with configuredPassphrase := next, phase := .finished { status := 200 } }
  | .idle => vault
  | .finished _ => vault

def atRest : ChangePhase → Bool
  | .idle => true
  | .finished _ => true
  | _ => false

def storedUnder (vault : Vault) : Bytes :=
  match vault.phase with
  | .rekeying _ next => next
  | .rollingBack _ next _ => next
  | .settingSession next => next
  | .configuringTokens next => next
  | _ => vault.sessionPassphrase

def tokenKey (vault : Vault) : SessionKey := configuredKey cipher vault.configuredPassphrase

def Prepared.storeIn (tokens : TokenColumn → Option Stamped) (prepared : Prepared) : TokenColumn → Option Stamped :=
  Function.update tokens prepared.column (some prepared.stamped)

def storeColumns (prepared : List Prepared) (row : TokenRow) : TokenRow :=
  { row with tokens := prepared.foldl Prepared.storeIn row.tokens }

def migratePrepared (key : SessionKey) (under nonce : Bytes) (prepared : Prepared) : Option Prepared :=
  (migratePlaintextTokenForStorage cipher key nonce prepared.stamped.value).map fun migrated =>
    if migrated.2 then ⟨prepared.column, ⟨migrated.1, prepared.stamped.token⟩, under⟩ else prepared

def Vault.prepare (vault : Vault) (writer : ℕ) (prepared : List Prepared) : Vault :=
  { vault with writers := Function.update vault.writers writer prepared }

def vaultStep (vault : Vault) : VaultAction → Vault
  | .start current next opens =>
    if atRest vault.phase then
      { vault with phase := startChange vault current next opens, passphraseBefore := vault.sessionPassphrase }
    else vault
  | .change input => changeStep cipher vault input
  | .encrypt writer column token nonce =>
    match encryptTokenForStorage cipher (tokenKey cipher vault) nonce token with
    | none => vault.prepare writer []
    | some value =>
      vault.prepare writer (vault.writers writer ++ [⟨column, ⟨value, token⟩, vault.configuredPassphrase⟩])
  | .read writer accountId column =>
    match (vault.rows.find? fun row => row.id = accountId).bind fun row => row.tokens column with
    | none => vault
    | some stamped => vault.prepare writer (vault.writers writer ++ [⟨column, stamped, storedUnder vault⟩])
  | .readTrimmed writer accountId =>
    -- What is read trimmed is written back only by a migration, which an empty or an encrypted value does not need.
    match (vault.rows.find? fun row => row.id = accountId).bind fun row => row.tokens .access with
    | none => vault
    | some stamped =>
      if trimAscii stamped.value = [] ∨ tokenStorageValueIsEncrypted (trimAscii stamped.value) then vault
      else
        let trimmed : Stamped := ⟨trimAscii stamped.value, trimAscii stamped.token⟩
        vault.prepare writer (vault.writers writer ++ [⟨.access, trimmed, storedUnder vault⟩])
  | .migrate writer column nonce =>
    let migrated := (vault.writers writer).mapM fun prepared =>
      if prepared.column = column then
        migratePrepared cipher (tokenKey cipher vault) vault.configuredPassphrase nonce prepared
      else some prepared
    vault.prepare writer (migrated.getD [])
  | .update writer accountId =>
    { vault.prepare writer [] with
      rows := vault.rows.map fun row => if row.id = accountId then storeColumns (vault.writers writer) row else row }
  | .insert writer accountId =>
    { vault.prepare writer [] with
      rows := vault.rows ++ [storeColumns (vault.writers writer) { id := accountId }] }

end Step

section Readable

variable (cipher : TokenCipher)

def Readable (passphrase : Bytes) (stamped : Stamped) : Prop :=
  decryptTokenFromStorageWithPassphrase cipher stamped.value passphrase = some stamped.token

def RowsReadable (passphrase : Bytes) (rows : List TokenRow) : Prop :=
  ∀ row ∈ rows, ∀ column stamped, row.tokens column = some stamped → Readable cipher passphrase stamped

/-- What is written was read or encrypted under the passphrase that the stored tokens are under, and a database that
refuses to be rekeyed lets the tokens be rotated back. -/
def CommitsInTime (vault : Vault) : VaultAction → Prop
  | .update writer _ => ∀ prepared ∈ vault.writers writer,
      tokenStorageValueIsEncrypted prepared.stamped.value = true → prepared.under = storedUnder vault
  | .insert writer _ => ∀ prepared ∈ vault.writers writer,
      tokenStorageValueIsEncrypted prepared.stamped.value = true → prepared.under = storedUnder vault
  | .change input => ∀ current next error, vault.phase = .rollingBack current next error → input.begins = true
  | _ => True

/-- No change is under way, the key of the session's passphrase is loaded, and the tokens are readable under it. -/
structure Settled (vault : Vault) : Prop where
  phase : vault.phase = .idle
  session : vault.sessionPassphrase ≠ []
  configured : vault.configuredPassphrase = vault.sessionPassphrase
  database : vault.databasePassphrase = vault.sessionPassphrase
  rows : RowsReadable cipher vault.sessionPassphrase vault.rows
  writers : ∀ writer, vault.writers writer = []

/-- While no change is under way every stored token reads as its last writer meant it, and a change that was refused or
failed has left the passphrases as they were. -/
structure TokensKept (vault : Vault) : Prop where
  tokens : atRest vault.phase = true → ∀ row ∈ vault.rows, ∀ column stamped, row.tokens column = some stamped →
    stamped.value ≠ [] → tokenUnder cipher (tokenKey cipher vault) stamped.value = some stamped.token
  passphrases : ∀ response, vault.phase = .finished response → response.status ≠ 200 →
    vault.sessionPassphrase = vault.passphraseBefore ∧ vault.configuredPassphrase = vault.passphraseBefore ∧
      vault.databasePassphrase = vault.passphraseBefore

def StillCurrent (vault : Vault) (current next : Bytes) : Prop :=
  next ≠ [] ∧ vault.sessionPassphrase = current ∧ vault.configuredPassphrase = current ∧
    vault.databasePassphrase = current ∧ vault.passphraseBefore = current

def PassphrasesFit (vault : Vault) : ChangePhase → Prop
  | .idle => vault.configuredPassphrase = vault.sessionPassphrase ∧ vault.databasePassphrase = vault.sessionPassphrase
  | .rotating current next => StillCurrent vault current next
  | .rekeying current next => StillCurrent vault current next
  | .rollingBack current next _ => StillCurrent vault current next
  | .settingSession next => next ≠ [] ∧ vault.databasePassphrase = next
  | .configuringTokens next => next ≠ [] ∧ vault.sessionPassphrase = next ∧ vault.databasePassphrase = next
  | .finished response => vault.configuredPassphrase = vault.sessionPassphrase ∧
      vault.databasePassphrase = vault.sessionPassphrase ∧
      (response.status ≠ 200 → vault.sessionPassphrase = vault.passphraseBefore)

structure Secure (vault : Vault) : Prop where
  session : vault.sessionPassphrase ≠ []
  configured : vault.configuredPassphrase ≠ []
  passphrases : PassphrasesFit vault vault.phase
  rows : RowsReadable cipher (storedUnder vault) vault.rows
  writers : ∀ writer, ∀ prepared ∈ vault.writers writer, Readable cipher prepared.under prepared.stamped

end Readable

section Rotate

variable {cipher : TokenCipher} (hcipher : cipher.RoundTrips)
  (htotal : ∀ token key nonce, ∃ encrypted, cipher.encryptToken token key nonce = some encrypted)

include hcipher in
theorem readable_encrypt {passphrase nonce token value : Bytes}
    (hvalue : encryptUnder cipher (cipher.deriveSessionKey passphrase) nonce token = some value)
    (hne : passphrase ≠ []) :
    Readable cipher passphrase ⟨value, token⟩ := by
  obtain ⟨hsealed, hdecrypts⟩ := decryptUnder_encryptUnder hcipher hvalue
  unfold Readable decryptTokenFromStorageWithPassphrase
  rw [if_pos hsealed, if_neg hne, hdecrypts]

theorem readable_plain {passphrase passphrase' : Bytes} {stamped : Stamped}
    (hplain : tokenStorageValueIsEncrypted stamped.value = false) (h : Readable cipher passphrase stamped) :
    Readable cipher passphrase' stamped := by
  unfold Readable decryptTokenFromStorageWithPassphrase at h ⊢
  rwa [hplain] at h ⊢

theorem encrypted_trimAscii {value : Bytes} (h : tokenStorageValueIsEncrypted value = true) :
    tokenStorageValueIsEncrypted (trimAscii value) = true := by
  obtain ⟨rest, rfl⟩ := List.isPrefixOf_iff_prefix.mp h
  have hstart : (kCipherPrefix ++ rest).dropWhile isSpace = kCipherPrefix ++ rest := rfl
  rw [trimAscii, hstart]
  apply List.isPrefixOf_iff_prefix.mpr
  induction rest using List.reverseRecOn with
  | nil => exact (by decide : kCipherPrefix <+: (kCipherPrefix ++ []).rdropWhile isSpace)
  | append_singleton rest c ih =>
    rw [← List.append_assoc]
    by_cases hc : isSpace c = true
    · rw [List.rdropWhile_concat_pos _ _ _ hc]
      exact ih (List.isPrefixOf_iff_prefix.mpr (List.prefix_append _ _)) rfl
    · rw [List.rdropWhile_concat_neg _ _ _ hc, List.append_assoc]
      exact List.prefix_append _ _

theorem readable_trimmed {passphrase passphrase' : Bytes} {stamped : Stamped}
    (hplain : ¬ tokenStorageValueIsEncrypted (trimAscii stamped.value) = true)
    (h : Readable cipher passphrase stamped) :
    Readable cipher passphrase' ⟨trimAscii stamped.value, trimAscii stamped.token⟩ := by
  have hvalue : ¬ tokenStorageValueIsEncrypted stamped.value = true := fun henc => hplain (encrypted_trimAscii henc)
  unfold Readable decryptTokenFromStorageWithPassphrase at h ⊢
  rw [if_neg hvalue] at h
  rw [if_neg hplain, Option.some.inj h]

include hcipher htotal

theorem rotateToken_readable {current next : Bytes} (nonce : Bytes) (hnext : next ≠ []) {stamped : Stamped}
    (h : Readable cipher current stamped) :
    ∃ value, rotateToken cipher current next nonce stamped.value = some value ∧
      Readable cipher next { stamped with value := value } := by
  by_cases hempty : stamped.value = []
  · refine ⟨[], by rw [rotateToken, if_pos hempty, hempty], ?_⟩
    have hsame : ({ stamped with value := [] } : Stamped) = stamped := by rw [← hempty]
    rw [hsame]
    exact readable_plain (by rw [hempty]; rfl) h
  · have hplaintext : (if tokenStorageValueIsEncrypted stamped.value then
        decryptTokenFromStorageWithPassphrase cipher stamped.value current else some stamped.value) =
        some stamped.token := by
      split_ifs with hencrypted
      · exact h
      · unfold Readable decryptTokenFromStorageWithPassphrase at h
        rwa [if_neg hencrypted] at h
    obtain ⟨encrypted, hencrypted⟩ := htotal stamped.token (cipher.deriveSessionKey next) nonce
    have hvalue : encryptUnder cipher (cipher.deriveSessionKey next) nonce stamped.token =
        some (kCipherPrefix ++ encrypted) := by rw [encryptUnder, hencrypted, Option.map_some]
    refine ⟨kCipherPrefix ++ encrypted, ?_, readable_encrypt hcipher hvalue hnext⟩
    rw [rotateToken, if_neg hempty]
    simp only [hplaintext, Option.bind_some]
    rw [encryptTokenForStorageWithPassphrase, if_neg hnext, hvalue]

theorem rotateColumn_readable {current next : Bytes} (nonce : Bytes) (hnext : next ≠ []) {column : Option Stamped}
    (h : ∀ stamped, column = some stamped → Readable cipher current stamped) :
    ∃ column', rotateColumn cipher current next nonce column = some column' ∧
      ∀ stamped, column' = some stamped → Readable cipher next stamped := by
  cases column with
  | none => exact ⟨none, rfl, nofun⟩
  | some stamped =>
    obtain ⟨value, hvalue, hread⟩ := rotateToken_readable hcipher htotal nonce hnext (h stamped rfl)
    refine ⟨some { stamped with value := value }, by rw [rotateColumn, hvalue, Option.map_some], ?_⟩
    intro stamped' hstamped
    cases hstamped
    exact hread

theorem rotateRow_readable {current next : Bytes} (nonces : ℤ → TokenColumn → Bytes) (hnext : next ≠ [])
    {row : TokenRow}
    (h : ∀ column stamped, row.tokens column = some stamped → Readable cipher current stamped) :
    ∃ row', rotateRow cipher current next nonces row = some row' ∧
      ∀ column stamped, row'.tokens column = some stamped → Readable cipher next stamped := by
  obtain ⟨access, haccess, hreadAccess⟩ :=
    rotateColumn_readable hcipher htotal (nonces row.id .access) hnext (h .access)
  obtain ⟨refresh, hrefresh, hreadRefresh⟩ :=
    rotateColumn_readable hcipher htotal (nonces row.id .refresh) hnext (h .refresh)
  obtain ⟨idToken, hidToken, hreadIdToken⟩ :=
    rotateColumn_readable hcipher htotal (nonces row.id .idToken) hnext (h .idToken)
  refine ⟨_, by simp only [rotateRow, haccess, hrefresh, hidToken, Option.bind_eq_bind, Option.bind_some]; rfl, ?_⟩
  intro column stamped hstamped
  cases column with
  | access => exact hreadAccess stamped hstamped
  | refresh => exact hreadRefresh stamped hstamped
  | idToken => exact hreadIdToken stamped hstamped

theorem rotate_readable {current next : Bytes} {input : ChangeInput} (hcurrent : current ≠ []) (hnext : next ≠ [])
    (hbegins : input.begins = true) {rows : List TokenRow} (h : RowsReadable cipher current rows) :
    ∃ rows', rotateAccountTokenStoragePassphrase cipher rows current next input = some rows' ∧
      RowsReadable cipher next rows' := by
  rw [rotateAccountTokenStoragePassphrase, if_neg (by simp [hcurrent, hnext, hbegins])]
  induction rows with
  | nil => exact ⟨[], rfl, nofun⟩
  | cons row rows ih =>
    obtain ⟨row', hrow, hread⟩ := rotateRow_readable hcipher htotal input.nonces hnext (h row List.mem_cons_self)
    obtain ⟨rows', hrows, hreads⟩ := ih fun other hother => h other (List.mem_cons_of_mem _ hother)
    refine ⟨row' :: rows', by simp [List.mapM_cons, hrow, hrows], ?_⟩
    intro other hother
    obtain rfl | hother := List.mem_cons.mp hother
    · exact hread
    · exact hreads other hother

end Rotate

section Writers

variable {cipher : TokenCipher}

theorem storeColumns_tokens {prepared : List Prepared} {row : TokenRow} {column : TokenColumn} {stamped : Stamped}
    (h : (storeColumns prepared row).tokens column = some stamped) :
    (∃ ready ∈ prepared, ready.stamped = stamped) ∨ row.tokens column = some stamped := by
  change prepared.foldl Prepared.storeIn row.tokens column = some stamped at h
  generalize row.tokens = tokens at h ⊢
  induction prepared generalizing tokens with
  | nil => exact .inr h
  | cons ready prepared ih =>
    obtain ⟨other, hother, hstamped⟩ | hold := ih (ready.storeIn tokens) h
    · exact .inl ⟨other, List.mem_cons_of_mem _ hother, hstamped⟩
    · by_cases hcolumn : column = ready.column
      · rw [Prepared.storeIn, hcolumn, Function.update_self] at hold
        exact .inl ⟨ready, List.mem_cons_self, Option.some.inj hold⟩
      · rw [Prepared.storeIn, Function.update_of_ne hcolumn] at hold
        exact .inr hold

theorem storeColumns_readable {prepared : List Prepared} {row : TokenRow} {passphrase : Bytes}
    (hprepared : ∀ ready ∈ prepared, Readable cipher ready.under ready.stamped)
    (hunder : ∀ ready ∈ prepared, tokenStorageValueIsEncrypted ready.stamped.value = true → ready.under = passphrase)
    (hrow : ∀ column stamped, row.tokens column = some stamped → Readable cipher passphrase stamped) :
    ∀ column stamped, (storeColumns prepared row).tokens column = some stamped →
      Readable cipher passphrase stamped := by
  intro column stamped h
  obtain ⟨ready, hready, rfl⟩ | hold := storeColumns_tokens h
  · cases hencrypted : tokenStorageValueIsEncrypted ready.stamped.value with
    | true => exact hunder ready hready hencrypted ▸ hprepared ready hready
    | false => exact readable_plain hencrypted (hprepared ready hready)
  · exact hrow column stamped hold

theorem migratePrepared_readable (hcipher : cipher.RoundTrips) {passphrase nonce : Bytes} (hne : passphrase ≠ [])
    {ready ready' : Prepared} (hready : Readable cipher ready.under ready.stamped)
    (h : migratePrepared cipher (configuredKey cipher passphrase) passphrase nonce ready = some ready') :
    Readable cipher ready'.under ready'.stamped := by
  obtain ⟨migrated, hmigrated, rfl⟩ := Option.map_eq_some_iff.mp h
  unfold migratePlaintextTokenForStorage at hmigrated
  split_ifs at hmigrated with hkept
  · cases hmigrated
    exact hready
  · obtain ⟨encrypted, hencrypted, rfl⟩ := Option.map_eq_some_iff.mp hmigrated
    split_ifs
    · rw [configuredKey, if_neg hne] at hencrypted
      have htoken : ready.stamped.value = ready.stamped.token := by
        unfold Readable decryptTokenFromStorageWithPassphrase at hready
        rw [if_neg (not_or.mp hkept).2] at hready
        exact Option.some.inj hready
      rw [htoken] at hencrypted
      exact readable_encrypt hcipher hencrypted hne
    · exact hready

end Writers

section Invariant

variable {cipher : TokenCipher} {vault : Vault}

theorem secure_prepare (h : Secure cipher vault) (writer : ℕ) {prepared : List Prepared}
    (hprepared : ∀ ready ∈ prepared, Readable cipher ready.under ready.stamped) :
    Secure cipher (vault.prepare writer prepared) where
  session := h.session
  configured := h.configured
  passphrases := h.passphrases
  rows := h.rows
  writers := by
    intro other ready hready
    change ready ∈ Function.update vault.writers writer prepared other at hready
    by_cases hother : other = writer
    · rw [hother, Function.update_self] at hready
      exact hprepared ready hready
    · rw [Function.update_of_ne hother] at hready
      exact h.writers other ready hready

theorem startChange_cases (current next : Bytes) (opens : Bool) :
    (∃ refused, startChange vault current next opens = .finished refused ∧ refused.status ≠ 200) ∨
      startChange vault current next opens = .rotating current next ∧ vault.sessionPassphrase = current ∧
        next ≠ [] := by
  unfold startChange
  split_ifs with hmissing hinvalid hunchanged hwrong
  · exact .inl ⟨_, rfl, by decide⟩
  · exact .inl ⟨_, rfl, by decide⟩
  · exact .inl ⟨_, rfl, by decide⟩
  · exact .inl ⟨_, rfl, by decide⟩
  · exact .inl ⟨_, rfl, by decide⟩
  · right
    simp only [sessionPassphraseMatches, Bool.not_eq_true', Bool.not_eq_false, Bool.and_eq_true,
      decide_eq_true_eq] at hwrong
    refine ⟨rfl, hwrong.2, ?_⟩
    rintro rfl
    exact hinvalid rfl

theorem secure_start (current next : Bytes) (opens : Bool) (h : Secure cipher vault) :
    Secure cipher (vaultStep cipher vault (.start current next opens)) := by
  simp only [vaultStep]
  split_ifs with hrest
  · obtain ⟨hsame, hstored⟩ : (vault.configuredPassphrase = vault.sessionPassphrase ∧
        vault.databasePassphrase = vault.sessionPassphrase) ∧ storedUnder vault = vault.sessionPassphrase := by
      have hfit := h.passphrases
      cases hphase : vault.phase with
      | idle =>
        rw [hphase] at hfit
        exact ⟨hfit, by simp [storedUnder, hphase]⟩
      | finished response =>
        rw [hphase] at hfit
        exact ⟨⟨hfit.1, hfit.2.1⟩, by simp [storedUnder, hphase]⟩
      | _ =>
        rw [hphase] at hrest
        cases hrest
    have hrows := h.rows
    rw [hstored] at hrows
    obtain ⟨refused, hrefused, hstatus⟩ | ⟨hrotating, hcurrent, hnext⟩ := @startChange_cases vault current next opens
    · rw [hrefused]
      exact ⟨h.session, h.configured, ⟨hsame.1, hsame.2, fun _ => rfl⟩, hrows, h.writers⟩
    · rw [hrotating]
      exact ⟨h.session, h.configured, ⟨hnext, hcurrent, hsame.1.trans hcurrent, hsame.2.trans hcurrent, hcurrent⟩,
        hrows,
        h.writers⟩
  · exact h

theorem secure_change (hcipher : cipher.RoundTrips)
    (htotal : ∀ token key nonce, ∃ encrypted, cipher.encryptToken token key nonce = some encrypted)
    {input : ChangeInput}
    (h : Secure cipher vault) (hinput : CommitsInTime vault (.change input)) :
    Secure cipher (changeStep cipher vault input) := by
  have hfit := h.passphrases
  have hrows := h.rows
  unfold changeStep
  cases hphase : vault.phase with
  | idle => exact h
  | finished response => exact h
  | rotating current next =>
    simp only [storedUnder, hphase] at hfit hrows
    obtain ⟨hnext, hsession, hconfigured, hdatabase, hbefore⟩ := hfit
    cases hrotated : rotateAccountTokenStoragePassphrase cipher vault.rows current next input with
    | none =>
      simp only [hrotated]
      exact ⟨h.session, h.configured, ⟨hconfigured.trans hsession.symm, hdatabase.trans hsession.symm,
        fun _ => hsession.trans hbefore.symm⟩, hrows, h.writers⟩
    | some rows =>
      simp only [hrotated]
      have hbegins : input.begins = true := by
        by_contra hrefused
        simp [rotateAccountTokenStoragePassphrase, hrefused] at hrotated
      obtain ⟨rows', hrows', hread⟩ := rotate_readable hcipher htotal (hsession ▸ h.session) hnext hbegins
        (hsession ▸ hrows)
      cases hrotated.symm.trans hrows'
      exact ⟨h.session, h.configured, ⟨hnext, hsession, hconfigured, hdatabase, hbefore⟩, hread, h.writers⟩
  | rekeying current next =>
    simp only [storedUnder, hphase] at hfit hrows
    obtain ⟨hnext, hsession, hconfigured, hdatabase, hbefore⟩ := hfit
    cases hrekey : input.rekeyError with
    | some error =>
      simp only
      exact ⟨h.session, h.configured, ⟨hnext, hsession, hconfigured, hdatabase, hbefore⟩, hrows, h.writers⟩
    | none =>
      simp only
      exact ⟨h.session, h.configured, ⟨hnext, rfl⟩, hrows, h.writers⟩
  | rollingBack current next error =>
    simp only [storedUnder, hphase] at hfit hrows
    obtain ⟨hnext, hsession, hconfigured, hdatabase, hbefore⟩ := hfit
    obtain ⟨rows', hrows', hread⟩ :=
      rotate_readable hcipher htotal hnext (hsession ▸ h.session) (hinput current next error hphase) hrows
    simp only [hrows', Option.getD_some]
    exact ⟨h.session, h.configured, ⟨hconfigured.trans hsession.symm, hdatabase.trans hsession.symm,
      fun _ => hsession.trans hbefore.symm⟩, hsession.symm ▸ hread, h.writers⟩
  | settingSession next =>
    simp only [storedUnder, hphase] at hfit hrows
    exact ⟨hfit.1, h.configured, ⟨hfit.1, rfl, hfit.2⟩, hrows, h.writers⟩
  | configuringTokens next =>
    simp only [storedUnder, hphase] at hfit hrows
    obtain ⟨hnext, hsession, hdatabase⟩ := hfit
    exact ⟨h.session, hnext, ⟨hsession.symm, hdatabase.trans hsession.symm, fun hstatus => absurd rfl hstatus⟩,
      hsession.symm ▸ hrows, h.writers⟩

theorem secure_hold (h : Secure cipher vault) (writer : ℕ) {ready : Prepared}
    (hready : Readable cipher ready.under ready.stamped) :
    Secure cipher (vault.prepare writer (vault.writers writer ++ [ready])) :=
  secure_prepare h writer (List.forall_mem_append.mpr ⟨h.writers writer, List.forall_mem_singleton.mpr hready⟩)

theorem readable_stored (h : Secure cipher vault) {accountId : ℤ} {column : TokenColumn} {stamped : Stamped}
    (hstamped : ((vault.rows.find? fun row => row.id = accountId).bind fun row => row.tokens column) = some stamped) :
    Readable cipher (storedUnder vault) stamped := by
  obtain ⟨row, hrow, hcolumn⟩ := Option.bind_eq_some_iff.mp hstamped
  exact h.rows row (List.mem_of_find?_eq_some hrow) column stamped hcolumn

theorem secure_migrate (hcipher : cipher.RoundTrips) (h : Secure cipher vault) (writer : ℕ) (column : TokenColumn)
    (nonce : Bytes) : Secure cipher (vaultStep cipher vault (.migrate writer column nonce)) := by
  apply secure_prepare h writer
  intro ready hready
  cases hmigrated : (vault.writers writer).mapM fun prepared =>
      if prepared.column = column then
        migratePrepared cipher (tokenKey cipher vault) vault.configuredPassphrase nonce prepared
      else some prepared with
  | none =>
    rw [hmigrated] at hready
    cases hready
  | some migrated =>
    rw [hmigrated] at hready
    obtain ⟨old, hold, hstep⟩ := mem_of_mapM hmigrated hready
    split_ifs at hstep
    · exact migratePrepared_readable hcipher h.configured (h.writers writer old hold) hstep
    · obtain rfl := Option.some.inj hstep
      exact h.writers writer old hold

theorem secure_commit (h : Secure cipher vault) (writer : ℕ) {rows : List TokenRow}
    (hrows : RowsReadable cipher (storedUnder vault) rows) :
    Secure cipher { vault.prepare writer [] with rows := rows } := by
  have hcleared : Secure cipher (vault.prepare writer []) := secure_prepare h writer nofun
  exact ⟨hcleared.session, hcleared.configured, hcleared.passphrases, hrows, hcleared.writers⟩

theorem secure_step (hcipher : cipher.RoundTrips)
    (htotal : ∀ token key nonce, ∃ encrypted, cipher.encryptToken token key nonce = some encrypted)
    {action : VaultAction}
    (h : Secure cipher vault) (haction : CommitsInTime vault action) :
    Secure cipher (vaultStep cipher vault action) := by
  cases action with
  | start current next opens => exact secure_start current next opens h
  | change input => exact secure_change hcipher htotal h haction
  | encrypt writer column token nonce =>
    simp only [vaultStep]
    split
    · exact secure_prepare h writer nofun
    · rename_i value hvalue
      rw [tokenKey, configuredKey, if_neg h.configured] at hvalue
      exact secure_hold h writer (readable_encrypt hcipher hvalue h.configured)
  | read writer accountId column =>
    simp only [vaultStep]
    split
    · exact h
    · rename_i stamped hstamped
      exact secure_hold h writer (readable_stored h hstamped)
  | readTrimmed writer accountId =>
    simp only [vaultStep]
    split
    · exact h
    · rename_i stamped hstamped
      split_ifs with hskipped
      · exact h
      · exact secure_hold h writer (readable_trimmed (not_or.mp hskipped).2 (readable_stored h hstamped))
  | migrate writer column nonce => exact secure_migrate hcipher h writer column nonce
  | update writer accountId =>
    apply secure_commit h writer
    intro row hrow column stamped hstamped
    obtain ⟨old, hold, rfl⟩ := List.mem_map.mp hrow
    split_ifs at hstamped
    · exact storeColumns_readable (h.writers writer) haction (h.rows old hold) column stamped hstamped
    · exact h.rows old hold column stamped hstamped
  | insert writer accountId =>
    apply secure_commit h writer
    intro row hrow column stamped hstamped
    obtain hrow | hrow := List.mem_append.mp hrow
    · exact h.rows row hrow column stamped hstamped
    · rw [List.mem_singleton.mp hrow] at hstamped
      apply storeColumns_readable (h.writers writer) haction ?_ column stamped hstamped
      intro column stamped hnone
      cases hnone

theorem tokensKept_of_secure (h : Secure cipher vault) : TokensKept cipher vault where
  tokens := by
    intro hrest row hrow column stamped hstamped _
    have hfit := h.passphrases
    have hread := h.rows row hrow column stamped hstamped
    have hconfigured : storedUnder vault = vault.configuredPassphrase := by
      cases hphase : vault.phase with
      | idle =>
        rw [hphase] at hfit
        simp [storedUnder, hphase, hfit.1]
      | finished response =>
        rw [hphase] at hfit
        simp [storedUnder, hphase, hfit.1]
      | _ =>
        rw [hphase] at hrest
        cases hrest
    rw [hconfigured] at hread
    unfold Readable decryptTokenFromStorageWithPassphrase at hread
    rw [if_neg h.configured] at hread
    unfold tokenUnder decryptTokenFromStorage
    rw [tokenKey, configuredKey, if_neg h.configured]
    split_ifs at hread ⊢ with hencrypted
    · exact hread
    · exact hread
  passphrases := by
    intro response hphase hstatus
    have hfit := h.passphrases
    rw [hphase] at hfit
    obtain ⟨hconfigured, hdatabase, hbefore⟩ := hfit
    have hsession := hbefore hstatus
    exact ⟨hsession, hconfigured.trans hsession, hdatabase.trans hsession⟩

theorem secure_of_settled (h : Settled cipher vault) : Secure cipher vault where
  session := h.session
  configured := h.configured ▸ h.session
  passphrases := by
    rw [h.phase]
    exact ⟨h.configured, h.database⟩
  rows := by
    rw [storedUnder, h.phase]
    exact h.rows
  writers := by
    intro writer ready hready
    rw [h.writers writer] at hready
    cases hready

/-- A change of the passphrase orphans no token in the runs in which every token is written while the stored tokens are
under the passphrase that it was prepared under. -/
theorem passphrase_change_keeps_tokens (hcipher : cipher.RoundTrips)
    (htotal : ∀ token key nonce, ∃ encrypted, cipher.encryptToken token key nonce = some encrypted)
    (hsettled : Settled cipher vault) {actions : List VaultAction}
    (hactions : AllSteps (vaultStep cipher) CommitsInTime vault actions) :
    AllStates (vaultStep cipher) (TokensKept cipher) vault actions := by
  apply AllStates.mono (vaultStep cipher) (fun _ => tokensKept_of_secure)
  apply allStates_of_step (vaultStep cipher) ?_ (secure_of_settled hsettled) hactions
  intro vault action h haction
  exact secure_step hcipher htotal h haction

end Invariant

section Calls

def updateAccountTokensCalls (writer : ℕ) (accountId : ℤ) (accessToken refreshToken idToken : Bytes) :
    List VaultAction :=
  [.encrypt writer .access accessToken [], .encrypt writer .refresh refreshToken [],
    .encrypt writer .idToken idToken [], .update writer accountId]

def migratePlaintextAccountTokensCalls (writer : ℕ) (accountId : ℤ) : List VaultAction :=
  [.read writer accountId .access, .read writer accountId .refresh, .read writer accountId .idToken,
    .migrate writer .access [], .migrate writer .refresh [], .migrate writer .idToken [], .update writer accountId]

def accountUsageCredentialsCalls (writer : ℕ) (accountId : ℤ) : List VaultAction :=
  [.readTrimmed writer accountId, .migrate writer .access [], .update writer accountId]

def sealPrefix : Bytes → Bytes
  | [] => [0]
  | b :: key => 1 :: b :: sealPrefix key

def sealingCipher : TokenCipher where
  deriveSessionKey := id
  encryptToken := fun plaintext key _ => some (sealPrefix key ++ plaintext)
  decryptToken := fun stored key =>
    if (sealPrefix key).isPrefixOf stored then some (stored.drop (sealPrefix key).length) else none

theorem sealPrefix_isPrefix_iff {key key' token : Bytes} : sealPrefix key' <+: sealPrefix key ++ token ↔
    key = key' := by
  constructor
  · intro h
    induction key generalizing key' with
    | nil =>
      cases key' with
      | nil => rfl
      | cons b key' => simp [sealPrefix] at h
    | cons b key ih =>
      cases key' with
      | nil => simp [sealPrefix] at h
      | cons b' key' =>
        simp only [sealPrefix, List.cons_append, List.cons_prefix_cons] at h
        rw [h.2.1, ih h.2.2]
  · rintro rfl
    exact List.prefix_append _ _

theorem sealingCipher_decrypts (token key key' nonce : Bytes) :
    (sealingCipher.encryptToken token key nonce).bind (sealingCipher.decryptToken · key') = some token ↔
      key = key' := by
  have hiff : (sealPrefix key').isPrefixOf (sealPrefix key ++ token) = true ↔ key = key' :=
    List.isPrefixOf_iff_prefix.trans sealPrefix_isPrefix_iff
  simp only [sealingCipher, Option.bind_some]
  split_ifs with h
  · obtain rfl := hiff.mp h
    simp
  · simpa using fun heq => h (hiff.mpr heq)

theorem sealingCipher_roundTrips : sealingCipher.RoundTrips where
  decrypts := by
    intro plaintext key nonce encrypted h
    obtain rfl := Option.some.inj h
    refine ⟨?_, (sealingCipher_decrypts plaintext key key nonce).mpr rfl⟩
    cases key <;> exact List.cons_ne_nil _ _

def oldSecret : Bytes := ofString "old-secret"

def newSecret : Bytes := ofString "new-secret"

def plainVault : Vault :=
  { rows := [{ id := 1
               tokens := fun column => if column = .access then some ⟨ofString "a0", ofString "a0"⟩ else none }]
    sessionPassphrase := oldSecret
    configuredPassphrase := oldSecret
    databasePassphrase := oldSecret }

theorem plainVault_settled : Settled sealingCipher plainVault := by
  refine ⟨rfl, by decide, rfl, rfl, ?_, fun _ => rfl⟩
  intro row hrow column stamped hstamped
  rw [List.mem_singleton.mp hrow] at hstamped
  change (if column = .access then some (Stamped.mk (ofString "a0") (ofString "a0")) else none) =
    some stamped at hstamped
  split_ifs at hstamped
  cases hstamped
  rfl

def wholeChange : List VaultAction := .start oldSecret newSecret true :: List.replicate 4 (.change {})

theorem refresh_before_change_is_kept :
    AllStates (vaultStep sealingCipher) (TokensKept sealingCipher) plainVault
      (migratePlaintextAccountTokensCalls 1 1 ++ accountUsageCredentialsCalls 2 1 ++
        updateAccountTokensCalls 0 1 (ofString "a1") (ofString "r1") [] ++ wholeChange) := by
  apply passphrase_change_keeps_tokens sealingCipher_roundTrips (fun _ _ _ => ⟨_, rfl⟩) plainVault_settled
  refine ⟨trivial, trivial, trivial, trivial, trivial, trivial, ?_, trivial, trivial, ?_, trivial, trivial, trivial, ?_,
    trivial, ?_, ?_, ?_, ?_, trivial⟩
  · change ∀ prepared ∈ _, _
    decide
  · change ∀ prepared ∈ _, _
    decide
  · change ∀ prepared ∈ _, _
    decide
  all_goals exact fun _ _ _ _ => rfl

/-- A refresh stores its tokens between the rotation and the switch of the token key. -/
theorem refresh_during_change_is_orphaned :
    (∀ token key key' nonce, (sealingCipher.encryptToken token key nonce).bind (sealingCipher.decryptToken · key') =
        some token ↔ key = key') ∧
      Settled sealingCipher plainVault ∧
      ¬ AllStates (vaultStep sealingCipher) (TokensKept sealingCipher) plainVault
        ([.start oldSecret newSecret true, .change {}] ++
          updateAccountTokensCalls 0 1 (ofString "a1") (ofString "r1") [] ++ List.replicate 3 (.change {})) := by
  refine ⟨sealingCipher_decrypts, plainVault_settled, ?_⟩
  intro h
  have hread := (AllStates.final (vaultStep sealingCipher) h).tokens rfl _ (List.mem_singleton.mpr rfl) .refresh
    ⟨kCipherPrefix ++ (sealPrefix oldSecret ++ ofString "r1"), ofString "r1"⟩ rfl (by decide)
  revert hread
  decide

end Calls

end Tightrope.Server
