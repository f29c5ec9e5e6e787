import Tightrope.Auth.Crypto.TokenStore
import Tightrope.Db.Accounts

namespace Tightrope.Auth.Oauth

open Bytes Tightrope.Core Crypto Db RowTable

structure OAuthTokens where
  accessToken : Bytes
  refreshToken : Bytes
  idToken : Bytes := []
  deriving DecidableEq, Repr

structure OAuthError where
  code : Bytes
  message : Bytes
  deriving DecidableEq, Repr

structure StoredTokenRecord where
  id : ℤ
  refreshToken : Bytes
  idToken : Bytes
  deriving DecidableEq, Repr

structure RefreshAccessTokenResult where
  refreshed : Bool
  errorCode : Bytes := []
  errorMessage : Bytes := []
  deriving DecidableEq, Repr

def refreshFailure (errorCode errorMessage : String) : RefreshAccessTokenResult :=
  { refreshed := false, errorCode := ofString errorCode, errorMessage := ofString errorMessage }

def accountNotFound : RefreshAccessTokenResult :=
  refreshFailure "account_not_found" "Active account tokens were not found"

def persistFailed : RefreshAccessTokenResult :=
  refreshFailure "persist_failed" "Failed to persist refreshed OAuth tokens"

-- `strftime('%s', 'now')` and `datetime('now')`
structure SqlNow where
  seconds : ℤ
  stamp : Bytes
  deriving DecidableEq, Repr

def hasActiveChatgptId (chatgptAccountId : Bytes) (row : Account) : Bool :=
  row.chatgptAccountId = some chatgptAccountId && row.status = active

def recordOf (row : Account) : StoredTokenRecord :=
  ⟨row.id, textOrEmpty row.refreshTokenEncrypted, textOrEmpty row.idTokenEncrypted⟩

def selectActiveAccount (accounts : Accounts) (chatgptAccountId : Bytes) : Option StoredTokenRecord :=
  ((accounts.find? (hasActiveChatgptId (cstr chatgptAccountId))).map recordOf).filter fun record =>
    0 < record.id && !record.refreshToken.isEmpty

section Migrate

variable (cipher : TokenCipher) (key : SessionKey)

def migrateRecord (nonces : ℕ → Bytes) (record : StoredTokenRecord) : Option (StoredTokenRecord × Bool) := do
  let refresh ← migratePlaintextTokenForStorage cipher key (nonces 0) record.refreshToken
  if refresh.1 = [] then none
  else
    let idToken ← migratePlaintextTokenForStorage cipher key (nonces 1) record.idToken
    return (⟨record.id, refresh.1, idToken.1⟩, refresh.2 || idToken.2)

def migratedTokensRow (record : StoredTokenRecord) (stamp : Bytes) (row : Account) : Account :=
  { row with
    refreshTokenEncrypted := some (cstr record.refreshToken)
    idTokenEncrypted := some (cstr record.idToken)
    updatedAt := stamp }

def persistMigratedStoredTokens (accounts : Accounts) (record : StoredTokenRecord) (stamp : Bytes) : Accounts :=
  updateWhere (·.id = record.id) (migratedTokensRow record stamp) accounts

def decryptRecord (record : StoredTokenRecord) : Option StoredTokenRecord := do
  let refresh ← decryptTokenFromStorage cipher key record.refreshToken
  if refresh = [] then none
  else if record.idToken = [] then return ⟨record.id, refresh, []⟩
  else
    let idToken ← decryptTokenFromStorage cipher key record.idToken
    return ⟨record.id, refresh, idToken⟩

end Migrate

section Update

variable (cipher : TokenCipher) (key : SessionKey)

def encryptTokens (nonces : ℕ → Bytes) (tokens : OAuthTokens) (fallbackIdToken : Bytes) : Option OAuthTokens := do
  if tokens.accessToken = [] ∨ tokens.refreshToken = [] then none
  else
    let idToken := if tokens.idToken = [] then fallbackIdToken else tokens.idToken
    let access ← encryptTokenForStorage cipher key (nonces 2) tokens.accessToken
    let refresh ← encryptTokenForStorage cipher key (nonces 3) tokens.refreshToken
    let idToken ← encryptTokenForStorage cipher key (nonces 4) idToken
    return ⟨access, refresh, idToken⟩

def refreshedRow (encrypted : OAuthTokens) (now : SqlNow) (row : Account) : Account :=
  { row with
    accessTokenEncrypted := some (cstr encrypted.accessToken)
    refreshTokenEncrypted := some (cstr encrypted.refreshToken)
    idTokenEncrypted := some (cstr encrypted.idToken)
    lastRefresh := some now.stamp
    tokenRefreshLastSuccessAtMs := some (now.seconds * 1000)
    tokenRefreshNextDueAtMs := some (now.seconds * 1000 + 86400000)
    tokenRefreshNeedsAttention := false
    tokenRefreshLastError := none
    updatedAt := now.stamp
    status := active }

def updateAccountTokens (accounts : Accounts) (accountId : ℤ) (encrypted : OAuthTokens) (now : SqlNow) :
    Accounts × Bool :=
  (updateWhere (·.id = accountId) (refreshedRow encrypted now) accounts, (rowOf Account.id accountId accounts).isSome)

end Update

inductive RefreshPhase where
  | selecting
  | migrating (record : StoredTokenRecord)
  | persisting (record : StoredTokenRecord)
  | decrypting (record : StoredTokenRecord)
  | exchanging (record : StoredTokenRecord)
  | encrypting (record : StoredTokenRecord) (tokens : OAuthTokens)
  | storing (accountId : ℤ) (encrypted : OAuthTokens)
  | finished (result : RefreshAccessTokenResult)
  deriving DecidableEq, Repr

structure RefreshInput where
  nonces : ℕ → Bytes := fun _ => []
  now : SqlNow := ⟨0, []⟩
  provider : Bytes → Except OAuthError OAuthTokens

section Advance

variable (cipher : TokenCipher) (chatgptAccountId : Bytes)

def advance (key : SessionKey) (accounts : Accounts) (input : RefreshInput) : RefreshPhase → Accounts × RefreshPhase
  | .selecting =>
    if chatgptAccountId = [] then
      (accounts, .finished (refreshFailure "invalid_account" "chatgpt-account-id is required"))
    else match selectActiveAccount accounts chatgptAccountId with
      | none => (accounts, .finished accountNotFound)
      | some record => (accounts, .migrating record)
  | .migrating record =>
    match migrateRecord cipher key input.nonces record with
    | none => (accounts, .finished accountNotFound)
    | some (record, true) => (accounts, .persisting record)
    | some (record, false) => (accounts, .decrypting record)
  | .persisting record => (persistMigratedStoredTokens accounts record input.now.stamp, .decrypting record)
  | .decrypting record =>
    match decryptRecord cipher key record with
    | none => (accounts, .finished accountNotFound)
    | some record => (accounts, .exchanging record)
  | .exchanging record =>
    match input.provider record.refreshToken with
    | .error error => (accounts,
      .finished { refreshed := false, errorCode := error.code, errorMessage := error.message })
    | .ok tokens => (accounts, .encrypting record tokens)
  | .encrypting record tokens =>
    match encryptTokens cipher key input.nonces tokens record.idToken with
    | none => (accounts, .finished persistFailed)
    | some encrypted => (accounts, .storing record.id encrypted)
  | .storing accountId encrypted =>
    match updateAccountTokens accounts accountId encrypted input.now with
    | (accounts, true) => (accounts, .finished { refreshed := true })
    | (accounts, false) => (accounts, .finished persistFailed)
  | .finished result => (accounts, .finished result)

end Advance

namespace RefreshPhase

def rowRead : RefreshPhase → Option ℤ
  | .migrating record => some record.id
  | .persisting record => some record.id
  | .decrypting record => some record.id
  | .exchanging record => some record.id
  | .encrypting record _ => some record.id
  | .storing accountId _ => some accountId
  | _ => none

def writeRow (now : SqlNow) (row : Account) : RefreshPhase → Account
  | .persisting record => setWhere (·.id = record.id) (migratedTokensRow record now.stamp) row
  | .storing accountId encrypted => setWhere (·.id = accountId) (refreshedRow encrypted now) row
  | _ => row

@[simp] theorem rowRead_finished (result : RefreshAccessTokenResult) : (finished result).rowRead = none := rfl

@[simp] theorem rowRead_migrating (record : StoredTokenRecord) : (migrating record).rowRead = some record.id := rfl

end RefreshPhase

@[simp] theorem recordOf_id (row : Account) : (recordOf row).id = row.id := rfl

@[simp] theorem migratedTokensRow_id (record : StoredTokenRecord) (stamp : Bytes) (row : Account) :
    (migratedTokensRow record stamp row).id = row.id := rfl

@[simp] theorem migratedTokensRow_status (record : StoredTokenRecord) (stamp : Bytes) (row : Account) :
    (migratedTokensRow record stamp row).status = row.status := rfl

@[simp] theorem refreshedRow_id (encrypted : OAuthTokens) (now : SqlNow) (row : Account) :
    (refreshedRow encrypted now row).id = row.id := rfl

section Phases

variable {cipher : TokenCipher} {chatgptAccountId : Bytes} {key : SessionKey} {accounts : Accounts}
  {input : RefreshInput}

theorem selectActiveAccount_some {record : StoredTokenRecord}
    (h : selectActiveAccount accounts chatgptAccountId = some record) :
    ∃ row, accounts.find? (hasActiveChatgptId (cstr chatgptAccountId)) = some row ∧ 0 < row.id ∧
      record = recordOf row := by
  obtain ⟨hmap, hread⟩ := Option.filter_eq_some_iff.mp h
  obtain ⟨row, hfind, rfl⟩ := Option.map_eq_some_iff.mp hmap
  simp only [Bool.and_eq_true, decide_eq_true_eq] at hread
  exact ⟨row, hfind, hread.1, rfl⟩

theorem migrateRecord_id {nonces : ℕ → Bytes} {record stored : StoredTokenRecord} {migrated : Bool}
    (h : migrateRecord cipher key nonces record = some (stored, migrated)) : stored.id = record.id := by
  obtain ⟨refresh, _, h⟩ := Option.bind_eq_some_iff.mp h
  split_ifs at h
  obtain ⟨idToken, _, h⟩ := Option.bind_eq_some_iff.mp h
  cases h
  rfl

theorem decryptRecord_id {record plain : StoredTokenRecord} (h : decryptRecord cipher key record = some plain) :
    plain.id = record.id := by
  obtain ⟨refresh, _, h⟩ := Option.bind_eq_some_iff.mp h
  split_ifs at h
  · cases h
    rfl
  · obtain ⟨idToken, _, h⟩ := Option.bind_eq_some_iff.mp h
    cases h
    rfl

theorem advance_storing (accountId : ℤ) (encrypted : OAuthTokens) :
    ∃ result, (advance cipher chatgptAccountId key accounts input (.storing accountId encrypted)).2 =
      .finished result := by
  simp only [advance]
  split <;> exact ⟨_, rfl⟩

theorem advance_cases (phase : RefreshPhase) :
    (∃ result, (advance cipher chatgptAccountId key accounts input phase).2 = .finished result) ∨
      (phase = .selecting ∧ ∃ record, selectActiveAccount accounts chatgptAccountId = some record ∧
        (advance cipher chatgptAccountId key accounts input phase).2 = .migrating record) ∨
      ∃ accountId, phase.rowRead = some accountId ∧
        (advance cipher chatgptAccountId key accounts input phase).2.rowRead = some accountId := by
  cases phase with
  | selecting =>
    simp only [advance]
    split_ifs
    · exact .inl ⟨_, rfl⟩
    · split
      · exact .inl ⟨_, rfl⟩
      · rename_i record hselect
        exact .inr (.inl ⟨trivial, record, hselect, rfl⟩)
  | migrating record =>
    simp only [advance]
    split
    · exact .inl ⟨_, rfl⟩
    · rename_i stored hmigrate
      exact .inr (.inr ⟨record.id, rfl, congrArg some (migrateRecord_id hmigrate)⟩)
    · rename_i stored hmigrate
      exact .inr (.inr ⟨record.id, rfl, congrArg some (migrateRecord_id hmigrate)⟩)
  | persisting record => exact .inr (.inr ⟨record.id, rfl, rfl⟩)
  | decrypting record =>
    simp only [advance]
    split
    · exact .inl ⟨_, rfl⟩
    · rename_i plain hdecrypt
      exact .inr (.inr ⟨record.id, rfl, congrArg some (decryptRecord_id hdecrypt)⟩)
  | exchanging record =>
    simp only [advance]
    split
    · exact .inl ⟨_, rfl⟩
    · exact .inr (.inr ⟨record.id, rfl, rfl⟩)
  | encrypting record tokens =>
    simp only [advance]
    split
    · exact .inl ⟨_, rfl⟩
    · exact .inr (.inr ⟨record.id, rfl, rfl⟩)
  | storing accountId encrypted => exact .inl (advance_storing accountId encrypted)
  | finished result => exact .inl ⟨result, rfl⟩

theorem advance_accounts (phase : RefreshPhase) :
    (advance cipher chatgptAccountId key accounts input phase).1 = accounts.map (phase.writeRow input.now ·) := by
  cases phase with
  | persisting record => rfl
  | storing accountId encrypted =>
    simp only [advance, updateAccountTokens]
    cases (rowOf Account.id accountId accounts).isSome <;> rfl
  | selecting =>
    simp only [advance, RefreshPhase.writeRow, List.map_id']
    split_ifs
    · rfl
    · split <;> rfl
  | finished result => exact (List.map_id' accounts).symm
  | _ =>
    simp only [advance, RefreshPhase.writeRow, List.map_id']
    split <;> rfl

theorem writeRow_id (now : SqlNow) (row : Account) (phase : RefreshPhase) : (phase.writeRow now row).id = row.id := by
  cases phase with
  | persisting record => exact setWhere_field (migratedTokensRow_id record now.stamp) _ row
  | storing accountId encrypted => exact setWhere_field (refreshedRow_id encrypted now) _ row
  | _ => rfl

theorem writeRow_status {now : SqlNow} {row : Account} {phase : RefreshPhase}
    (h : ∀ encrypted, phase ≠ .storing row.id encrypted) : (phase.writeRow now row).status = row.status := by
  cases phase with
  | persisting record => exact setWhere_field (migratedTokensRow_status record now.stamp) _ row
  | storing accountId encrypted =>
    have hid : row.id ≠ accountId := by
      rintro rfl
      exact h encrypted rfl
    rw [RefreshPhase.writeRow, setWhere_of_neg (by simp [hid])]
  | _ => rfl

end Phases

end Tightrope.Auth.Oauth
