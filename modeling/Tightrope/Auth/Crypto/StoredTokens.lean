import Tightrope.Auth.Crypto.TokenStore

namespace Tightrope.Auth.Crypto

open Bytes Tightrope.Core

section Runs

variable (cipher : TokenCipher)

inductive StorageAct where
  | configure (passphrase : Bytes)
  | migrate (nonce : Bytes)
  deriving DecidableEq

structure StoredToken where
  key : SessionKey
  value : Bytes
  deriving DecidableEq

def storageStep (s : StoredToken) : StorageAct → StoredToken
  | .configure passphrase => if s.key = none then { s with key := configuredKey cipher passphrase } else s
  | .migrate nonce =>
    match migratePlaintextTokenForStorage cipher s.key nonce s.value with
    | none => s
    | some migrated => { s with value := migrated.1 }

def storageRun (acts : List StorageAct) (s : StoredToken) : StoredToken := acts.foldl (storageStep cipher) s

/-- A value in the form that the configuration asks for decrypts to the token; a plain one that a passphrase has come
over is refused until a migration, which leaves only the empty token alone, encrypts it. -/
def TokenKept (token : Bytes) (s : StoredToken) : Prop :=
  if s.key.isSome = tokenStorageValueIsEncrypted s.value then decryptTokenFromStorage cipher s.key s.value = some token
  else s.key.isSome = true ∧ s.value = token ∧ decryptTokenFromStorage cipher s.key s.value = none ∧
    (token ≠ [] → ∀ nonce migrated, migratePlaintextTokenForStorage cipher s.key nonce s.value = some migrated →
      decryptTokenFromStorage cipher s.key migrated.1 = some token)

def Holds (token : Bytes) (s : StoredToken) : Prop :=
  (s.value = token ∧ tokenStorageValueIsEncrypted token = false) ∨
    tokenStorageValueIsEncrypted s.value = true ∧ s.key.isSome = true ∧
      decryptTokenFromStorage cipher s.key s.value = some token

variable {cipher} {token nonce : Bytes} {key : SessionKey} {s : StoredToken}

theorem holds_of_encrypted (hcipher : cipher.RoundTrips) {value : Bytes}
    (hplain : key = none → tokenStorageValueIsEncrypted token = false)
    (h : encryptTokenForStorage cipher key nonce token = some value) : Holds cipher token ⟨key, value⟩ := by
  cases key with
  | none =>
    obtain rfl := Option.some_inj.mp h
    exact .inl ⟨rfl, hplain rfl⟩
  | some key =>
    obtain ⟨hsealed, -⟩ := decryptUnder_encryptUnder hcipher h
    exact .inr ⟨hsealed, rfl, decryptTokenFromStorage_encrypt hcipher h⟩

theorem migrate_plain (hne : token ≠ []) (hplain : tokenStorageValueIsEncrypted token = false)
    {migrated : Bytes × Bool} (h : migratePlaintextTokenForStorage cipher key nonce token = some migrated) :
    encryptTokenForStorage cipher key nonce token = some migrated.1 := by
  rw [migratePlaintextTokenForStorage, if_neg (by simp [hne, hplain])] at h
  obtain ⟨encrypted, hencrypted, rfl⟩ := Option.map_eq_some_iff.mp h
  exact hencrypted

theorem migrate_kept {value : Bytes} (h : value = [] ∨ tokenStorageValueIsEncrypted value = true) :
    migratePlaintextTokenForStorage cipher key nonce value = some (value, false) :=
  if_pos h

theorem holds_step (hcipher : cipher.RoundTrips) (h : Holds cipher token s) (act : StorageAct) :
    Holds cipher token (storageStep cipher s act) := by
  cases act with
  | configure passphrase =>
    rw [storageStep]
    obtain hvalue | ⟨hsealed, hkey, hdecrypts⟩ := h
    · split_ifs
      · exact .inl hvalue
      · exact .inl hvalue
    · rw [if_neg (Option.isSome_iff_ne_none.mp hkey)]
      exact .inr ⟨hsealed, hkey, hdecrypts⟩
  | migrate nonce =>
    rw [storageStep]
    obtain ⟨hvalue, hplain⟩ | ⟨hsealed, hkey, hdecrypts⟩ := h
    · rw [hvalue]
      by_cases hne : token = []
      · rw [migrate_kept (.inl hne)]
        exact .inl ⟨rfl, hplain⟩
      · cases hmigrate : migratePlaintextTokenForStorage cipher s.key nonce token with
        | none => exact .inl ⟨hvalue, hplain⟩
        | some migrated => exact holds_of_encrypted hcipher (fun _ => hplain) (migrate_plain hne hplain hmigrate)
    · rw [migrate_kept (.inr hsealed)]
      exact .inr ⟨hsealed, hkey, hdecrypts⟩

theorem holds_run (hcipher : cipher.RoundTrips) (h : Holds cipher token s) (acts : List StorageAct) :
    Holds cipher token (storageRun cipher acts s) := by
  induction acts generalizing s with
  | nil => exact h
  | cons act acts ih => exact ih (holds_step hcipher h act)

theorem tokenKept_of_holds (hcipher : cipher.RoundTrips) (h : Holds cipher token s) : TokenKept cipher token s := by
  obtain ⟨key, value⟩ := s
  unfold TokenKept
  obtain ⟨rfl, hplain⟩ | ⟨hsealed, hkey, hdecrypts⟩ := h
  · change tokenStorageValueIsEncrypted value = false at hplain
    cases key with
    | none =>
      have hdecrypts : decryptTokenFromStorage cipher none value = some value := by
        rw [decryptTokenFromStorage, if_neg (by simp [hplain])]
      have hsame : (none : SessionKey).isSome = tokenStorageValueIsEncrypted value := hplain.symm
      dsimp only
      rwa [if_pos hsame]
    | some key =>
      have hdiffers : (some key).isSome ≠ tokenStorageValueIsEncrypted value := by simp [hplain]
      dsimp only
      rw [if_neg hdiffers]
      refine ⟨rfl, rfl, ?_, fun hne nonce migrated hmigrate => ?_⟩
      · rw [decryptTokenFromStorage, if_neg (by simp [hplain])]
      · exact decryptTokenFromStorage_encrypt hcipher (migrate_plain hne hplain hmigrate)
  · rw [if_pos (hkey.trans hsealed.symm)]
    exact hdecrypts

theorem migrate_again (nonce' : Bytes) {value : Bytes} {migrated : Bytes × Bool}
    (h : migratePlaintextTokenForStorage cipher key nonce value = some migrated) :
    migratePlaintextTokenForStorage cipher key nonce' migrated.1 = some (migrated.1, false) := by
  by_cases hkept : value = [] ∨ tokenStorageValueIsEncrypted value = true
  · rw [migrate_kept hkept] at h
    obtain rfl := Option.some_inj.mp h
    exact migrate_kept hkept
  · obtain ⟨hne, hplain⟩ := not_or.mp hkept
    rw [Bool.not_eq_true] at hplain
    have hencrypted := migrate_plain hne hplain h
    cases key with
    | none =>
      have hvalue := Option.some_inj.mp hencrypted
      rw [← hvalue, migratePlaintextTokenForStorage, if_neg hkept, encryptTokenForStorage, Option.map_some, hplain,
        Bool.false_and]
    | some key =>
      obtain ⟨encrypted, -, heq⟩ := Option.map_eq_some_iff.mp hencrypted
      refine migrate_kept (.inr ?_)
      rw [← heq]
      simp [tokenStorageValueIsEncrypted, startsWith]

/-- A token is kept through every run, unless it looks encrypted and is stored without a key; a migration is done once;
and under a passphrase only encrypted values decrypt. -/
theorem stored_token_kept (cipher : TokenCipher) (hcipher : cipher.RoundTrips) :
    (∀ token key nonce value acts, (key = none → tokenStorageValueIsEncrypted token = false) →
      encryptTokenForStorage cipher key nonce token = some value →
        TokenKept cipher token (storageRun cipher acts ⟨key, value⟩)) ∧
    (∀ key nonce value migrated, migratePlaintextTokenForStorage cipher key nonce value = some migrated →
      ∀ nonce', migratePlaintextTokenForStorage cipher key nonce' migrated.1 = some (migrated.1, false)) ∧
    ∀ key value token, decryptTokenFromStorage cipher (some key) value = some token →
      tokenStorageValueIsEncrypted value = true := by
  refine ⟨fun token key nonce value acts hplain hstored => ?_, fun key nonce value migrated h nonce' => ?_,
    fun key value token h => ?_⟩
  · exact tokenKept_of_holds hcipher (holds_run hcipher (holds_of_encrypted hcipher hplain hstored) acts)
  · exact migrate_again nonce' h
  · unfold decryptTokenFromStorage at h
    split_ifs at h with hsealed
    · exact hsealed

def markingCipher : TokenCipher where
  deriveSessionKey passphrase := passphrase
  encryptToken plaintext _ _ := some (1 :: plaintext)
  decryptToken encrypted _ := some encrypted.tail

theorem roundTrips_markingCipher : markingCipher.RoundTrips where
  decrypts h := by
    obtain rfl := Option.some_inj.mp h
    exact ⟨List.cons_ne_nil _ _, rfl⟩

def lateConfiguration : List StorageAct := [.configure (ofString "passphrase"), .migrate [], .migrate []]

theorem late_configuration_keeps_token :
    TokenKept markingCipher (ofString "token")
      (storageRun markingCipher lateConfiguration ⟨none, ofString "token"⟩) :=
  (stored_token_kept markingCipher roundTrips_markingCipher).1 (ofString "token") none [] (ofString "token")
    lateConfiguration (fun _ => by decide) rfl

theorem plain_value_is_refused :
    encryptTokenForStorage markingCipher none [] (ofString "token") = some (ofString "token") ∧
      let s := storageRun markingCipher [.configure (ofString "passphrase")] ⟨none, ofString "token"⟩
      decryptTokenFromStorage markingCipher s.key s.value = none := by
  decide

end Runs

end Tightrope.Auth.Crypto
