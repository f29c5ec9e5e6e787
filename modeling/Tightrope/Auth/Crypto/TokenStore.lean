import Tightrope.Core.Ascii

namespace Tightrope.Auth.Crypto

open Bytes Tightrope.Core

structure TokenCipher where
  deriveSessionKey : Bytes → Bytes
  encryptToken : Bytes → Bytes → Bytes → Option Bytes
  decryptToken : Bytes → Bytes → Option Bytes

structure TokenCipher.RoundTrips (cipher : TokenCipher) : Prop where
  decrypts : ∀ {plaintext key nonce encrypted : Bytes}, cipher.encryptToken plaintext key nonce = some encrypted →
    encrypted ≠ [] ∧ cipher.decryptToken encrypted key = some plaintext

def kCipherPrefix : Bytes := ofString "tightrope-token:v1:"

def tokenStorageValueIsEncrypted (storedValue : Bytes) : Bool := startsWith storedValue kCipherPrefix

abbrev SessionKey := Option Bytes

section Storage

variable (cipher : TokenCipher)

def configuredKey (passphrase : Bytes) : SessionKey :=
  if passphrase = [] then none else some (cipher.deriveSessionKey passphrase)

def encryptUnder (key nonce plaintext : Bytes) : Option Bytes :=
  (cipher.encryptToken plaintext key nonce).map (kCipherPrefix ++ ·)

def decryptUnder (key storedValue : Bytes) : Option Bytes :=
  if storedValue.drop kCipherPrefix.length = [] then none
  else cipher.decryptToken (storedValue.drop kCipherPrefix.length) key

def encryptTokenForStorage (key : SessionKey) (nonce plaintext : Bytes) : Option Bytes :=
  match key with
  | none => some plaintext
  | some key => encryptUnder cipher key nonce plaintext

def decryptTokenFromStorage (key : SessionKey) (storedValue : Bytes) : Option Bytes :=
  if tokenStorageValueIsEncrypted storedValue then
    match key with
    | none => none
    | some key => decryptUnder cipher key storedValue
  else
    match key with
    | none => some storedValue
    | some _ => none

def encryptTokenForStorageWithPassphrase (nonce plaintext passphrase : Bytes) : Option Bytes :=
  if passphrase = [] then none else encryptUnder cipher (cipher.deriveSessionKey passphrase) nonce plaintext

def decryptTokenFromStorageWithPassphrase (storedValue passphrase : Bytes) : Option Bytes :=
  if tokenStorageValueIsEncrypted storedValue then
    if passphrase = [] then none else decryptUnder cipher (cipher.deriveSessionKey passphrase) storedValue
  else some storedValue

def migratePlaintextTokenForStorage (key : SessionKey) (nonce storedValue : Bytes) : Option (Bytes × Bool) :=
  if storedValue = [] ∨ tokenStorageValueIsEncrypted storedValue then some (storedValue, false)
  else (encryptTokenForStorage cipher key nonce storedValue).map fun encrypted =>
    (encrypted, tokenStorageValueIsEncrypted encrypted && encrypted ≠ storedValue)

def tokenUnder (key : SessionKey) (storedValue : Bytes) : Option Bytes :=
  if tokenStorageValueIsEncrypted storedValue then decryptTokenFromStorage cipher key storedValue else some storedValue

theorem decryptUnder_encryptUnder {cipher : TokenCipher} (h : cipher.RoundTrips) {key nonce plaintext stored : Bytes}
    (hstored : encryptUnder cipher key nonce plaintext = some stored) :
    tokenStorageValueIsEncrypted stored = true ∧ decryptUnder cipher key stored = some plaintext := by
  obtain ⟨encrypted, hencrypted, rfl⟩ := Option.map_eq_some_iff.mp hstored
  obtain ⟨hne, hdecrypts⟩ := h.decrypts hencrypted
  constructor
  · simp [tokenStorageValueIsEncrypted, startsWith]
  · rw [decryptUnder, List.drop_left, if_neg hne, hdecrypts]

theorem decryptTokenFromStorage_encrypt {cipher : TokenCipher} (h : cipher.RoundTrips)
    {key nonce plaintext stored : Bytes}
    (hstored : encryptUnder cipher key nonce plaintext = some stored) :
    decryptTokenFromStorage cipher (some key) stored = some plaintext := by
  obtain ⟨hsealed, hdecrypts⟩ := decryptUnder_encryptUnder h hstored
  rw [decryptTokenFromStorage, if_pos hsealed]
  exact hdecrypts

theorem tokenUnder_of_decrypt {cipher : TokenCipher} {key : SessionKey} {storedValue token : Bytes}
    (h : decryptTokenFromStorage cipher key storedValue = some token) :
    tokenUnder cipher key storedValue = some token := by
  unfold tokenUnder
  split_ifs with hprefix
  · exact h
  · unfold decryptTokenFromStorage at h
    rw [if_neg hprefix] at h
    cases key with
    | none => exact h
    | some key => cases h

theorem tokenUnder_of_migrated {cipher : TokenCipher} (hcipher : cipher.RoundTrips) {key : SessionKey}
    {nonce storedValue token : Bytes} {migrated : Bytes × Bool}
    (h : migratePlaintextTokenForStorage cipher key nonce storedValue = some migrated)
    (htoken : decryptTokenFromStorage cipher key migrated.1 = some token) :
    tokenUnder cipher key storedValue = some token := by
  unfold migratePlaintextTokenForStorage at h
  split_ifs at h with hkept
  · cases h
    exact tokenUnder_of_decrypt htoken
  · obtain ⟨encrypted, hencrypted, rfl⟩ := Option.map_eq_some_iff.mp h
    cases key with
    | none =>
      cases hencrypted
      exact tokenUnder_of_decrypt htoken
    | some key =>
      rw [decryptTokenFromStorage_encrypt hcipher hencrypted] at htoken
      obtain ⟨_, hplain⟩ := not_or.mp hkept
      rw [tokenUnder, if_neg hplain, ← htoken]

end Storage

end Tightrope.Auth.Crypto
