import Tightrope.Library.WireCodec
import Tightrope.Sync.Checksum

namespace Tightrope.Sync

open Bytes WireCodec

structure HandshakeFrame where
  siteId : UInt32 := 0
  schemaVersion : UInt32 := 0
  lastRecvSeqFromPeer : UInt64 := 0
  authKeyId : Bytes := []
  authHmacHex : Bytes := []
  deriving DecidableEq

structure HandshakeValidationResult where
  accepted : Bool := false
  negotiatedSchemaVersion : UInt32 := 0
  error : Bytes := []
  deriving DecidableEq

structure HandshakeAuthValidationResult where
  accepted : Bool := false
  error : Bytes := []
  deriving DecidableEq

def hexNibble (c : UInt8) : Option UInt8 :=
  if 48 ≤ c ∧ c ≤ 57 then some (c - 48)
  else if 97 ≤ c ∧ c ≤ 102 then some (10 + (c - 97))
  else if 65 ≤ c ∧ c ≤ 70 then some (10 + (c - 65))
  else none

def hexPairs : Bytes → Option Bytes
  | [] => some []
  | [_] => none
  | hi :: lo :: rest =>
    (hexNibble hi).bind fun h => (hexNibble lo).bind fun l => (hexPairs rest).map fun out => ((h <<< 4) ||| l) :: out

def hexDecode (hex : Bytes) (size : ℕ) : Option Bytes := if hex.length ≠ size * 2 then none else hexPairs hex

def kHmacSha256Bytes : ℕ := 32

def decodeHmacHex (hex : Bytes) : Option Bytes := hexDecode hex kHmacSha256Bytes

def handshakeAuthPayload (frame : HandshakeFrame) : Bytes :=
  writeU32 frame.siteId ++ (writeU32 frame.schemaVersion ++ (writeU64 frame.lastRecvSeqFromPeer ++
    writeString frame.authKeyId))

def kMaxStringBytes : ℕ := 2 ^ 32 - 1

def encodeHandshake (frame : HandshakeFrame) : Bytes :=
  let fields := writeU32 frame.siteId ++ (writeU32 frame.schemaVersion ++ writeU64 frame.lastRecvSeqFromPeer)
  if frame.authKeyId ≠ [] ∨ frame.authHmacHex ≠ [] then
    if frame.authKeyId.length > kMaxStringBytes ∨ frame.authHmacHex.length > kMaxStringBytes then []
    else fields ++ (writeString frame.authKeyId ++ writeString frame.authHmacHex)
  else fields

def readHandshakeFields : Reader HandshakeFrame :=
  readU32.andThen fun siteId => readU32.andThen fun schemaVersion => readU64.map fun lastRecvSeqFromPeer =>
    { siteId, schemaVersion, lastRecvSeqFromPeer }

def readAuthFields : Reader (Bytes × Bytes) :=
  readString.andThen fun authKeyId => readString.map fun authHmacHex => (authKeyId, authHmacHex)

def decodeHandshake (bytes : Bytes) : Option HandshakeFrame :=
  (readHandshakeFields bytes).bind fun (frame, rest) =>
    if rest = [] then some frame
    else (readAuthFields rest).bind fun ((authKeyId, authHmacHex), rest) =>
      if rest = [] then some { frame with authKeyId, authHmacHex } else none

section Auth

variable (hmacSha256 : (key message : Bytes) → Bytes)

def computeHandshakeHmacHex (frame : HandshakeFrame) (sharedSecret : Bytes) : Option Bytes :=
  if sharedSecret = [] then none else some (hexEncode (hmacSha256 sharedSecret (handshakeAuthPayload frame)))

def signHandshake (frame : HandshakeFrame) (sharedSecret : Bytes) : HandshakeFrame :=
  match computeHandshakeHmacHex hmacSha256 frame sharedSecret with
  | some signature => { frame with authHmacHex := signature }
  | none => { frame with authHmacHex := [] }

def validateHandshakeAuth (remote : HandshakeFrame) (sharedSecret : Bytes) (requireAuth : Bool) :
    HandshakeAuthValidationResult :=
  if remote.authHmacHex = [] then
    if requireAuth then ⟨false, ofString "handshake auth required but missing hmac"⟩ else ⟨true, []⟩
  else if sharedSecret = [] then ⟨false, ofString "handshake auth present but shared secret is not configured"⟩
  else match decodeHmacHex remote.authHmacHex with
    | none => ⟨false, ofString "handshake auth hmac must be 64 hex characters"⟩
    | some provided =>
      match computeHandshakeHmacHex hmacSha256 remote sharedSecret with
      | none => ⟨false, ofString "handshake auth could not be computed"⟩
      | some expectedHex =>
        match decodeHmacHex expectedHex with
        | none => ⟨false, ofString "handshake auth expected digest is invalid"⟩
        | some expected =>
          if provided ≠ expected then ⟨false, ofString "handshake auth hmac mismatch"⟩ else ⟨true, []⟩

end Auth

def validateHandshakeSchemaVersion (remote : HandshakeFrame) (localSchemaVersion : UInt32) (allowDowngrade : Bool)
    (minSupportedSchemaVersion : UInt32) : HandshakeValidationResult :=
  let version (v : UInt32) : Bytes := decimal v.toNat
  if minSupportedSchemaVersion = 0 then { error := ofString "min_supported_schema_version must be >= 1" }
  else if localSchemaVersion < minSupportedSchemaVersion then
    { error := ofString "local schema version " ++ version localSchemaVersion ++
        ofString " is below minimum supported " ++ version minSupportedSchemaVersion }
  else if remote.schemaVersion < minSupportedSchemaVersion then
    { error := ofString "peer schema version " ++ version remote.schemaVersion ++
        ofString " is below minimum supported " ++ version minSupportedSchemaVersion }
  else if remote.schemaVersion = localSchemaVersion then ⟨true, localSchemaVersion, []⟩
  else if ¬ allowDowngrade then
    { error := ofString "schema version mismatch: local=" ++ version localSchemaVersion ++
        ofString " peer=" ++ version remote.schemaVersion }
  else
    let negotiated := min localSchemaVersion remote.schemaVersion
    if negotiated < minSupportedSchemaVersion then
      { error := ofString "no compatible schema version: local=" ++ version localSchemaVersion ++
          ofString " peer=" ++ version remote.schemaVersion ++
          ofString " min_supported=" ++ version minSupportedSchemaVersion }
    else ⟨true, negotiated, []⟩

theorem validateHandshakeSchemaVersion_accepted_iff (remote : HandshakeFrame) (localVersion : UInt32)
    (allowDowngrade : Bool) (minSupported : UInt32) :
    (validateHandshakeSchemaVersion remote localVersion allowDowngrade minSupported).accepted = true ↔
      minSupported ≠ 0 ∧ minSupported ≤ localVersion ∧ minSupported ≤ remote.schemaVersion ∧
        (remote.schemaVersion = localVersion ∨ allowDowngrade = true) := by
  unfold validateHandshakeSchemaVersion
  by_cases hzero : minSupported = 0
  · simp [hzero]
  · by_cases hlocal : localVersion < minSupported
    · simp [hzero, hlocal]
    · by_cases hremote : remote.schemaVersion < minSupported
      · simp [hzero, hlocal, hremote]
      · have hbelow : ¬ min localVersion remote.schemaVersion < minSupported := by
          rw [min_lt_iff, not_or]
          exact ⟨hlocal, hremote⟩
        simp only [hzero, hlocal, hremote, hbelow, ↓reduceIte, ne_eq, not_false_eq_true, true_and,
          not_lt.mp hlocal, not_lt.mp hremote]
        by_cases hsame : remote.schemaVersion = localVersion
        · simp [hsame]
        · cases allowDowngrade <;> simp [hsame]

theorem hexNibble_low (value : UInt8) : hexNibble (hexDigit (value &&& 0x0F)) = some (value &&& 0x0F) :=
  Nibbles.forall_low (P := fun nibble => hexNibble (hexDigit nibble) = some nibble) (by decide) value

theorem hexEncode_cons (value : UInt8) (bytes : Bytes) : hexEncode (value :: bytes) =
    hexDigit ((value >>> 4) &&& 0x0F) :: hexDigit (value &&& 0x0F) :: hexEncode bytes := rfl

theorem hexPairs_hexEncode (bytes : Bytes) : hexPairs (hexEncode bytes) = some bytes := by
  induction bytes with
  | nil => rfl
  | cons value bytes ih =>
    rw [hexEncode_cons, hexPairs, hexNibble_low, hexNibble_low, Option.bind_some, Option.bind_some, ih, Option.map_some,
      Nibbles.join]

theorem length_hexEncode (bytes : Bytes) : (hexEncode bytes).length = bytes.length * 2 := by
  induction bytes with
  | nil => rfl
  | cons value bytes ih =>
    rw [hexEncode_cons, List.length_cons, List.length_cons, List.length_cons, ih]
    omega

theorem decodeHmacHex_hexEncode (digest : Bytes) :
    decodeHmacHex (hexEncode digest) = if digest.length = kHmacSha256Bytes then some digest else none := by
  rw [decodeHmacHex, hexDecode, length_hexEncode, hexPairs_hexEncode]
  by_cases h : digest.length = kHmacSha256Bytes
  · rw [if_neg (by omega), if_pos h]
  · rw [if_pos (by omega), if_neg h]

theorem validateHandshakeAuth_accepted_iff (hmacSha256 : Bytes → Bytes → Bytes) (remote : HandshakeFrame)
    (secret : Bytes) (requireAuth : Bool) :
    (validateHandshakeAuth hmacSha256 remote secret requireAuth).accepted = true ↔
      remote.authHmacHex = [] ∧ requireAuth = false ∨
        remote.authHmacHex ≠ [] ∧ secret ≠ [] ∧
          (hmacSha256 secret (handshakeAuthPayload remote)).length = kHmacSha256Bytes ∧
          decodeHmacHex remote.authHmacHex = some (hmacSha256 secret (handshakeAuthPayload remote)) := by
  unfold validateHandshakeAuth
  by_cases hmissing : remote.authHmacHex = []
  · cases requireAuth <;> simp [hmissing]
  · by_cases hsecret : secret = []
    · simp [hmissing, hsecret]
    · have hcompute : computeHandshakeHmacHex hmacSha256 remote secret =
          some (hexEncode (hmacSha256 secret (handshakeAuthPayload remote))) := if_neg hsecret
      simp only [hmissing, hsecret, hcompute, decodeHmacHex_hexEncode, ↓reduceIte, ne_eq, not_false_eq_true,
        false_and, true_and, false_or]
      cases decodeHmacHex remote.authHmacHex with
      | none => simp
      | some provided =>
        by_cases hsize : (hmacSha256 secret (handshakeAuthPayload remote)).length = kHmacSha256Bytes
        · by_cases hsame : provided = hmacSha256 secret (handshakeAuthPayload remote)
          · simp [hsize, hsame]
          · simp [hsize, hsame]
        · simp [hsize]

theorem handshakeAuthPayload_inj {f g : HandshakeFrame} (h : handshakeAuthPayload f = handshakeAuthPayload g) :
    f.siteId = g.siteId ∧ f.schemaVersion = g.schemaVersion ∧ f.lastRecvSeqFromPeer = g.lastRecvSeqFromPeer ∧
      (f.authKeyId.length < 2 ^ 32 ∨ g.authKeyId.length < 2 ^ 32 → f.authKeyId = g.authKeyId) := by
  obtain ⟨hsite, h⟩ := (reads_u32 _).append_inj (reads_u32 _) h
  obtain ⟨hschema, h⟩ := (reads_u32 _).append_inj (reads_u32 _) h
  obtain ⟨hlast, h⟩ := (reads_u64 _).append_inj (reads_u64 _) h
  exact ⟨hsite, hschema, hlast, fun hfits => writeString_inj hfits h⟩

theorem signHandshake_eq (hmacSha256 : Bytes → Bytes → Bytes) (frame : HandshakeFrame) {secret : Bytes}
    (hsecret : secret ≠ []) : signHandshake hmacSha256 frame secret =
      { frame with authHmacHex := hexEncode (hmacSha256 secret (handshakeAuthPayload frame)) } := by
  rw [signHandshake, computeHandshakeHmacHex, if_neg hsecret]

theorem decode_encodeHandshake {frame : HandshakeFrame} (hkey : frame.authKeyId.length < 2 ^ 32)
    (hhex : frame.authHmacHex.length < 2 ^ 32) : decodeHandshake (encodeHandshake frame) = some frame := by
  have hfits : ¬ (frame.authKeyId.length > kMaxStringBytes ∨ frame.authHmacHex.length > kMaxStringBytes) := by
    rw [kMaxStringBytes]
    omega
  have hfields : Reads readHandshakeFields (writeU32 frame.siteId ++ (writeU32 frame.schemaVersion ++
      writeU64 frame.lastRecvSeqFromPeer)) { frame with authKeyId := [], authHmacHex := [] } := by
    apply (reads_u32 _).andThen
    apply (reads_u32 _).andThen
    exact (reads_u64 _).map _
  rw [decodeHandshake, encodeHandshake, if_neg hfits]
  split_ifs with hauth
  · have hread : Reads readAuthFields (writeString frame.authKeyId ++ writeString frame.authHmacHex)
        (frame.authKeyId, frame.authHmacHex) := by
      apply (reads_string hkey).andThen
      exact (reads_string hhex).map _
    have hnonempty : writeString frame.authKeyId ++ writeString frame.authHmacHex ≠ [] := by
      intro hnil
      have hbad := hread []
      rw [hnil] at hbad
      cases hbad
    have hend := hread []
    rw [List.append_nil] at hend
    rw [hfields, Option.bind_some]
    simp only [hnonempty, ↓reduceIte, hend, Option.bind_some]
  · obtain ⟨hnoKey, hnoHex⟩ := not_or.mp hauth
    have hend := hfields []
    rw [List.append_nil] at hend
    rw [hend, Option.bind_some]
    simp only [↓reduceIte, Option.some_inj]
    cases frame
    simp_all

theorem decode_encode_signHandshake (hmacSha256 : Bytes → Bytes → Bytes) {secret : Bytes} (hsecret : secret ≠ [])
    {f : HandshakeFrame} (hkey : f.authKeyId.length < 2 ^ 32)
    (hdigest : (hmacSha256 secret (handshakeAuthPayload f)).length = kHmacSha256Bytes) :
    decodeHandshake (encodeHandshake (signHandshake hmacSha256 f secret)) =
      some (signHandshake hmacSha256 f secret) := by
  have hhex := length_hexEncode (hmacSha256 secret (handshakeAuthPayload f))
  rw [signHandshake_eq hmacSha256 f hsecret]
  apply decode_encodeHandshake
  · exact hkey
  · simp only
    rw [hhex, hdigest]
    decide

theorem signHandshake_accepted (hmacSha256 : Bytes → Bytes → Bytes) {secret : Bytes} (hsecret : secret ≠ [])
    {f : HandshakeFrame} (hdigest : (hmacSha256 secret (handshakeAuthPayload f)).length = kHmacSha256Bytes)
    (requireAuth : Bool) :
    (validateHandshakeAuth hmacSha256 (signHandshake hmacSha256 f secret) secret requireAuth).accepted = true := by
  have hhex := length_hexEncode (hmacSha256 secret (handshakeAuthPayload f))
  apply (validateHandshakeAuth_accepted_iff _ _ _ _).mpr
  right
  rw [signHandshake_eq hmacSha256 f hsecret]
  refine ⟨?_, hsecret, hdigest, ?_⟩
  · apply List.ne_nil_of_length_pos
    rw [hhex, hdigest]
    decide
  · rw [decodeHmacHex_hexEncode, if_pos hdigest]
    rfl

theorem handshakeAuth_binds (hmacSha256 : Bytes → Bytes → Bytes) {secret : Bytes} (hsecret : secret ≠ []) :
    (Function.Injective (hmacSha256 secret) → ∀ f g : HandshakeFrame,
      g.authHmacHex = (signHandshake hmacSha256 f secret).authHmacHex →
      (validateHandshakeAuth hmacSha256 g secret true).accepted = true →
      f.siteId = g.siteId ∧ f.schemaVersion = g.schemaVersion ∧ f.lastRecvSeqFromPeer = g.lastRecvSeqFromPeer ∧
        (f.authKeyId.length < 2 ^ 32 ∨ g.authKeyId.length < 2 ^ 32 → f.authKeyId = g.authKeyId)) ∧
    (∀ (f : HandshakeFrame) (requireAuth : Bool), f.authKeyId.length < 2 ^ 32 →
      (hmacSha256 secret (handshakeAuthPayload f)).length = kHmacSha256Bytes →
      ∃ g, decodeHandshake (encodeHandshake (signHandshake hmacSha256 f secret)) = some g ∧
        (validateHandshakeAuth hmacSha256 g secret requireAuth).accepted = true) ∧
    ∀ f : HandshakeFrame, (validateHandshakeAuth hmacSha256 f [] true).accepted = false := by
  refine ⟨fun hinjective f g hsigned haccepted => ?_, fun f requireAuth hkey hdigest => ?_, fun f => ?_⟩
  · obtain ⟨-, hfalse⟩ | ⟨-, -, -, hprovided⟩ := (validateHandshakeAuth_accepted_iff _ _ _ _).mp haccepted
    · cases hfalse
    · rw [hsigned, signHandshake_eq _ _ hsecret, decodeHmacHex_hexEncode, Option.ite_none_right_eq_some,
        Option.some_inj] at hprovided
      exact handshakeAuthPayload_inj (hinjective hprovided.2)
  · refine ⟨signHandshake hmacSha256 f secret, ?_, ?_⟩
    · exact decode_encode_signHandshake hmacSha256 hsecret hkey hdigest
    · exact signHandshake_accepted hmacSha256 hsecret hdigest requireAuth
  · apply Bool.eq_false_iff.mpr
    rw [ne_eq, validateHandshakeAuth_accepted_iff]
    simp

def clusterSecret : Bytes := ofString "cluster-secret"

def keyedHandshake (authKeyId : Bytes) : HandshakeFrame :=
  { siteId := 7, schemaVersion := 3, lastRecvSeqFromPeer := 41, authKeyId }

def keyedDigest : Bytes :=
  [77, 135, 47, 244, 139, 169, 212, 140, 90, 4, 200, 207, 65, 230, 144, 220, 244, 176, 49, 225, 237, 166, 22, 90, 118,
    2, 69, 138, 99, 189, 167, 228]

def unkeyedDigest : Bytes :=
  [209, 245, 73, 171, 132, 85, 52, 209, 169, 135, 8, 75, 175, 115, 70, 116, 244, 97, 220, 210, 20, 117, 121, 52, 171,
    151, 90, 94, 78, 197, 71, 43]

def clusterHmac (key message : Bytes) : Bytes :=
  if key = clusterSecret then
    sha256On [(handshakeAuthPayload (keyedHandshake (ofString "k1")), keyedDigest),
      ([7, 0, 0, 0, 3, 0, 0, 0, 41, 0, 0, 0, 0, 0, 0, 0], unkeyedDigest)] message
  else []

theorem clusterHmac_injective : Function.Injective (clusterHmac clusterSecret) := by
  have hinjective := @sha256On_injective [(handshakeAuthPayload (keyedHandshake (ofString "k1")), keyedDigest),
    ([7, 0, 0, 0, 3, 0, 0, 0, 41, 0, 0, 0, 0, 0, 0, 0], unkeyedDigest)] (by decide) (by decide)
  intro x y h
  simp only [clusterHmac, ↓reduceIte] at h
  exact hinjective h

theorem handshakeAuth_binds_keyed :
    let f := keyedHandshake (ofString "k1")
    let signed := signHandshake clusterHmac f clusterSecret
    (validateHandshakeAuth clusterHmac signed clusterSecret true).accepted = true ∧
      f.authKeyId = signed.authKeyId ∧
      (∃ g, decodeHandshake (encodeHandshake signed) = some g ∧
        (validateHandshakeAuth clusterHmac g clusterSecret true).accepted = true) ∧
      (validateHandshakeAuth clusterHmac signed [] true).accepted = false := by
  have hsecret : clusterSecret ≠ [] := by decide
  have haccepted : (validateHandshakeAuth clusterHmac
      (signHandshake clusterHmac (keyedHandshake (ofString "k1")) clusterSecret) clusterSecret true).accepted =
        true := by
    decide +kernel
  obtain ⟨hbinds, hwire, hnone⟩ := handshakeAuth_binds clusterHmac hsecret
  have hagree := hbinds clusterHmac_injective (keyedHandshake (ofString "k1")) _ rfl haccepted
  exact ⟨haccepted, hagree.2.2.2 (Or.inl (by decide)), hwire _ true (by decide) (by decide +kernel), hnone _⟩

theorem handshakeAuthPayload_of_long {frame : HandshakeFrame} (h : 2 ^ 32 ≤ frame.authKeyId.length) :
    handshakeAuthPayload frame = writeU32 frame.siteId ++ (writeU32 frame.schemaVersion ++
      writeU64 frame.lastRecvSeqFromPeer) := by
  rw [handshakeAuthPayload, writeString_of_long h, List.append_nil]

theorem encodeHandshake_of_long {frame : HandshakeFrame} (h : 2 ^ 32 ≤ frame.authKeyId.length) :
    encodeHandshake frame = [] := by
  have hne : frame.authKeyId ≠ [] := List.ne_nil_of_length_pos (by omega)
  have hlong : frame.authKeyId.length > kMaxStringBytes := by
    rw [kMaxStringBytes]
    omega
  rw [encodeHandshake, if_pos (Or.inl hne), if_pos (Or.inl hlong)]

theorem clusterHmac_of_long_keyId {frame : HandshakeFrame} (hsite : frame.siteId = 7)
    (hschema : frame.schemaVersion = 3) (hlast : frame.lastRecvSeqFromPeer = 41)
    (hlong : 2 ^ 32 ≤ frame.authKeyId.length) :
    clusterHmac clusterSecret (handshakeAuthPayload frame) = unkeyedDigest := by
  rw [handshakeAuthPayload_of_long hlong, hsite, hschema, hlast]
  decide +kernel

theorem unkeyed_accepted {key : Bytes} (hkey : 2 ^ 32 ≤ key.length) : (validateHandshakeAuth clusterHmac
    { keyedHandshake key with authHmacHex := hexEncode unkeyedDigest } clusterSecret true).accepted = true := by
  have hnonempty : hexEncode unkeyedDigest ≠ [] := by decide
  apply (validateHandshakeAuth_accepted_iff _ _ _ _).mpr
  right
  rw [clusterHmac_of_long_keyId rfl rfl rfl hkey]
  refine ⟨hnonempty, by decide, rfl, ?_⟩
  rw [decodeHmacHex_hexEncode]
  rfl

theorem signed_long_keyId {a b : Bytes} (ha : 2 ^ 32 ≤ a.length) (hb : 2 ^ 32 ≤ b.length) :
    let f := signHandshake clusterHmac (keyedHandshake a) clusterSecret
    let g := { f with authKeyId := b }
    f.authKeyId = a ∧ g.authHmacHex = (signHandshake clusterHmac f clusterSecret).authHmacHex ∧
      (validateHandshakeAuth clusterHmac g clusterSecret true).accepted = true ∧
      (validateHandshakeAuth clusterHmac f clusterSecret true).accepted = true ∧
      decodeHandshake (encodeHandshake f) = none := by
  have hsecret : clusterSecret ≠ [] := by decide
  have hsign : signHandshake clusterHmac (keyedHandshake a) clusterSecret =
      { keyedHandshake a with authHmacHex := hexEncode unkeyedDigest } := by
    rw [signHandshake_eq _ _ hsecret, clusterHmac_of_long_keyId rfl rfl rfl ha]
  intro f g
  have hf : f = { keyedHandshake a with authHmacHex := hexEncode unkeyedDigest } := hsign
  have hg : g = { keyedHandshake b with authHmacHex := hexEncode unkeyedDigest } := by
    simp only [g, hf, keyedHandshake]
  refine ⟨by rw [hf]; rfl, ?_, ?_, ?_, ?_⟩
  · rw [signHandshake_eq _ _ hsecret, hg, hf, clusterHmac_of_long_keyId rfl rfl rfl ha]
  · rw [hg]
    exact unkeyed_accepted hb
  · rw [hf]
    exact unkeyed_accepted ha
  · rw [hf, encodeHandshake_of_long ha]
    rfl

theorem long_keyId_not_bound :
    let f := signHandshake clusterHmac (keyedHandshake (List.replicate (2 ^ 32) 97)) clusterSecret
    let g := { f with authKeyId := List.replicate (2 ^ 32) 98 }
    clusterSecret ≠ [] ∧ Function.Injective (clusterHmac clusterSecret) ∧
      g.authHmacHex = (signHandshake clusterHmac f clusterSecret).authHmacHex ∧
      (validateHandshakeAuth clusterHmac g clusterSecret true).accepted = true ∧ f.authKeyId ≠ g.authKeyId ∧
      (validateHandshakeAuth clusterHmac f clusterSecret true).accepted = true ∧
      decodeHandshake (encodeHandshake f) = none := by
  intro f g
  obtain ⟨hkey, hsigned, hforged, haccepted, hlost⟩ :=
    signed_long_keyId (a := List.replicate (2 ^ 32) 97) (b := List.replicate (2 ^ 32) 98)
      List.length_replicate.ge List.length_replicate.ge
  refine ⟨by decide, clusterHmac_injective, hsigned, hforged, ?_, haccepted, hlost⟩
  intro hsame
  have hbytes := (List.replicate_right_inj (by decide)).mp (hkey.symm.trans hsame)
  exact absurd hbytes (by decide)

end Tightrope.Sync
