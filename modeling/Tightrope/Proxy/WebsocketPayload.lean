import Mathlib.Data.List.DropRight
import Tightrope.Proxy.Openai.PayloadNormalizer

namespace Tightrope.Proxy

open Bytes Tightrope.Core Openai

def isAsciiWsTrimChar (c : UInt8) : Bool := c ≤ 0x20 || c = 0x7F

def dropByteOrderMark : Bytes → Bytes
  | 0xEF :: 0xBB :: 0xBF :: rest => rest
  | payload => payload

def trimWsPayloadEdges (payload : Bytes) : Bytes :=
  ((dropByteOrderMark payload).dropWhile isAsciiWsTrimChar).rdropWhile isAsciiWsTrimChar

def utf8CodePoint (codePoint : ℕ) : Bytes :=
  if codePoint ≤ 0x7F then [UInt8.ofNat codePoint]
  else if codePoint ≤ 0x7FF then
    [UInt8.ofNat (0xC0 ||| ((codePoint >>> 6) &&& 0x1F)), UInt8.ofNat (0x80 ||| (codePoint &&& 0x3F))]
  else if codePoint ≤ 0xFFFF then
    [UInt8.ofNat (0xE0 ||| ((codePoint >>> 12) &&& 0x0F)), UInt8.ofNat (0x80 ||| ((codePoint >>> 6) &&& 0x3F)),
      UInt8.ofNat (0x80 ||| (codePoint &&& 0x3F))]
  else if codePoint ≤ 0x10FFFF then
    [UInt8.ofNat (0xF0 ||| ((codePoint >>> 18) &&& 0x07)), UInt8.ofNat (0x80 ||| ((codePoint >>> 12) &&& 0x3F)),
      UInt8.ofNat (0x80 ||| ((codePoint >>> 6) &&& 0x3F)), UInt8.ofNat (0x80 ||| (codePoint &&& 0x3F))]
  else []

def bytePairs : Bytes → List (UInt8 × UInt8)
  | first :: second :: rest => (first, second) :: bytePairs rest
  | _ => []

inductive Endianness where
  | little
  | big
  deriving DecidableEq, Repr

def Endianness.unit : Endianness → UInt8 × UInt8 → ℕ
  | .little, (first, second) => first.toNat + second.toNat * 256
  | .big, (first, second) => first.toNat * 256 + second.toNat

def guessEndianness (pairs : List (UInt8 × UInt8)) : Option Endianness :=
  let sample := pairs.take 64
  let zeroEven := sample.countP fun pair => pair.1 = 0
  let zeroOdd := sample.countP fun pair => pair.2 = 0
  if zeroOdd * 10 ≥ sample.length * 7 ∧ zeroEven * 10 ≤ sample.length * 3 then some .little
  else if zeroEven * 10 ≥ sample.length * 7 ∧ zeroOdd * 10 ≤ sample.length * 3 then some .big
  else none

def decodeUnits (endianness : Endianness) : ℕ → List (UInt8 × UInt8) → Option Bytes
  | pending, [] => if pending = 0 then some [] else none
  | pending, pair :: rest =>
    let unit := endianness.unit pair
    if unit = 0 then decodeUnits endianness pending rest
    else if 0xD800 ≤ unit ∧ unit ≤ 0xDBFF then
      if pending ≠ 0 then none else decodeUnits endianness unit rest
    else if 0xDC00 ≤ unit ∧ unit ≤ 0xDFFF then
      if pending = 0 then none
      else (decodeUnits endianness 0 rest).map
        (utf8CodePoint (0x10000 + ((pending - 0xD800) <<< 10) + (unit - 0xDC00)) ++ ·)
    else if pending ≠ 0 then none
    else (decodeUnits endianness 0 rest).map (utf8CodePoint unit ++ ·)

def tryDecodeUtf16Json (payload : Bytes) : Option Bytes :=
  if payload.length < 4 ∨ payload.length % 2 ≠ 0 then none
  else match payload with
    | 0xFF :: 0xFE :: rest => decodeUnits .little 0 (bytePairs rest)
    | 0xFE :: 0xFF :: rest => decodeUnits .big 0 (bytePairs rest)
    | _ => (guessEndianness (bytePairs payload)).bind fun endianness => decodeUnits endianness 0 (bytePairs payload)

def normalizeWebsocketRequestPayload (payload : Bytes) : Bytes :=
  match tryDecodeUtf16Json payload with
  | some utf16 => trimWsPayloadEdges utf16
  | none =>
    let trimmed := trimWsPayloadEdges payload
    match tryDecodeUtf16Json trimmed with
    | some utf16 => trimWsPayloadEdges utf16
    | none => trimmed

inductive WebsocketPayloadMode where
  | normalizeResponseCreate
  | passthrough
  deriving DecidableEq, Repr

structure PreparedWebsocketPayload where
  body : Bytes
  mode : WebsocketPayloadMode
  deriving DecidableEq

section Prepare

variable (lib : JsonLibrary)

def websocketObject (rawRequestBody : Bytes) : Option JsonObject :=
  let normalizedInput := stripInvalidUtf8Bytes (normalizeWebsocketRequestPayload rawRequestBody)
  let candidate :=
    ((tryExtractJsonObjectSlice normalizedInput).map normalizeWebsocketRequestPayload).getD normalizedInput
  (lib.readObject normalizedInput).or ((lib.readObject candidate).or
    (lib.readObject (escapeControlBytesInJsonStrings (stripInvalidUtf8Bytes candidate))))

def isResponseCreate (object : JsonObject) : Bool :=
  match object.find? (ofString "type") with
  | none => true
  | some type => type.string? = some (ofString "response.create")

def mergedRequest (object : JsonObject) : JsonObject :=
  let outer := object.filter fun field => field.1 ≠ ofString "type" ∧ field.1 ≠ ofString "response"
  let nested := ((object.find? (ofString "response")).bind Json.object?).getD []
  nested.foldl (fun merged field => merged.set field.1 field.2) outer

def responseCreateBody (normalized : JsonObject) : Normalized Bytes :=
  if normalized.isEmpty then .error (ofString "response.create payload is missing request body")
  else match lib.write (.object normalized) with
    | none => .error (ofString "failed to serialize response.create request payload")
    | some text =>
      let normalizedBody := sanitizeSerializedJson text
      let hardenedBody := escapeControlBytesInJsonStrings (stripInvalidUtf8Bytes normalizedBody)
      if (lib.readObject normalizedBody).isSome then .ok normalizedBody
      else if (lib.readObject hardenedBody).isSome then .ok hardenedBody
      else .error (ofString "failed to sanitize response.create request payload")

def responseCreateRequest (rawRequestBody : Bytes) : Option JsonObject :=
  ((websocketObject lib rawRequestBody).filter isResponseCreate).map mergedRequest

def prepareWebsocketRequestPayload (rawRequestBody : Bytes) : Normalized PreparedWebsocketPayload :=
  match responseCreateRequest lib rawRequestBody with
  | none => .ok ⟨rawRequestBody, .passthrough⟩
  | some normalized => (responseCreateBody lib normalized).map fun body => ⟨body, .normalizeResponseCreate⟩

def buildWebsocketResponseCreatePayloadJson (payloadJson : Bytes) : Normalized Bytes :=
  match lib.read payloadJson with
  | none => .error (ofString "payload is not valid JSON")
  | some (.object payload) =>
    match lib.write (.object (JsonObject.set payload (ofString "type") (.string (ofString "response.create")))) with
    | none => .error (ofString "failed to serialize provider contract JSON")
    | some text => .ok (sanitizeSerializedJson text)
  | some _ => .error (ofString "payload must be a JSON object")

def websocketRequestBody (rawRequestBody : Bytes) : Normalized Bytes := do
  let normalized ← normalizeRequest lib rawRequestBody
  buildWebsocketResponseCreatePayloadJson lib normalized

end Prepare

end Tightrope.Proxy
