import Tightrope.Core.JsonText
import Tightrope.Library.Fallible
import Tightrope.Library.StreamDecoding
import Tightrope.Server.ServerRoutes

namespace Tightrope.Server.Middleware

open Bytes Tightrope.Core Proxy Fallible StreamDecoding

section Codecs

inductive ZlibCode where
  | ok
  | streamEnd
  | other
  deriving DecidableEq, Repr

inductive ZstdCode where
  | error
  | remaining (hint : ℕ)
  deriving DecidableEq, Repr

inductive BrotliCode where
  | success
  | error
  | needsMoreInput
  | needsMoreOutput
  deriving DecidableEq, Repr

structure Codecs where
  gzip : StreamDecoder ZlibCode
  deflate : StreamDecoder ZlibCode
  zstd : Option (StreamDecoder ZstdCode)
  brotli : Option (StreamDecoder BrotliCode)

inductive DecompressError where
  | unsupported
  | tooLarge
  | failed (text : Bytes)
  | stuck
  deriving DecidableEq, Repr

abbrev Decompressed := Except DecompressError Bytes

def bufferSize : ℕ := 64 * 1024

def zlibDriver : Driver ZlibCode DecompressError where
  broken _ := none
  verdict code _ := match code with
    | .ok => .goesOn
    | .streamEnd => .finished
    | .other => .fails (.failed (ofString "inflate failed"))
  tooLarge := .tooLarge
  stuck := .stuck

def zstdDriver : Driver ZstdCode DecompressError where
  broken code := match code with
    | .error => some (.failed (ofString "zstd decompress failed"))
    | .remaining _ => none
  -- The loop goes on while there is input.
  verdict code left := if left ≠ [] then .goesOn else match code with
    | .remaining 0 => .finished
    | _ => .fails (.failed (ofString "zstd stream incomplete"))
  tooLarge := .tooLarge
  stuck := .stuck

def brotliDriver : Driver BrotliCode DecompressError where
  broken _ := none
  verdict code left := match code with
    | .success => .finished
    | .error => .fails (.failed (ofString "brotli decompress failed"))
    | .needsMoreInput => if left = [] then .fails (.failed (ofString "brotli stream incomplete")) else .goesOn
    | .needsMoreOutput => .goesOn
  tooLarge := .tooLarge
  stuck := .stuck

def driveFrom {Code : Type} (driver : Driver Code DecompressError) (decoder : StreamDecoder Code) (unmade : String)
    (input : Bytes) (maxSize : ℕ) : Decompressed :=
  match decoder.start with
  | none => .error (.failed (ofString unmade))
  | some state => drive driver decoder maxSize (input.length + maxSize + 1) state input []

-- `avail_in` holds the size modulo 2³².
def inflateWithWindowBits (decoder : StreamDecoder ZlibCode) (input : Bytes) (maxSize : ℕ) : Decompressed :=
  driveFrom zlibDriver decoder "inflate init failed" (input.take (input.length % 2 ^ 32)) maxSize

def decompressZstd (decoder : StreamDecoder ZstdCode) (input : Bytes) (maxSize : ℕ) : Decompressed :=
  if decoder.start.isSome ∧ input = [] then .error (.failed (ofString "zstd stream incomplete"))
  else driveFrom zstdDriver decoder "zstd context allocation failed" input maxSize

def decompressBrotli (decoder : StreamDecoder BrotliCode) (input : Bytes) (maxSize : ℕ) : Decompressed :=
  driveFrom brotliDriver decoder "brotli context allocation failed" input maxSize

def identityName : Bytes := ofString "identity"
def gzipName : Bytes := ofString "gzip"
def deflateName : Bytes := ofString "deflate"
def brotliName : Bytes := ofString "br"
def zstdName : Bytes := ofString "zstd"

def decompressOne (codecs : Codecs) (input encoding : Bytes) (maxSize : ℕ) : Decompressed :=
  if encoding = identityName then .ok input
  else match codecs.zstd.filter fun _ => encoding = zstdName || encoding = ofString "zst" with
    | some decoder => decompressZstd decoder input maxSize
    | none =>
      match codecs.brotli.filter fun _ => encoding = brotliName with
      | some decoder => decompressBrotli decoder input maxSize
      | none =>
        if encoding = gzipName then inflateWithWindowBits codecs.gzip input maxSize
        else if encoding = deflateName then inflateWithWindowBits codecs.deflate input maxSize
        else .error .unsupported

end Codecs

section Request

def findHeader (headers : HeaderMap) (name : Bytes) : Bytes :=
  ((headers.find? fun header => equalsCaseInsensitive header.1 name).map Prod.snd).getD []

def headerValueContains (headers : HeaderMap) (name needle : Bytes) : Bool :=
  findHeader headers name ≠ [] && containsText (toLowerAscii (findHeader headers name)) (toLowerAscii needle)

def encodingToken (piece : Bytes) : Bytes :=
  let token := trimAscii piece
  toLowerAscii (if token.contains 59 then trimAscii (token.takeWhile (· ≠ 59)) else token)

def parseContentEncodings (value : Bytes) : List Bytes := ((value.splitOn 44).map encodingToken).filter (· ≠ [])

def looksLikeZstdFrame (body : Bytes) : Bool := startsWith body [0x28, 0xB5, 0x2F, 0xFD]

def looksLikeGzipFrame (body : Bytes) : Bool := startsWith body [0x1F, 0x8B]

def maybeDecompressUndeclaredJsonBody (codecs : Codecs) (body : Bytes) (headers : HeaderMap) (maxSize : ℕ) :
    Option Bytes :=
  if !headerValueContains headers (ofString "content-type") (ofString "json") then none
  else if looksLikeZstdFrame body then (decompressOne codecs body zstdName maxSize).toOption
  else if looksLikeGzipFrame body then (decompressOne codecs body gzipName maxSize).toOption
  else none

structure DecompressionResult where
  ok : Bool := true
  status : ℕ := 200
  body : Bytes := []
  errorBody : Bytes := []
  headers : HeaderMap := []
  deriving DecidableEq, Repr

def dashboardErrorJson (code message : Bytes) : Bytes :=
  ofString "\x7b\"error\":\x7b\"code\":" ++ quoteJsonString code ++ ofString ",\"message\":" ++
    quoteJsonString message ++
    ofString "\x7d\x7d"

def failure (status : ℕ) (code message : String) : DecompressionResult :=
  { ok := false, status, errorBody := dashboardErrorJson (ofString code) (ofString message) }

def refused : DecompressError → DecompressionResult
  | .unsupported => failure 400 "invalid_request" "Unsupported Content-Encoding"
  | .tooLarge => failure 413 "payload_too_large" "Request body exceeds the maximum allowed size"
  | .failed _ | .stuck => failure 400 "invalid_request" "Request body is compressed but could not be decompressed"

variable (order : IterationOrder) (codecs : Codecs)

def decompressed (headers : HeaderMap) (body : Bytes) : DecompressionResult :=
  { body, headers := stripContentEncodingHeaders order headers (decimal body.length) }

def decompressAll (encodings : List Bytes) (body : Bytes) (maxSize : ℕ) : Decompressed :=
  encodings.reverse.foldlM (fun form encoding => decompressOne codecs form encoding maxSize) body

def decompressRequestBody (body : Bytes) (headers : HeaderMap) (maxSize : ℕ) : DecompressionResult :=
  let contentEncoding := findHeader headers contentEncodingName
  if contentEncoding = [] then
    match maybeDecompressUndeclaredJsonBody codecs body headers maxSize with
    | some sniffed => decompressed order headers sniffed
    | none => { body, headers }
  else
    let encodings := parseContentEncodings contentEncoding
    if encodings = [] then { body, headers }
    else match decompressAll codecs encodings body maxSize with
      | .error error => refused error
      | .ok payload =>
        if encodings.all (· = identityName) then
          decompressed order headers ((maybeDecompressUndeclaredJsonBody codecs payload headers maxSize).getD payload)
        else decompressed order headers payload

end Request

end Tightrope.Server.Middleware
