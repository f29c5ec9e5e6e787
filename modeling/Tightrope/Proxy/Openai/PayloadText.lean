import Tightrope.Core.JsonText

namespace Tightrope.Proxy.Openai

open Bytes Tightrope.Core

def buildErrorEnvelope (code message type param : Bytes) : Bytes :=
  ofString "\x7b\"error\":\x7b\"message\":\"" ++ escapeJsonString message ++ ofString "\",\"type\":\"" ++
    escapeJsonString type ++ ofString "\",\"code\":\"" ++ escapeJsonString code ++ ofString "\"" ++
    (if param = [] then [] else ofString ",\"param\":\"" ++ escapeJsonString param ++ ofString "\"") ++
      ofString "\x7d\x7d"

def isJsonWhitespaceByte (c : UInt8) : Bool := c = 0x09 || c = 0x0A || c = 0x0D || c = 0x20

def isDisallowedJsonControlByte (c : UInt8) : Bool := c < 0x20 || c = 0x7F

def sequenceWidth (lead : UInt8) : ℕ :=
  if 0xC2 ≤ lead ∧ lead ≤ 0xDF then 2
  else if 0xE0 ≤ lead ∧ lead ≤ 0xEF then 3
  else if 0xF0 ≤ lead ∧ lead ≤ 0xF4 then 4
  else 0

def isContinuation (c : UInt8) : Bool := c &&& 0xC0 = 0x80

def secondByteAllowed (lead second : UInt8) : Bool :=
  !((lead = 0xE0 && second < 0xA0) || (lead = 0xED && second > 0x9F) || (lead = 0xF0 && second < 0x90) ||
    (lead = 0xF4 && second > 0x8F))

def continuations (lead : UInt8) (rest : Bytes) : Option ℕ :=
  let more := sequenceWidth lead - 1
  if sequenceWidth lead = 0 then none
  else if rest.length < more then none
  else if !(rest.take more).all isContinuation then none
  else if !secondByteAllowed lead (rest.headD 0) then none
  else some more

def stripFrom : ℕ → Bytes → Bytes
  | _, [] => []
  | more + 1, c :: rest => c :: stripFrom more rest
  | 0, lead :: rest =>
    if lead ≤ 0x7F then lead :: stripFrom 0 rest
    else match continuations lead rest with
      | none => stripFrom 0 rest
      | some more => lead :: stripFrom more rest

def stripInvalidUtf8Bytes (input : Bytes) : Bytes := stripFrom 0 input

def scanObject : TextState → ℕ → Bytes → Option Bytes
  | _, _, [] => none
  | .inString, depth, c :: rest => (scanObject (TextState.inString.next c) depth rest).map (c :: ·)
  | .escaped, depth, c :: rest => (scanObject .inString depth rest).map (c :: ·)
  | .outside, depth, c :: rest =>
    if c = 123 then (scanObject .outside (depth + 1) rest).map (c :: ·)
    else if c = 125 then
      if depth = 1 then some [c] else (scanObject .outside (depth - 1) rest).map (c :: ·)
    else (scanObject (TextState.outside.next c) depth rest).map (c :: ·)

def tryExtractJsonObjectSlice (payload : Bytes) : Option Bytes := scanObject .outside 0 (payload.dropWhile (· ≠ 123))

def repairedByte (state : TextState) (c : UInt8) : Bytes :=
  match state with
  | .outside => if isDisallowedJsonControlByte c && !isJsonWhitespaceByte c then [] else [c]
  | .escaped => [c]
  | .inString =>
    if isDisallowedJsonControlByte c then
      if c = 8 then ofString "\\b"
      else if c = 12 then ofString "\\f"
      else if c = 10 then ofString "\\n"
      else if c = 13 then ofString "\\r"
      else if c = 9 then ofString "\\t"
      else []
    else [c]

def repairText : TextState → Bytes → Bytes
  | _, [] => []
  | state, c :: rest => repairedByte state c ++ repairText (state.next c) rest

def escapeControlBytesInJsonStrings (payload : Bytes) : Bytes := repairText .outside payload

def sanitizeRequestJsonBytes (payload : Bytes) : Bytes :=
  escapeControlBytesInJsonStrings (stripInvalidUtf8Bytes payload)

end Tightrope.Proxy.Openai
