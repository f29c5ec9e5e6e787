import Mathlib.Data.List.Infix
import Tightrope.Core.Ascii
import Tightrope.Core.Json

namespace Tightrope.Proxy

open Bytes Tightrope.Core

def terminalTypes : List Bytes :=
  ["response.completed", "response.incomplete", "response.failed", "error"].map ofString

def terminalMarkers : List Bytes :=
  ["response.completed", "response.incomplete", "response.failed", "\"error\""].map ofString

def terminalCandidate (payload : Bytes) : Bool := terminalMarkers.any (containsText payload)

variable (lib : JsonLibrary) (payload : Bytes)

def websocketStreamEventTerminal : Bool :=
  if !terminalCandidate payload then false
  else
    match lib.read payload with
    | some (.object object) =>
      match JsonObject.string? object (ofString "type") with
      | none => false
      | some type => terminalTypes.contains type
    | _ => false

/-- The payload is a JSON object whose type, escapes decoded, ends the stream. -/
def IsTerminal : Prop := ∃ type ∈ terminalTypes, lib.readString payload (ofString "type") = some type

/-- The reader finds no string in an object that the text does not spell out, unless there is a backslash in it. -/
def SpelledOut : Prop :=
  ∀ text object key value, lib.readObject text = some object → object.string? key = some value → 92 ∉ text →
    34 :: value ++ [34] <:+: text

variable {lib payload}

theorem websocketStreamEventTerminal_iff :
    websocketStreamEventTerminal lib payload = true ↔ terminalCandidate payload = true ∧ IsTerminal lib payload := by
  unfold websocketStreamEventTerminal IsTerminal JsonLibrary.readString JsonLibrary.readObject
  cases terminalCandidate payload with
  | false => simp
  | true =>
    rw [if_neg (by decide)]
    cases hread : lib.read payload with
    | none => simp
    | some json =>
      cases json with
      | object object =>
        cases htype : JsonObject.string? object (ofString "type") with
        | none => simp [Json.object?, htype]
        | some type => simp [Json.object?, htype]
      | _ => simp [Json.object?]

theorem containsText_of_infix {value part : Bytes} (h : part <:+: value) : containsText value part = true := by
  obtain ⟨rest, hstart, hrest⟩ := List.infix_iff_prefix_suffix.mp h
  exact List.any_eq_true.mpr ⟨rest, (List.mem_tails rest value).mpr hrest, List.isPrefixOf_iff_prefix.mpr hstart⟩

theorem candidate_of_spelled {type : Bytes} (htype : type ∈ terminalTypes) (h : 34 :: type ++ [34] <:+: payload) :
    terminalCandidate payload = true := by
  have hmarker : ∀ type ∈ terminalTypes, ∃ marker ∈ terminalMarkers, marker <:+: 34 :: type ++ [34] := by decide
  obtain ⟨marker, hmem, hsub⟩ := hmarker type htype
  exact List.any_eq_true.mpr ⟨marker, hmem, containsText_of_infix (hsub.trans h)⟩

/-- The search and the full parse agree exactly where a terminal type leaves a trace in the payload's own bytes; without
a backslash it always does. -/
theorem terminal_fast_path_iff (lib : JsonLibrary) (payload : Bytes) :
    ((websocketStreamEventTerminal lib payload = true ↔ IsTerminal lib payload) ↔
      (IsTerminal lib payload → terminalCandidate payload = true)) ∧
    (SpelledOut lib → 92 ∉ payload → (websocketStreamEventTerminal lib payload = true ↔ IsTerminal lib payload)) := by
  constructor
  · rw [websocketStreamEventTerminal_iff]
    exact ⟨fun hagree hterminal => (hagree.mpr hterminal).1,
      fun htrace => ⟨And.right, fun hterminal => ⟨htrace hterminal, hterminal⟩⟩⟩
  · intro hspelled hplain
    rw [websocketStreamEventTerminal_iff]
    refine ⟨And.right, fun hterminal => ⟨?_, hterminal⟩⟩
    obtain ⟨type, htype, hread⟩ := hterminal
    obtain ⟨object, hobject, hstring⟩ := Option.bind_eq_some_iff.mp hread
    exact candidate_of_spelled htype (hspelled payload object _ type hobject hstring hplain)

def plainError : Bytes := ofString "\x7b\"type\":\"error\"\x7d"

def plainErrorLibrary : JsonLibrary where
  read text := if text = plainError then some (.object [(ofString "type", .string (ofString "error"))]) else none
  write _ := none

theorem spelledOut_plainErrorLibrary : SpelledOut plainErrorLibrary := by
  intro text object key value hread hstring _
  obtain ⟨json, hjson, hobject⟩ := Option.bind_eq_some_iff.mp hread
  obtain ⟨rfl, hjson⟩ := Option.ite_none_right_eq_some.mp hjson
  obtain rfl := Option.some.inj hjson
  obtain rfl := Option.some.inj hobject
  rw [JsonObject.string?, JsonObject.find?, FlatMap.findEntry] at hstring
  split_ifs at hstring
  · obtain rfl := Option.some.inj hstring
    exact ⟨ofString "\x7b\"type\":", ofString "\x7d", by decide⟩
  · cases hstring

theorem plain_error_is_seen :
    websocketStreamEventTerminal plainErrorLibrary plainError = true ↔ IsTerminal plainErrorLibrary plainError :=
  (terminal_fast_path_iff plainErrorLibrary plainError).2 spelledOut_plainErrorLibrary (by decide)

def escapedError : Bytes := ofString "\x7b\"type\":\"\\u0065rror\"\x7d"

def escapedErrorLibrary : JsonLibrary where
  read text := if text = escapedError then some (.object [(ofString "type", .string (ofString "error"))]) else none
  write _ := none

theorem escaped_error_is_missed :
    IsTerminal escapedErrorLibrary escapedError ∧
      websocketStreamEventTerminal escapedErrorLibrary escapedError = false :=
  ⟨⟨ofString "error", by decide, by decide⟩, by decide⟩

end Tightrope.Proxy
