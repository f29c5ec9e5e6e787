import Tightrope.Core.RenderedTexts
import Tightrope.Library.BitGroups
import Tightrope.Proxy.Openai.RequestSanitizing
import Tightrope.Proxy.WebsocketPayload

namespace Tightrope.Proxy

open Bytes Tightrope.Core Openai

-- A byte of a string that is still there when the text of the string has been repaired.
def survives (escape : UInt8 → Bytes) (c : UInt8) : Bool := escape c ≠ [c] || !isDisallowedJsonControlByte c

def repairedString (escape : UInt8 → Bytes) (s : Bytes) : Bytes := (stripInvalidUtf8Bytes s).filter (survives escape)

section Stripping

variable {escape : UInt8 → Bytes}

theorem escape_eq_of_tail (hescape : IsEscapeTable escape) {c : UInt8} (hc : Utf8.Tail c) : escape c = [c] := by
  obtain ⟨hself, -⟩ | ⟨hlow, -⟩ := hescape.cases c
  · exact hself
  · have hnat : c.toNat < 0x80 := hlow
    exact absurd hc.1 (by omega)

-- A sequence that begins in a string ends in it: neither an escape nor a quote continues it.
theorem tails_escaped_iff (hescape : IsEscapeTable escape) (s rest : Bytes) (n : ℕ) :
    (n ≤ (s.flatMap escape ++ 34 :: rest).length ∧ ∀ c ∈ (s.flatMap escape ++ 34 :: rest).take n, Utf8.Tail c) ↔
      n ≤ s.length ∧ ∀ c ∈ s.take n, Utf8.Tail c := by
  induction n generalizing s with
  | zero => simp
  | succ n ih =>
    cases s with
    | nil =>
      constructor
      · rintro ⟨-, htails⟩
        exact absurd (htails 34 List.mem_cons_self) (by unfold Utf8.Tail; decide)
      · rintro ⟨hle, -⟩
        cases hle
    | cons c s =>
      by_cases hc : Utf8.Tail c
      · rw [List.flatMap_cons, escape_eq_of_tail hescape hc, List.singleton_append, List.cons_append]
        simp only [List.length_cons, Nat.succ_le_succ_iff, List.take_succ_cons, List.forall_mem_cons, hc, true_and]
        exact ih s
      · constructor
        · rintro ⟨-, htails⟩
          obtain ⟨hself, -⟩ | ⟨-, name, more, heq, -⟩ := hescape.cases c
          · rw [List.flatMap_cons, hself] at htails
            exact absurd (htails c List.mem_cons_self) hc
          · rw [List.flatMap_cons, heq] at htails
            exact absurd (htails 92 List.mem_cons_self) (by unfold Utf8.Tail; decide)
        · rintro ⟨-, htails⟩
          exact absurd (htails c List.mem_cons_self) hc

theorem continuations_escaped (hescape : IsEscapeTable escape) (lead : UInt8) (s rest : Bytes) :
    continuations lead (s.flatMap escape ++ 34 :: rest) = continuations lead s := by
  have hwidth := sequenceWidth_cases lead
  apply Option.ext
  intro more
  rw [continuations_eq_some, continuations_eq_some]
  apply and_congr_right
  intro hmore
  apply and_congr_right
  intro hne
  rw [← and_assoc, ← and_assoc, tails_escaped_iff hescape]
  apply and_congr_right
  rintro ⟨hle, htails⟩
  cases s with
  | nil =>
    rw [List.length_nil] at hle
    omega
  | cons c s =>
    have hc := htails c (by rw [List.take_cons (by omega)]; exact List.mem_cons_self)
    rw [List.flatMap_cons, escape_eq_of_tail hescape hc]
    rfl

theorem stripFrom_ascii {text : Bytes} (h : ∀ c ∈ text, c ≤ 0x7F) (rest : Bytes) :
    stripFrom 0 (text ++ rest) = text ++ stripFrom 0 rest := by
  induction text with
  | nil => rfl
  | cons c text ih =>
    rw [List.cons_append, stripFrom, if_pos (h c List.mem_cons_self), ih fun d hd => h d (List.mem_cons_of_mem _ hd)]
    rfl

theorem ascii_of_isMark {c : UInt8} (h : isMark c = true) : c ≤ 0x7F := by
  simp only [isMark, Bool.and_eq_true, decide_eq_true_eq] at h
  exact le_of_lt h.1.2

theorem escape_ascii (hescape : IsEscapeTable escape) {c : UInt8} (hc : c ≤ 0x7F) : ∀ b ∈ escape c, b ≤ 0x7F := by
  intro b hb
  obtain ⟨hself, -⟩ | ⟨-, name, more, heq, hname, hmore⟩ := hescape.cases c
  · rw [hself] at hb
    obtain rfl := List.mem_singleton.mp hb
    exact hc
  · rw [heq] at hb
    obtain rfl | hb := List.mem_cons.mp hb
    · decide
    · obtain rfl | hb := List.mem_cons.mp hb
      · exact le_of_lt hname.2
      · exact ascii_of_isMark (hmore b hb).1

theorem escape_eq_of_high (hescape : IsEscapeTable escape) {c : UInt8} (hc : ¬ c ≤ 0x7F) : escape c = [c] := by
  obtain ⟨hself, -⟩ | ⟨hlow, -⟩ := hescape.cases c
  · exact hself
  · have hnat : c.toNat < 0x80 := hlow
    exact absurd (UInt8.le_iff_toNat_le.mpr (by simp only [UInt8.reduceToNat]; omega)) hc

theorem stripFrom_escaped (hescape : IsEscapeTable escape) (rest : Bytes) {more : ℕ} {s : Bytes}
    (hmore : more ≤ s.length ∧ ∀ c ∈ s.take more, Utf8.Tail c) :
    stripFrom more (s.flatMap escape ++ 34 :: rest) =
      (stripFrom more s).flatMap escape ++ 34 :: stripFrom 0 rest := by
  induction s generalizing more with
  | nil =>
    obtain rfl := Nat.le_zero.mp hmore.1
    rfl
  | cons c s ih =>
    cases more with
    | succ more =>
      obtain ⟨hle, htails⟩ := hmore
      rw [List.take_succ_cons, List.forall_mem_cons] at htails
      rw [List.flatMap_cons, escape_eq_of_tail hescape htails.1, List.singleton_append, List.cons_append, stripFrom,
        stripFrom, ih ⟨Nat.le_of_succ_le_succ hle, htails.2⟩, List.flatMap_cons, escape_eq_of_tail hescape htails.1]
      rfl
    | zero =>
      have hnone := @ih 0 ⟨Nat.zero_le _, by simp⟩
      by_cases hc : c ≤ 0x7F
      · rw [List.flatMap_cons, List.append_assoc, stripFrom_ascii (escape_ascii hescape hc), hnone,
          stripFrom, if_pos hc,
          List.flatMap_cons, List.append_assoc]
      · have hself := escape_eq_of_high hescape hc
        rw [List.flatMap_cons, hself, List.singleton_append, List.cons_append, stripFrom, if_neg hc, stripFrom,
          if_neg hc, continuations_escaped hescape]
        cases hcontinued : continuations c s with
        | none => exact hnone
        | some more =>
          obtain ⟨-, -, hle, htails, -⟩ := continuations_eq_some.mp hcontinued
          simp only
          rw [ih ⟨hle, htails⟩, List.flatMap_cons, hself]
          rfl

theorem rewritesStrings_strip (hescape : IsEscapeTable escape) :
    RewritesStrings escape escape stripInvalidUtf8Bytes stripInvalidUtf8Bytes where
  nil := rfl
  mark c rest hc := by
    rw [stripInvalidUtf8Bytes, stripFrom, if_pos (ascii_of_isMark hc)]
    rfl
  string s rest := by
    rw [quoted_append, quoted_append, stripInvalidUtf8Bytes, stripFrom, if_pos (by decide),
      stripFrom_escaped hescape rest ⟨Nat.zero_le _, by simp⟩]
    rfl

end Stripping

section Repairing

variable {escape : UInt8 → Bytes}

theorem repairText_marks {text : Bytes} (h : ∀ c ∈ text, isMark c = true ∧ c ≠ 92) (rest : Bytes) :
    repairText .inString (text ++ rest) = text ++ repairText .inString rest := by
  induction text with
  | nil => rfl
  | cons c text ih =>
    obtain ⟨hc, hbackslash⟩ := h c List.mem_cons_self
    simp only [isMark, Bool.and_eq_true, decide_eq_true_eq] at hc
    have hallowed : isDisallowedJsonControlByte c = false := by
      simp [isDisallowedJsonControlByte, not_lt.mpr hc.1.1, ne_of_lt hc.1.2]
    rw [List.cons_append, repairText, TextState.next, if_neg hbackslash, if_neg hc.2,
      ih fun d hd => h d (List.mem_cons_of_mem _ hd)]
    simp [repairedByte, hallowed]

theorem repairText_escape (hescape : IsEscapeTable escape) (c : UInt8) (rest : Bytes) :
    repairText .inString (escape c ++ rest) =
      (if survives escape c then escape c else []) ++ repairText .inString rest := by
  obtain ⟨hself, hother⟩ | ⟨-, name, more, heq, -, hmore⟩ := hescape.cases c
  · simp only [List.mem_cons, List.not_mem_nil, or_false, not_or] at hother
    obtain ⟨hquote, hbackslash, h8, h12, h10, h13, h9⟩ := hother
    have hsurvives : survives escape c = !isDisallowedJsonControlByte c := by simp [survives, hself]
    rw [hself, hsurvives, List.singleton_append, repairText, TextState.next, if_neg hbackslash, if_neg hquote,
      repairedByte]
    cases isDisallowedJsonControlByte c with
    | true => simp [h8, h12, h10, h13, h9]
    | false => rfl
  · have hsurvives : survives escape c = true := by
      rw [survives, heq]
      simp
    rw [hsurvives, heq, List.cons_append, List.cons_append, repairText, repairText]
    simp only [TextState.next, repairedByte, if_true]
    rw [repairText_marks hmore]
    rfl

theorem repairText_escaped (hescape : IsEscapeTable escape) (s rest : Bytes) :
    repairText .inString (s.flatMap escape ++ rest) =
      (s.filter (survives escape)).flatMap escape ++ repairText .inString rest := by
  induction s with
  | nil => rfl
  | cons c s ih =>
    rw [List.flatMap_cons, List.append_assoc, repairText_escape hescape, ih, List.filter_cons]
    split_ifs
    · rw [List.flatMap_cons, List.append_assoc]
    · rfl

theorem rewritesStrings_repair (hescape : IsEscapeTable escape) :
    RewritesStrings escape escape (List.filter (survives escape)) escapeControlBytesInJsonStrings where
  nil := rfl
  mark c rest hc := by
    simp only [isMark, Bool.and_eq_true, decide_eq_true_eq] at hc
    have hallowed : isDisallowedJsonControlByte c = false := by
      simp [isDisallowedJsonControlByte, not_lt.mpr hc.1.1, ne_of_lt hc.1.2]
    rw [escapeControlBytesInJsonStrings, repairText, TextState.next, if_neg hc.2]
    simp [repairedByte, hallowed, escapeControlBytesInJsonStrings]
  string s rest := by
    rw [quoted_append, quoted_append, escapeControlBytesInJsonStrings, repairText, TextState.next, if_pos rfl,
      repairText_escaped hescape, repairText]
    rfl

theorem rewritesStrings_sanitize (hescape : IsEscapeTable escape) :
    RewritesStrings escape escape (repairedString escape) sanitizeRequestJsonBytes where
  nil := rfl
  mark c rest hc := by
    rw [sanitizeRequestJsonBytes, (rewritesStrings_strip hescape).mark c rest hc,
      (rewritesStrings_repair hescape).mark c _ hc]
    rfl
  string s rest := by
    rw [sanitizeRequestJsonBytes, (rewritesStrings_strip hescape).string, (rewritesStrings_repair hescape).string]
    rfl

theorem repairedString_idem (escape : UInt8 → Bytes) : repairedString escape ∘ repairedString escape =
    repairedString escape := by
  funext s
  have hvalid : Utf8.Valid (repairedString escape s) := by
    apply (valid_stripInvalidUtf8Bytes s).filter
    intro b hb
    simp only [survives, Bool.or_eq_false_iff, Bool.not_eq_false', isDisallowedJsonControlByte, Bool.or_eq_true,
      decide_eq_true_eq] at hb
    obtain ⟨-, hlow | rfl⟩ := hb
    · have hnat : b.toNat < 0x20 := hlow
      omega
    · decide
  rw [Function.comp_apply]
  conv_lhs => rw [repairedString, stripInvalidUtf8Bytes_eq_self.mpr hvalid, repairedString, List.filter_filter]
  simp only [Bool.and_self, repairedString]

end Repairing

section Slicing

variable {escape : UInt8 → Bytes} {number : UInt64 → Bytes}

def isNumberByte (c : UInt8) : Bool := isMark c && c ≠ 123 && c ≠ 125

-- What is copied behind the brace that closes the object at the given depth.
def scanAfter (depth : ℕ) (rest : Bytes) : Option Bytes := if depth = 0 then some [] else scanObject .outside depth rest

theorem scanObject_plain (text : Bytes) (h : text.all isNumberByte = true) (depth : ℕ) (rest : Bytes) :
    scanObject .outside depth (text ++ rest) = (scanObject .outside depth rest).map (text ++ ·) := by
  induction text with
  | nil => simp
  | cons c text ih =>
    simp only [List.all_cons, Bool.and_eq_true, isNumberByte, isMark, decide_eq_true_eq] at h
    obtain ⟨⟨⟨⟨-, hquote⟩, hopen⟩, hclose⟩, htext⟩ := h
    rw [List.cons_append, scanObject, if_neg hopen, if_neg hclose, TextState.next, if_neg hquote,
      ih (by simpa using htext), Option.map_map]
    rfl

theorem scanObject_inString {text : Bytes} (h : ∀ c ∈ text, isMark c = true ∧ c ≠ 92) (depth : ℕ) (rest : Bytes) :
    scanObject .inString depth (text ++ rest) = (scanObject .inString depth rest).map (text ++ ·) := by
  induction text with
  | nil => simp
  | cons c text ih =>
    obtain ⟨hc, hbackslash⟩ := h c List.mem_cons_self
    simp only [isMark, Bool.and_eq_true, decide_eq_true_eq] at hc
    rw [List.cons_append, scanObject, TextState.next, if_neg hbackslash, if_neg hc.2,
      ih fun d hd => h d (List.mem_cons_of_mem _ hd), Option.map_map]
    rfl

theorem scanObject_quoted (hescape : IsEscapeTable escape) (depth : ℕ) (s rest : Bytes) :
    scanObject .outside depth (quoted escape s ++ rest) =
      (scanObject .outside depth rest).map (quoted escape s ++ ·) := by
  have hbody : ∀ rest, scanObject .inString depth (s.flatMap escape ++ rest) =
      (scanObject .inString depth rest).map (s.flatMap escape ++ ·) := by
    induction s with
    | nil => simp
    | cons c s ih =>
      intro rest
      rw [List.flatMap_cons, List.append_assoc]
      obtain ⟨hself, hother⟩ | ⟨-, name, more, heq, -, hmore⟩ := hescape.cases c
      · simp only [List.mem_cons, List.not_mem_nil, or_false, not_or] at hother
        obtain ⟨hquote, hbackslash, -⟩ := hother
        rw [hself, List.singleton_append, scanObject, TextState.next, if_neg hbackslash, if_neg hquote, ih,
          Option.map_map]
        rfl
      · rw [heq, List.cons_append, List.cons_append, scanObject, TextState.next, if_pos rfl, scanObject,
          scanObject_inString hmore, ih, Option.map_map, Option.map_map, Option.map_map]
        simp [Function.comp_def]
  rw [quoted_append, scanObject, if_neg (by decide), if_neg (by decide), TextState.next, if_pos rfl, hbody, scanObject,
    TextState.next, if_neg (by decide), if_pos rfl, Option.map_map, Option.map_map]
  simp [Function.comp_def, quoted]

mutual

theorem scanObject_render (hescape : IsEscapeTable escape) (hnumber : ∀ value, (number value).all isNumberByte = true)
    (depth : ℕ) : ∀ (json : Json) (rest : Bytes), scanObject .outside (depth + 1) (json.render escape number ++ rest) =
      (scanObject .outside (depth + 1) rest).map (json.render escape number ++ ·)
  | .null, rest => scanObject_plain (ofString "null") (by decide) (depth + 1) rest
  | .boolean true, rest => scanObject_plain (ofString "true") (by decide) (depth + 1) rest
  | .boolean false, rest => scanObject_plain (ofString "false") (by decide) (depth + 1) rest
  | .number value, rest => scanObject_plain (number value) (hnumber value) (depth + 1) rest
  | .string value, rest => scanObject_quoted hescape (depth + 1) value rest
  | .array [], rest => scanObject_plain [91, 93] (by decide) (depth + 1) rest
  | .array (item :: items), rest => by
    rw [Json.render, List.cons_append, List.append_assoc, scanObject, if_neg (by decide), if_neg (by decide),
      TextState.next, if_neg (by decide), scanObject_render hescape hnumber depth item,
      scanObject_renderItems hescape hnumber depth items, Option.map_map, Option.map_map]
    simp [Function.comp_def]
  | .object fields, rest => by
    obtain ⟨tail, htail, hscan⟩ := scanObject_object hescape hnumber (depth + 1) fields rest
    rw [htail, List.cons_append, scanObject, if_pos rfl, hscan, scanAfter, if_neg (Nat.succ_ne_zero depth),
      Option.map_map]
    simp [Function.comp_def]

theorem scanObject_renderItems (hescape : IsEscapeTable escape)
    (hnumber : ∀ value, (number value).all isNumberByte = true) (depth : ℕ) : ∀ (items : List Json) (rest : Bytes),
      scanObject .outside (depth + 1) (renderItems escape number items ++ rest) =
        (scanObject .outside (depth + 1) rest).map (renderItems escape number items ++ ·)
  | [], rest => scanObject_plain [93] (by decide) (depth + 1) rest
  | item :: items, rest => by
    rw [renderItems, List.cons_append, List.append_assoc, scanObject, if_neg (by decide), if_neg (by decide),
      TextState.next, if_neg (by decide), scanObject_render hescape hnumber depth item,
      scanObject_renderItems hescape hnumber depth items, Option.map_map, Option.map_map]
    simp [Function.comp_def]

theorem scanObject_object (hescape : IsEscapeTable escape) (hnumber : ∀ value, (number value).all isNumberByte = true)
    (depth : ℕ) : ∀ (fields : List (Bytes × Json)) (rest : Bytes), ∃ tail,
      (Json.object fields).render escape number = 123 :: tail ∧
        scanObject .outside (depth + 1) (tail ++ rest) = (scanAfter depth rest).map (tail ++ ·)
  | [], rest => ⟨[125], rfl, scanObject_renderFields hescape hnumber depth [] rest⟩
  | (key, value) :: fields, rest => by
    refine ⟨_, rfl, ?_⟩
    rw [List.append_assoc, List.cons_append, List.append_assoc, scanObject_quoted hescape, scanObject,
      if_neg (by decide), if_neg (by decide), TextState.next, if_neg (by decide),
      scanObject_render hescape hnumber depth value, scanObject_renderFields hescape hnumber depth fields,
      Option.map_map, Option.map_map, Option.map_map]
    simp [Function.comp_def]

theorem scanObject_renderFields (hescape : IsEscapeTable escape)
    (hnumber : ∀ value, (number value).all isNumberByte = true) (depth : ℕ) :
    ∀ (fields : List (Bytes × Json)) (rest : Bytes),
      scanObject .outside (depth + 1) (renderFields escape number fields ++ rest) =
        (scanAfter depth rest).map (renderFields escape number fields ++ ·)
  | [], rest => by
    rw [renderFields, List.singleton_append, scanObject, if_neg (by decide), if_pos rfl, scanAfter]
    by_cases hdepth : depth = 0
    · simp [hdepth]
    · simp [hdepth, Nat.add_eq_right]
  | (key, value) :: fields, rest => by
    rw [renderFields, List.cons_append, List.append_assoc, List.cons_append, List.append_assoc, scanObject,
      if_neg (by decide), if_neg (by decide), TextState.next, if_neg (by decide), scanObject_quoted hescape, scanObject,
      if_neg (by decide), if_neg (by decide), TextState.next, if_neg (by decide),
      scanObject_render hescape hnumber depth value, scanObject_renderFields hescape hnumber depth fields,
      Option.map_map, Option.map_map, Option.map_map, Option.map_map]
    simp [Function.comp_def]

end

theorem tryExtractJsonObjectSlice_render (hescape : IsEscapeTable escape)
    (hnumber : ∀ value, (number value).all isNumberByte = true) (fields : List (Bytes × Json)) :
    tryExtractJsonObjectSlice ((Json.object fields).render escape number) =
      some ((Json.object fields).render escape number) := by
  obtain ⟨tail, htail, hscan⟩ := scanObject_object hescape hnumber 0 fields []
  rw [List.append_nil] at hscan
  rw [htail, tryExtractJsonObjectSlice, List.dropWhile_cons_of_neg (by decide), scanObject, if_pos rfl, hscan]
  simp [scanAfter]

end Slicing

section Reading

variable {lib : JsonLibrary} {escape : UInt8 → Bytes} {number : UInt64 → Bytes} {fields object : JsonObject}
  {text : Bytes}

-- What the library reads in a rendered text, if it reads it, is the value that was rendered.
def ReadsRendering (lib : JsonLibrary) (escape : UInt8 → Bytes) (number : UInt64 → Bytes) : Prop :=
  ∀ json json' : Json, lib.read (json.render escape number) = some json' → json' = json.asMap

/-- A library that renders what it writes: it escapes no more than it has to, and it reads both such a text and one
with all control bytes escaped. -/
structure RendersJson (lib : JsonLibrary) (number : UInt64 → Bytes) : Prop where
  numbers : ∀ value, (number value).all isNumberByte = true
  written : ∀ json text, lib.write json = some text → text = json.render writtenByte number
  read : ReadsRendering lib writtenByte number
  readEscaped : ReadsRendering lib escapedByte number

def renderObject (number : UInt64 → Bytes) (fields : JsonObject) : Bytes :=
  (Json.object fields).render writtenByte number

-- The object that the library reads in a text written for the fields, where it reads that text at all.
def acceptedObject (lib : JsonLibrary) (number : UInt64 → Bytes) (fields : JsonObject) : Option JsonObject :=
  if (lib.read (renderObject number fields)).isSome then some fields.asMap else none

theorem isMark_of_isNumberByte (hnumber : ∀ value, (number value).all isNumberByte = true) (value : UInt64) :
    (number value).all isMark = true := by
  rw [List.all_eq_true]
  intro c hc
  have hbyte := List.all_eq_true.mp (hnumber value) c hc
  simp only [isNumberByte, Bool.and_eq_true] at hbyte
  exact hbyte.1.1

theorem readObject_rendered (hlib : RendersJson lib number) (fields : JsonObject) :
    lib.readObject (renderObject number fields) = acceptedObject lib number fields := by
  unfold JsonLibrary.readObject acceptedObject
  cases hread : lib.read (renderObject number fields) with
  | none => rfl
  | some json =>
    rw [hlib.read _ _ hread]
    rfl

theorem requestObject_rendered (hescape : IsEscapeTable escape)
    (hnumber : ∀ value, (number value).all isNumberByte = true) (hread : ReadsRendering lib escape number)
    (h : requestObject lib ((Json.object fields).render escape number) = .ok object) :
    object = (fields.mapStrings (repairedString escape)).asMap := by
  have hsanitize := (rewritesStrings_sanitize hescape).whole (isMark_of_isNumberByte hnumber)
  have hagain : ((Json.object fields).mapStrings (repairedString escape)).mapStrings (repairedString escape) =
      (Json.object fields).mapStrings (repairedString escape) := by
    rw [Json.mapStrings_mapStrings, repairedString_idem]
  have hread' : ∀ json, requestJson lib ((Json.object fields).render escape number) = some json →
      json = .object (fields.mapStrings (repairedString escape)).asMap := by
    intro json hjson
    rw [requestJson, hsanitize] at hjson
    -- The second reading is of the same text: the slice is the whole of it, and there is nothing left to repair.
    rw [Json.mapStrings, tryExtractJsonObjectSlice_render hescape hnumber, Option.map_some, Option.getD_some,
      hsanitize, ← Json.mapStrings, hagain] at hjson
    split at hjson
    · next first hfirst =>
      obtain rfl := Option.some.inj hjson
      exact hread _ _ hfirst
    · next hfirst =>
      rw [hfirst] at hjson
      cases hjson
  unfold requestObject at h
  split at h
  · cases h
  · next payload hjson =>
    obtain rfl := Except.ok.inj h
    exact Json.object.inj (hread' _ hjson)
  · cases h

theorem mem_of_mem_stripFrom {c : UInt8} {more : ℕ} {s : Bytes} (h : c ∈ stripFrom more s) : c ∈ s := by
  induction s generalizing more with
  | nil => cases more <;> cases h
  | cons d s ih =>
    cases more with
    | succ more =>
      obtain rfl | h := List.mem_cons.mp h
      · exact List.mem_cons_self
      · exact List.mem_cons_of_mem _ (ih h)
    | zero =>
      rw [stripFrom] at h
      split_ifs at h
      · obtain rfl | h := List.mem_cons.mp h
        · exact List.mem_cons_self
        · exact List.mem_cons_of_mem _ (ih h)
      · split at h
        · exact List.mem_cons_of_mem _ (ih h)
        · obtain rfl | h := List.mem_cons.mp h
          · exact List.mem_cons_self
          · exact List.mem_cons_of_mem _ (ih h)

theorem mem_of_mem_bytePairs {pair : UInt8 × UInt8} (h : pair ∈ bytePairs text) : pair.1 ∈ text ∧ pair.2 ∈ text := by
  induction text using bytePairs.induct with
  | case1 first second rest ih =>
    rw [bytePairs] at h
    obtain rfl | h := List.mem_cons.mp h
    · simp
    · exact ⟨List.mem_cons_of_mem _ (List.mem_cons_of_mem _ (ih h).1),
        List.mem_cons_of_mem _ (List.mem_cons_of_mem _ (ih h).2)⟩
  | case2 text hshort =>
    rw [bytePairs] at h
    · cases h
    · exact hshort

theorem guessEndianness_eq_none (hzero : 0 ∉ text) (hlength : 4 ≤ text.length) :
    guessEndianness (bytePairs text) = none := by
  have hpairs : ∀ pair ∈ (bytePairs text).take 64, pair.1 ≠ 0 ∧ pair.2 ≠ 0 := by
    intro pair hpair
    obtain ⟨hfirst, hsecond⟩ := mem_of_mem_bytePairs (List.mem_of_mem_take hpair)
    exact ⟨fun h => hzero (h ▸ hfirst), fun h => hzero (h ▸ hsecond)⟩
  have hpos : 0 < ((bytePairs text).take 64).length := by
    match text, hlength with
    | first :: second :: rest, _ => simp [bytePairs]
  have heven : ((bytePairs text).take 64).countP (fun pair => decide (pair.1 = 0)) = 0 := by
    rw [List.countP_eq_zero]
    exact fun pair hpair => by simpa using (hpairs pair hpair).1
  have hodd : ((bytePairs text).take 64).countP (fun pair => decide (pair.2 = 0)) = 0 := by
    rw [List.countP_eq_zero]
    exact fun pair hpair => by simpa using (hpairs pair hpair).2
  unfold guessEndianness
  simp only [heven, hodd]
  rw [if_neg (by omega), if_neg (by omega)]

theorem normalizeWebsocketRequestPayload_rendered (hzero : 0 ∉ renderObject number fields) :
    normalizeWebsocketRequestPayload (renderObject number fields) = renderObject number fields := by
  obtain ⟨body, hbody⟩ := render_object_ends writtenByte number fields
  change renderObject number fields = _ at hbody
  have hutf16 : tryDecodeUtf16Json (renderObject number fields) = none := by
    unfold tryDecodeUtf16Json
    split_ifs with hshort
    · rfl
    · rw [not_or] at hshort
      split
      · next h => rw [hbody] at h; exact absurd (List.cons.inj h).1 (by decide)
      · next h => rw [hbody] at h; exact absurd (List.cons.inj h).1 (by decide)
      · rw [guessEndianness_eq_none hzero (by omega)]
        rfl
  have htrim : trimWsPayloadEdges (renderObject number fields) = renderObject number fields := by
    rw [hbody, trimWsPayloadEdges]
    change ((123 :: (body ++ [125])).dropWhile isAsciiWsTrimChar).rdropWhile isAsciiWsTrimChar = _
    rw [List.dropWhile_cons_of_neg (by decide), ← List.cons_append, List.rdropWhile_concat_neg _ _ _ (by decide)]
  unfold normalizeWebsocketRequestPayload
  rw [hutf16]
  simp only [htrim, hutf16]

theorem websocketObject_rendered (hlib : RendersJson lib number) (hzero : 0 ∉ renderObject number fields) :
    websocketObject lib (renderObject number fields) =
      (acceptedObject lib number (fields.mapStrings stripInvalidUtf8Bytes)).or
        (acceptedObject lib number (fields.mapStrings (repairedString writtenByte))) := by
  have hmarks := isMark_of_isNumberByte hlib.numbers
  have hstrip : stripInvalidUtf8Bytes (renderObject number fields) =
      renderObject number (fields.mapStrings stripInvalidUtf8Bytes) :=
    (rewritesStrings_strip isEscapeTable_writtenByte).whole hmarks (.object fields)
  have hzero' : 0 ∉ renderObject number (fields.mapStrings stripInvalidUtf8Bytes) := by
    rw [← hstrip]
    exact fun h => hzero (mem_of_mem_stripFrom h)
  have hslice : tryExtractJsonObjectSlice (renderObject number (fields.mapStrings stripInvalidUtf8Bytes)) =
      some (renderObject number (fields.mapStrings stripInvalidUtf8Bytes)) :=
    tryExtractJsonObjectSlice_render isEscapeTable_writtenByte hlib.numbers _
  have hcomp : repairedString writtenByte ∘ stripInvalidUtf8Bytes = repairedString writtenByte := by
    funext s
    rw [Function.comp_apply, repairedString, stripInvalidUtf8Bytes_eq_self.mpr (valid_stripInvalidUtf8Bytes s),
      repairedString]
  have hrepair : escapeControlBytesInJsonStrings (stripInvalidUtf8Bytes
      (renderObject number (fields.mapStrings stripInvalidUtf8Bytes))) =
        renderObject number (fields.mapStrings (repairedString writtenByte)) := by
    change sanitizeRequestJsonBytes _ = _
    have hagain := (rewritesStrings_sanitize isEscapeTable_writtenByte).whole hmarks
      ((Json.object fields).mapStrings stripInvalidUtf8Bytes)
    rw [Json.mapStrings_mapStrings, hcomp] at hagain
    exact hagain
  unfold websocketObject
  rw [normalizeWebsocketRequestPayload_rendered hzero, hstrip]
  simp only [hslice, Option.map_some, Option.getD_some, normalizeWebsocketRequestPayload_rendered hzero', hrepair,
    readObject_rendered hlib]
  cases acceptedObject lib number (fields.mapStrings stripInvalidUtf8Bytes) <;> rfl

/-- The object that the normalizer finds in the text of a merged request. -/
theorem requestObject_responseCreateBody (hlib : RendersJson lib number)
    (hbody : responseCreateBody lib fields = .ok text) (h : requestObject lib text = .ok object) :
    object = (fields.mapStrings (repairedString escapedByte)).asMap := by
  unfold responseCreateBody at hbody
  split_ifs at hbody with hempty
  split at hbody
  · cases hbody
  · next written hwrite =>
    have hescaped : sanitizeSerializedJson written = (Json.object fields).render escapedByte number := by
      rw [hlib.written _ _ hwrite, sanitizeSerializedJson_render (isMark_of_isNumberByte hlib.numbers)]
    have hhardened : escapeControlBytesInJsonStrings (stripInvalidUtf8Bytes
        ((Json.object fields).render escapedByte number)) =
          (Json.object (fields.mapStrings (repairedString escapedByte))).render escapedByte number :=
      (rewritesStrings_sanitize isEscapeTable_escapedByte).whole (isMark_of_isNumberByte hlib.numbers) _
    simp only [hescaped, hhardened] at hbody
    split_ifs at hbody
    · obtain rfl := Except.ok.inj hbody
      exact requestObject_rendered isEscapeTable_escapedByte hlib.numbers hlib.readEscaped h
    · obtain rfl := Except.ok.inj hbody
      rw [requestObject_rendered isEscapeTable_escapedByte hlib.numbers hlib.readEscaped h, JsonObject.mapStrings,
        JsonObject.mapStrings, mapFieldStrings_mapFieldStrings, repairedString_idem]

theorem rendersJson_renderingLibrary : RendersJson renderingLibrary numberText where
  numbers _ := (by decide : [48].all isNumberByte = true)
  written json text h := by
    obtain ⟨hascii, htext⟩ := Option.ite_none_right_eq_some.mp h
    rw [← Option.some.inj htext, render_writtenByte json hascii, rendered]
  read _ _ h :=
    readRendered_render readsQuoted_writtenByte beginsWithDigit_numberText (Option.filter_eq_some_iff.mp h).1
  readEscaped _ _ h :=
    readRendered_render readsQuoted_escapedByte beginsWithDigit_numberText (Option.filter_eq_some_iff.mp h).1

end Reading

section Kept

variable {lib : JsonLibrary} {number : UInt64 → Bytes}

-- No byte of the text is lost when a body that holds it is repaired.
def KeptText (text : Bytes) : Prop := text.all (survives writtenByte) = true

instance : DecidablePred KeptText := fun _ => inferInstanceAs (Decidable (_ = true))

def isAllowed (c : UInt8) : Bool := !isDisallowedJsonControlByte c

/-- Of the control bytes the library writes only those in texts that have no short escape. -/
def WritesAllowed (lib : JsonLibrary) : Prop :=
  ∀ json text, (∀ s ∈ json.texts, KeptText s) → lib.write json = some text → text.all isAllowed = true

theorem survives_of_isPlainByte {c : UInt8} (h : isPlainByte c = true) : survives writtenByte c = true :=
  Nibbles.forall_byte (P := fun c => isPlainByte c = true → survives writtenByte c = true) (by decide +kernel) c h

instance : TextProperty KeptText where
  plain h := List.all_eq_true.mpr fun c hc => survives_of_isPlainByte (List.all_eq_true.mp h c hc)
  append hfirst hlast := by
    unfold KeptText at hfirst hlast ⊢
    rw [List.all_append, hfirst, hlast]
    rfl

theorem all_isAllowed_writtenByte {c : UInt8} (h : survives writtenByte c = true) :
    (writtenByte c).all isAllowed = true :=
  Nibbles.forall_byte (P := fun c => survives writtenByte c = true → (writtenByte c).all isAllowed = true)
    (by decide +kernel) c h

theorem all_isAllowed_quoted {text : Bytes} (h : KeptText text) : (quoted writtenByte text).all isAllowed = true := by
  have hbody : (text.flatMap writtenByte).all isAllowed = true := by
    rw [List.all_flatMap, List.all_eq_true]
    exact fun c hc => all_isAllowed_writtenByte (List.all_eq_true.mp h c hc)
  rw [quoted, List.all_cons, List.all_append, hbody]
  decide

theorem all_isAllowed_number (hnumber : ∀ value, (number value).all isNumberByte = true) (value : UInt64) :
    (number value).all isAllowed = true := by
  have hmarks := isMark_of_isNumberByte hnumber value
  rw [List.all_eq_true] at hmarks ⊢
  intro c hc
  exact Nibbles.forall_byte (P := fun c => isMark c = true → isAllowed c = true) (by decide +kernel) c (hmarks c hc)

mutual

theorem all_isAllowed_render (hnumber : ∀ value, (number value).all isNumberByte = true) : ∀ json : Json,
    (∀ s ∈ json.texts, KeptText s) → (json.render writtenByte number).all isAllowed = true
  | .null, _ | .boolean true, _ | .boolean false, _ | .array [], _ | .object [], _ => by
    rw [Json.render]
    decide
  | .number value, _ => all_isAllowed_number hnumber value
  | .string value, h => all_isAllowed_quoted (h value (List.mem_singleton.mpr rfl))
  | .array (item :: items), h => by
    obtain ⟨hitem, hitems⟩ := List.forall_mem_append.mp h
    rw [Json.render, List.all_cons, List.all_append, all_isAllowed_render hnumber item hitem,
      all_isAllowed_renderItems hnumber items hitems]
    decide
  | .object ((key, value) :: fields), h => by
    obtain ⟨hkey, hrest⟩ := List.forall_mem_cons.mp h
    obtain ⟨hvalue, hfields⟩ := List.forall_mem_append.mp hrest
    rw [Json.render, List.all_cons, List.all_append, List.all_cons, List.all_append, all_isAllowed_quoted hkey,
      all_isAllowed_render hnumber value hvalue, all_isAllowed_renderFields hnumber fields hfields]
    decide

theorem all_isAllowed_renderItems (hnumber : ∀ value, (number value).all isNumberByte = true) : ∀ items : List Json,
    (∀ s ∈ itemTexts items, KeptText s) → (renderItems writtenByte number items).all isAllowed = true
  | [], _ => by
    rw [renderItems]
    decide
  | item :: items, h => by
    obtain ⟨hitem, hitems⟩ := List.forall_mem_append.mp h
    rw [renderItems, List.all_cons, List.all_append, all_isAllowed_render hnumber item hitem,
      all_isAllowed_renderItems hnumber items hitems]
    decide

theorem all_isAllowed_renderFields (hnumber : ∀ value, (number value).all isNumberByte = true) :
    ∀ fields : List (Bytes × Json), (∀ s ∈ fieldTexts fields, KeptText s) →
      (renderFields writtenByte number fields).all isAllowed = true
  | [], _ => by
    rw [renderFields]
    decide
  | (key, value) :: fields, h => by
    obtain ⟨hkey, hrest⟩ := List.forall_mem_cons.mp h
    obtain ⟨hvalue, hfields⟩ := List.forall_mem_append.mp hrest
    rw [renderFields, List.all_cons, List.all_append, List.all_cons, List.all_append, all_isAllowed_quoted hkey,
      all_isAllowed_render hnumber value hvalue, all_isAllowed_renderFields hnumber fields hfields]
    decide

end

theorem RendersJson.writesAllowed (hlib : RendersJson lib number) : WritesAllowed lib := by
  intro json text htexts hwrite
  rw [hlib.written json text hwrite]
  exact all_isAllowed_render hlib.numbers json htexts

end Kept

end Tightrope.Proxy
