import Tightrope.Core.JsonRendering
import Tightrope.Core.SoundJson

namespace Tightrope.Core

open Bytes JsonGrammar
open JsonBytes (readString)

section Sanitizing

theorem sanitizeText_marks {text : Bytes} (h : ∀ c ∈ text, isMark c = true ∧ c ≠ 92) (rest : Bytes) :
    sanitizeText .inString (text ++ rest) = text ++ sanitizeText .inString rest := by
  induction text with
  | nil => rfl
  | cons c text ih =>
    obtain ⟨hc, hbackslash⟩ := h c List.mem_cons_self
    simp only [isMark, Bool.and_eq_true, decide_eq_true_eq] at hc
    rw [List.cons_append, sanitizeText, TextState.next, if_neg hbackslash, if_neg hc.2,
      ih fun d hd => h d (List.mem_cons_of_mem _ hd), if_neg fun hlow => absurd hlow.2 (not_lt.mpr hc.1.1)]
    rfl

theorem sanitizeText_writtenByte (c : UInt8) (rest : Bytes) :
    sanitizeText .inString (writtenByte c ++ rest) = escapedByte c ++ sanitizeText .inString rest := by
  obtain ⟨hself, hother⟩ | ⟨-, name, more, heq, hname, hmore⟩ := isEscapeTable_writtenByte.cases c
  · simp only [List.mem_cons, List.not_mem_nil, or_false, not_or] at hother
    obtain ⟨hquote, hbackslash, -⟩ := hother
    rw [hself, List.singleton_append, sanitizeText, TextState.next, if_neg hbackslash, if_neg hquote, escapedByte,
      if_neg hquote, if_neg hbackslash]
    simp
  · rw [escapedByte_of_escaped heq, heq, List.cons_append, List.cons_append, sanitizeText, sanitizeText]
    simp only [TextState.next, if_true]
    rw [if_neg fun hlow => absurd hlow.2 (by decide), if_neg fun hescaped => TextState.noConfusion hescaped.1,
      sanitizeText_marks hmore]
    rfl

theorem quoted_append (escape : UInt8 → Bytes) (s rest : Bytes) :
    quoted escape s ++ rest = 34 :: (s.flatMap escape ++ 34 :: rest) := by
  rw [quoted, List.cons_append, List.append_assoc, List.singleton_append]

theorem rewritesStrings_sanitizeSerialized : RewritesStrings writtenByte escapedByte id sanitizeSerializedJson where
  nil := rfl
  mark c rest hc := by
    simp only [isMark, Bool.and_eq_true, decide_eq_true_eq] at hc
    rw [sanitizeSerializedJson, sanitizeText, TextState.next, if_neg hc.2]
    rfl
  string s rest := by
    have hbody : ∀ rest, sanitizeText .inString (s.flatMap writtenByte ++ rest) =
        s.flatMap escapedByte ++ sanitizeText .inString rest := by
      induction s with
      | nil => exact fun _ => rfl
      | cons c s ih =>
        intro rest
        rw [List.flatMap_cons, List.append_assoc, sanitizeText_writtenByte, ih, List.flatMap_cons, List.append_assoc]
    rw [quoted_append, quoted_append, sanitizeSerializedJson, sanitizeText, TextState.next, if_pos rfl, hbody,
      sanitizeText]
    rfl

theorem sanitizeSerializedJson_render {number : UInt64 → Bytes} (hnumber : ∀ value, (number value).all isMark = true)
    (json : Json) : sanitizeSerializedJson (json.render writtenByte number) = json.render escapedByte number := by
  rw [rewritesStrings_sanitizeSerialized.whole hnumber, Json.mapStrings_id]

end Sanitizing

-- The values that are rendered here hold no numbers.
def numberText (_ : UInt64) : Bytes := [48]

section Texts

theorem exists_stringChar {c : UInt8} (hlow : 0x20 ≤ c.toNat) (hhigh : c.toNat ≤ 0x7F) :
    ∃ char, StringChar char ∧ Utf8.encode char = escapedByte c := by
  unfold escapedByte
  split_ifs with hquote hbackslash hcontrol
  · exact ⟨['\\', '"'], .escaped (by decide), rfl⟩
  · exact ⟨['\\', '\\'], .escaped (by decide), rfl⟩
  · have hnat : c.toNat < 0x20 := hcontrol
    omega
  · obtain ⟨char, hchar⟩ := Utf8.exists_char (n := c.toNat) (.inl (by omega))
    refine ⟨[char], .unescaped ?_ ?_ ?_, ?_⟩
    · change 0x20 ≤ char.val.toNat
      omega
    · rintro rfl
      exact hquote (UInt8.toNat_inj.mp hchar.symm)
    · rintro rfl
      exact hbackslash (UInt8.toNat_inj.mp hchar.symm)
    · rw [Utf8.encode_cons, Utf8.encode_nil, List.append_nil, Utf8.encodeChar_ascii (by omega), hchar,
        UInt8.ofNat_toNat]

theorem exists_isString {s : Bytes} (h : isAscii s = true) :
    ∃ text, IsString text ∧ Utf8.encode text = quoted escapedByte s := by
  have hchars : ∃ chars : List (List Char), (∀ char ∈ chars, StringChar char) ∧
      Utf8.encode chars.flatten = s.flatMap escapedByte := by
    induction s with
    | nil => exact ⟨[], by simp, rfl⟩
    | cons c s ih =>
      simp only [isAscii, List.all_cons, Bool.and_eq_true, decide_eq_true_eq] at h
      obtain ⟨char, hchar, hencode⟩ := exists_stringChar h.1.1 h.1.2
      obtain ⟨chars, hchars, hencodes⟩ := ih h.2
      refine ⟨char :: chars, List.forall_mem_cons.mpr ⟨hchar, hchars⟩, ?_⟩
      rw [List.flatten_cons, Utf8.encode_append, hencode, hencodes, List.flatMap_cons]
  obtain ⟨chars, hchars, hencode⟩ := hchars
  refine ⟨_, ⟨chars, rfl, hchars⟩, ?_⟩
  rw [Utf8.encode_cons, Utf8.encode_append, hencode]
  rfl

mutual

/-- The rendering of a value in ASCII is a JSON text. -/
theorem exists_value :
    ∀ json : Json, isAsciiJson json = true →
      ∃ text, Derives .value text ∧ Utf8.encode text = json.render escapedByte numberText
  | .null, _ => ⟨['n', 'u', 'l', 'l'], .literal (by decide), rfl⟩
  | .boolean true, _ => ⟨['t', 'r', 'u', 'e'], .literal (by decide), rfl⟩
  | .boolean false, _ => ⟨['f', 'a', 'l', 's', 'e'], .literal (by decide), rfl⟩
  | .number _, h => nomatch h
  | .string value, h => by
    obtain ⟨text, htext, hencode⟩ := exists_isString h
    exact ⟨text, .string htext, hencode⟩
  | .array [], _ => ⟨['[', ']'], derives_emptyArray, rfl⟩
  | .array (item :: items), h => by
    rw [isAsciiJson, areAsciiItems, Bool.and_eq_true] at h
    obtain ⟨first, hfirst, hencodeFirst⟩ := exists_value item h.1
    obtain ⟨elements, helements, hencode⟩ := exists_elements items h.2 (derives_text hfirst)
    refine ⟨_, .array helements, ?_⟩
    rw [Utf8.encode_cons, hencode, hencodeFirst]
    rfl
  | .object [], _ => ⟨['\x7b', '\x7d'], derives_emptyObject, rfl⟩
  | .object ((key, value) :: fields), h => by
    simp only [isAsciiJson, areAsciiFields, Bool.and_eq_true] at h
    obtain ⟨⟨⟨hkey, hvalue⟩, -⟩, hfields⟩ := h
    obtain ⟨name, hname, hencodeName⟩ := exists_isString hkey
    obtain ⟨text, htext, hencodeText⟩ := exists_value value hvalue
    obtain ⟨members, hmembers, hencode⟩ := exists_members fields hfields (derives_member hname htext)
    refine ⟨_, .object hmembers, ?_⟩
    rw [Utf8.encode_cons, hencode, Utf8.encode_append, Utf8.encode_cons, hencodeName, hencodeText, Json.render,
      List.append_assoc]
    rfl

theorem exists_elements :
    ∀ items : List Json, areAsciiItems items = true → ∀ {first : List Char}, Derives .text first →
      ∃ elements, Derives .elements elements ∧
        Utf8.encode (elements ++ [']']) = Utf8.encode first ++ renderItems escapedByte numberText items
  | [], _, first, hfirst => ⟨first, .lastElement hfirst, Utf8.encode_append _ _⟩
  | item :: items, h, first, hfirst => by
    rw [areAsciiItems, Bool.and_eq_true] at h
    obtain ⟨next, hnext, hencodeNext⟩ := exists_value item h.1
    obtain ⟨elements, helements, hencode⟩ := exists_elements items h.2 (derives_text hnext)
    refine ⟨_, .element hfirst helements, ?_⟩
    rw [List.append_assoc, List.cons_append, Utf8.encode_append, Utf8.encode_cons, hencode, hencodeNext]
    rfl

theorem exists_members :
    ∀ fields : List (Bytes × Json), areAsciiFields fields = true → ∀ {first : List Char}, Derives .member first →
      ∃ members, Derives .members members ∧
        Utf8.encode (members ++ ['\x7d']) = Utf8.encode first ++ renderFields escapedByte numberText fields
  | [], _, first, hfirst => ⟨first, .lastMember hfirst, Utf8.encode_append _ _⟩
  | (key, value) :: fields, h, first, hfirst => by
    simp only [areAsciiFields, Bool.and_eq_true] at h
    obtain ⟨⟨⟨hkey, hvalue⟩, -⟩, hfields⟩ := h
    obtain ⟨name, hname, hencodeName⟩ := exists_isString hkey
    obtain ⟨text, htext, hencodeText⟩ := exists_value value hvalue
    obtain ⟨members, hmembers, hencode⟩ := exists_members fields hfields (derives_member hname htext)
    refine ⟨_, .nextMember hfirst hmembers, ?_⟩
    rw [List.append_assoc, List.cons_append, Utf8.encode_append, Utf8.encode_cons, hencode, Utf8.encode_append,
      Utf8.encode_cons, hencodeName, hencodeText, renderFields, List.append_assoc]
    rfl

end

end Texts

section Reading

theorem beginsWithDigit_numberText : BeginsWithDigit numberText := fun _ => ⟨48, [], rfl, by decide⟩

theorem insertEntry_last {fields : JsonObject} {key : Bytes} {value : Json} (h : ∀ field ∈ fields, field.1 < key) :
    fields.set key value = fields ++ [(key, value)] := by
  induction fields with
  | nil => rfl
  | cons field fields ih =>
    obtain ⟨hfield, hfields⟩ := List.forall_mem_cons.mp h
    rw [JsonObject.set, FlatMap.insertEntry, if_neg (lt_asymm hfield), if_neg (ne_of_gt hfield)]
    exact congrArg (field :: ·) (ih hfields)

mutual

theorem asMap_of_isAscii : ∀ json : Json, isAsciiJson json = true → json.asMap = json
  | .null, _ | .boolean _, _ | .string _, _ => rfl
  | .number _, h => nomatch h
  | .array items, h => congrArg Json.array (itemsAsMaps_of_isAscii items h)
  | .object fields, h => congrArg Json.object (insertFields_of_isAscii fields h (by simp))

theorem itemsAsMaps_of_isAscii : ∀ items : List Json, areAsciiItems items = true → itemsAsMaps items = items
  | [], _ => rfl
  | item :: items, h => by
    rw [areAsciiItems, Bool.and_eq_true] at h
    rw [itemsAsMaps, asMap_of_isAscii item h.1, itemsAsMaps_of_isAscii items h.2]

theorem insertFields_of_isAscii : ∀ fields : List (Bytes × Json), areAsciiFields fields = true →
    ∀ {object : JsonObject}, (∀ before ∈ object, ∀ field ∈ fields, before.1 < field.1) →
      insertFields fields object = object ++ fields
  | [], _, object, _ => (List.append_nil object).symm
  | (key, value) :: fields, h, object, hbefore => by
    simp only [areAsciiFields, Bool.and_eq_true] at h
    obtain ⟨⟨⟨-, hvalue⟩, hsorted⟩, hfields⟩ := h
    rw [insertFields, asMap_of_isAscii value hvalue,
      insertEntry_last fun before hmem => hbefore before hmem (key, value) List.mem_cons_self,
      insertFields_of_isAscii fields hfields, List.append_assoc]
    · rfl
    · intro before hmem field hfield
      obtain hmem | hmem := List.mem_append.mp hmem
      · exact hbefore before hmem field (List.mem_cons_of_mem _ hfield)
      · rw [List.mem_singleton.mp hmem]
        simpa using List.all_eq_true.mp hsorted field hfield

end

theorem writtenByte_eq {c : UInt8} (h : 0x20 ≤ c.toNat) : writtenByte c = escapedByte c := by
  obtain ⟨hself, hother⟩ | ⟨-, name, more, heq, -⟩ := isEscapeTable_writtenByte.cases c
  · simp only [List.mem_cons, List.not_mem_nil, or_false, not_or] at hother
    obtain ⟨hquote, hbackslash, -⟩ := hother
    rw [hself, escapedByte, if_neg hquote, if_neg hbackslash, if_neg]
    intro hlow
    have hnat : c.toNat < 0x20 := hlow
    omega
  · exact (escapedByte_of_escaped heq).symm

theorem quoted_writtenByte {s : Bytes} (h : isAscii s = true) : quoted writtenByte s = quoted escapedByte s := by
  have hbody : s.flatMap writtenByte = s.flatMap escapedByte := by
    apply List.flatMap_congr
    intro c hc
    have hbyte := List.all_eq_true.mp h c hc
    simp only [Bool.and_eq_true, decide_eq_true_eq] at hbyte
    exact writtenByte_eq hbyte.1
  rw [quoted, hbody, quoted]

mutual

theorem render_writtenByte : ∀ json : Json, isAsciiJson json = true →
    json.render writtenByte numberText = json.render escapedByte numberText
  | .null, _ | .boolean true, _ | .boolean false, _ => rfl
  | .number _, h => nomatch h
  | .string _, h => quoted_writtenByte h
  | .array [], _ => rfl
  | .array (item :: items), h => by
    rw [isAsciiJson, areAsciiItems, Bool.and_eq_true] at h
    rw [Json.render, Json.render, render_writtenByte item h.1, renderItems_writtenByte items h.2]
  | .object [], _ => rfl
  | .object ((key, value) :: fields), h => by
    simp only [isAsciiJson, areAsciiFields, Bool.and_eq_true] at h
    obtain ⟨⟨⟨hkey, hvalue⟩, -⟩, hfields⟩ := h
    rw [Json.render, Json.render, quoted_writtenByte hkey, render_writtenByte value hvalue,
      renderFields_writtenByte fields hfields]

theorem renderItems_writtenByte : ∀ items : List Json, areAsciiItems items = true →
    renderItems writtenByte numberText items = renderItems escapedByte numberText items
  | [], _ => rfl
  | item :: items, h => by
    rw [areAsciiItems, Bool.and_eq_true] at h
    rw [renderItems, renderItems, render_writtenByte item h.1, renderItems_writtenByte items h.2]

theorem renderFields_writtenByte : ∀ fields : List (Bytes × Json), areAsciiFields fields = true →
    renderFields writtenByte numberText fields = renderFields escapedByte numberText fields
  | [], _ => rfl
  | (key, value) :: fields, h => by
    simp only [areAsciiFields, Bool.and_eq_true] at h
    obtain ⟨⟨⟨hkey, hvalue⟩, -⟩, hfields⟩ := h
    rw [renderFields, renderFields, quoted_writtenByte hkey, render_writtenByte value hvalue,
      renderFields_writtenByte fields hfields]

end

theorem readString_quoted (s rest : Bytes) : readString (quoted escapedByte s ++ rest) = some (s, rest) :=
  readString_quoteJsonString s rest

mutual

/-- Whoever has a turn for each byte of a rendering reads it all. -/
theorem readJson_rendering : ∀ (json : Json), isAsciiJson json = true → ∀ (fuel : ℕ) (rest : Bytes),
    (json.render escapedByte numberText).length ≤ fuel →
      readJson fuel (json.render escapedByte numberText ++ rest) = some (json, rest)
  | json, _, 0, _, hfuel => by
    obtain ⟨c, more, heq, -⟩ := head_render beginsWithDigit_numberText escapedByte json
    rw [heq] at hfuel
    cases hfuel
  | .null, _, _ + 1, _, _ | .boolean true, _, _ + 1, _, _ | .boolean false, _, _ + 1, _, _ => rfl
  | .number _, h, _, _, _ => nomatch h
  | .string value, _, fuel + 1, rest, _ => by
    have hread : readJson (fuel + 1) (quoted escapedByte value ++ rest) =
        (readString (quoted escapedByte value ++ rest)).map fun (value, rest) => (Json.string value, rest) := rfl
    rw [Json.render, hread, readString_quoted]
    rfl
  | .array [], _, _ + 1, _, _ => rfl
  | .array (item :: items), h, fuel + 1, rest, hfuel => by
    rw [isAsciiJson, areAsciiItems, Bool.and_eq_true] at h
    obtain ⟨c, more, heq, hclose, -⟩ := head_render beginsWithDigit_numberText escapedByte item
    have hnotClosed : (item.render escapedByte numberText ++ (renderItems escapedByte numberText items ++ rest)).head? ≠
        some 93 := by
      simpa [heq] using hclose
    simp only [Json.render, List.length_cons, List.length_append] at hfuel
    rw [Json.render, List.cons_append, List.append_assoc, readJson, List.head?_cons, if_neg (by decide),
      if_pos rfl, List.tail_cons, if_neg hnotClosed, readJson_rendering item h.1 fuel _ (by omega), Option.bind_some]
    simp only
    rw [readItems_rendering items h.2 fuel rest (by omega)]
    rfl
  | .object [], _, _ + 1, _, _ => rfl
  | .object ((key, value) :: fields), h, fuel + 1, rest, hfuel => by
    simp only [isAsciiJson, areAsciiFields, Bool.and_eq_true] at h
    obtain ⟨⟨⟨-, hvalue⟩, -⟩, hfields⟩ := h
    simp only [Json.render, List.length_cons, List.length_append] at hfuel
    have htext : (Json.object ((key, value) :: fields)).render escapedByte numberText ++ rest =
        123 :: (quoted escapedByte key ++ 58 :: (value.render escapedByte numberText ++
          (renderFields escapedByte numberText fields ++ rest))) := by
      simp [Json.render]
    rw [htext, readJson, List.head?_cons, if_neg (by decide), if_neg (by decide), if_pos rfl, List.tail_cons,
      if_neg (by simp [quoted]), readField_rendering key value hvalue fuel _ (by omega), Option.bind_some]
    simp only
    rw [readFields_rendering fields hfields fuel rest (by omega)]
    rfl

theorem readItems_rendering : ∀ (items : List Json), areAsciiItems items = true → ∀ (fuel : ℕ) (rest : Bytes),
    (renderItems escapedByte numberText items).length ≤ fuel →
      readItems fuel (renderItems escapedByte numberText items ++ rest) = some (items, rest)
  | [], _, 0, _, hfuel => by cases hfuel
  | _ :: _, _, 0, _, hfuel => by cases hfuel
  | [], _, _ + 1, _, _ => rfl
  | item :: items, h, fuel + 1, rest, hfuel => by
    rw [areAsciiItems, Bool.and_eq_true] at h
    simp only [renderItems, List.length_cons, List.length_append] at hfuel
    rw [renderItems, List.cons_append, List.append_assoc, readItems, List.head?_cons, if_neg (by decide),
      if_pos rfl, List.tail_cons, readJson_rendering item h.1 fuel _ (by omega), Option.bind_some]
    simp only
    rw [readItems_rendering items h.2 fuel rest (by omega)]
    rfl

theorem readField_rendering (key : Bytes) : ∀ (value : Json), isAsciiJson value = true → ∀ (fuel : ℕ) (rest : Bytes),
    (quoted escapedByte key).length + ((value.render escapedByte numberText).length + 1) ≤ fuel →
      readField fuel (quoted escapedByte key ++ 58 :: (value.render escapedByte numberText ++ rest)) =
        some ((key, value), rest)
  | _, _, 0, _, hfuel => by omega
  | value, h, fuel + 1, rest, hfuel => by
    rw [readField, readString_quoted, Option.bind_some]
    simp only [List.head?_cons, if_true, List.tail_cons]
    have hquoted : 0 < (quoted escapedByte key).length := Nat.succ_pos _
    rw [readJson_rendering value h fuel rest (by omega)]
    rfl

theorem readFields_rendering : ∀ (fields : List (Bytes × Json)), areAsciiFields fields = true →
    ∀ (fuel : ℕ) (rest : Bytes), (renderFields escapedByte numberText fields).length ≤ fuel →
      readFields fuel (renderFields escapedByte numberText fields ++ rest) = some (fields, rest)
  | [], _, 0, _, hfuel => by cases hfuel
  | _ :: _, _, 0, _, hfuel => by cases hfuel
  | [], _, _ + 1, _, _ => rfl
  | (key, value) :: fields, h, fuel + 1, rest, hfuel => by
    simp only [areAsciiFields, Bool.and_eq_true] at h
    obtain ⟨⟨⟨-, hvalue⟩, -⟩, hfields⟩ := h
    simp only [renderFields, List.length_cons, List.length_append] at hfuel
    have htext : renderFields escapedByte numberText ((key, value) :: fields) ++ rest =
        44 :: (quoted escapedByte key ++ 58 :: (value.render escapedByte numberText ++
          (renderFields escapedByte numberText fields ++ rest))) := by
      simp [renderFields]
    rw [htext, readFields, List.head?_cons, if_neg (by decide), if_pos rfl, List.tail_cons,
      readField_rendering key value hvalue fuel _ (by omega), Option.bind_some]
    simp only
    rw [readFields_rendering fields hfields fuel rest (by omega)]
    rfl

end

end Reading

section Library

def textJson (s : String) : Json := .string (ofString s)

def fieldsJson (fields : List (String × Json)) : JsonObject := fields.map fun field => (ofString field.1, field.2)

def rendered (json : Json) : Bytes := json.render escapedByte numberText

theorem readRendered_rendered {json : Json} (h : isAsciiJson json = true) :
    readRendered (rendered json) = some json := by
  have hread := readJson_rendering json h ((rendered json).length + 1) [] (Nat.le_succ _)
  rw [List.append_nil, ← rendered] at hread
  rw [readRendered, hread]
  exact congrArg some (asMap_of_isAscii json h)

theorem isMark_numberText (value : UInt64) : (numberText value).all isMark = true :=
  (by decide : [48].all isMark = true)

theorem sanitizeSerializedJson_rendered (json : Json) : sanitizeSerializedJson (rendered json) = rendered json := by
  rw [rendered, ← sanitizeSerializedJson_render isMark_numberText json, sanitizeSerializedJson, sanitizeSerializedJson,
    sanitizeText_sanitizeText]

/-- A library for ASCII values without numbers: it writes their renderings and reads them back. -/
def renderingLibrary : JsonLibrary where
  read text := (readRendered text).filter isAsciiJson
  write json := if isAsciiJson json then some (rendered json) else none

variable {json : Json} {text : Bytes}

theorem renderingLibrary_read (h : isAsciiJson json = true) : renderingLibrary.read (rendered json) = some json :=
  Option.filter_eq_some_iff.mpr ⟨readRendered_rendered h, h⟩

theorem renderingLibrary_write (h : isAsciiJson json = true) : renderingLibrary.write json = some (rendered json) :=
  if_pos h

theorem renderingLibrary_readsSound (h : renderingLibrary.read text = some json) : Sound json :=
  sound_of_isAscii json (Option.filter_eq_some_iff.mp h).2

theorem renderingLibrary_readsBack (h : renderingLibrary.write json = some text) :
    renderingLibrary.read (sanitizeSerializedJson text) = some json := by
  obtain ⟨hascii, htext⟩ := Option.ite_none_right_eq_some.mp h
  obtain rfl := Option.some.inj htext
  rw [sanitizeSerializedJson_rendered, renderingLibrary_read hascii]

theorem renderingLibrary_writesText (h : renderingLibrary.write json = some text) :
    ∃ chars, IsText chars ∧ sanitizeSerializedJson text = Utf8.encode chars := by
  obtain ⟨hascii, htext⟩ := Option.ite_none_right_eq_some.mp h
  obtain rfl := Option.some.inj htext
  obtain ⟨chars, hchars, hencode⟩ := exists_value json hascii
  refine ⟨chars, derives_text hchars, ?_⟩
  rw [sanitizeSerializedJson_rendered, rendered, hencode]

theorem valid_rendered (h : isAsciiJson json = true) : Utf8.Valid (rendered json) := by
  obtain ⟨chars, -, hencode⟩ := renderingLibrary_writesText (renderingLibrary_write h)
  rw [sanitizeSerializedJson_rendered] at hencode
  exact ⟨chars, hencode⟩

end Library

end Tightrope.Core
