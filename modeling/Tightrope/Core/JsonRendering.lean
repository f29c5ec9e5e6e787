import Tightrope.Core.Json
import Tightrope.Core.JsonText

namespace Tightrope.Core

open Bytes JsonBytes

-- A byte of a string as it is written: a control byte without a short escape stands as it is.
def writtenByte (c : UInt8) : Bytes :=
  if c = 34 then [92, 34]
  else if c = 92 then [92, 92]
  else if c = 8 then ofString "\\b"
  else if c = 12 then ofString "\\f"
  else if c = 10 then ofString "\\n"
  else if c = 13 then ofString "\\r"
  else if c = 9 then ofString "\\t"
  else [c]

def quoted (escape : UInt8 → Bytes) (value : Bytes) : Bytes := 34 :: (value.flatMap escape ++ [34])

section Rendering

variable (escape : UInt8 → Bytes) (number : UInt64 → Bytes)

mutual

-- The fields of an object are rendered in the order of the list, whether or not it is that of a map.
def Json.render : Json → Bytes
  | .null => ofString "null"
  | .boolean value => if value then ofString "true" else ofString "false"
  | .number value => number value
  | .string value => quoted escape value
  | .array [] => [91, 93]
  | .array (item :: items) => 91 :: (item.render ++ renderItems items)
  | .object [] => [123, 125]
  | .object ((key, value) :: fields) => 123 :: (quoted escape key ++ 58 :: (value.render ++ renderFields fields))

def renderItems : List Json → Bytes
  | [] => [93]
  | item :: items => 44 :: (item.render ++ renderItems items)

def renderFields : List (Bytes × Json) → Bytes
  | [] => [125]
  | (key, value) :: fields => 44 :: (quoted escape key ++ 58 :: (value.render ++ renderFields fields))

end

end Rendering

section Values

mutual

def Json.mapStrings (f : Bytes → Bytes) : Json → Json
  | .null => .null
  | .boolean value => .boolean value
  | .number value => .number value
  | .string value => .string (f value)
  | .array items => .array (mapItemStrings f items)
  | .object fields => .object (mapFieldStrings f fields)

def mapItemStrings (f : Bytes → Bytes) : List Json → List Json
  | [] => []
  | item :: items => item.mapStrings f :: mapItemStrings f items

def mapFieldStrings (f : Bytes → Bytes) : List (Bytes × Json) → List (Bytes × Json)
  | [] => []
  | (key, value) :: fields => (f key, value.mapStrings f) :: mapFieldStrings f fields

end

mutual

-- Each object becomes a map: of the fields with one name the last stays.
def Json.asMap : Json → Json
  | .null => .null
  | .boolean value => .boolean value
  | .number value => .number value
  | .string value => .string value
  | .array items => .array (itemsAsMaps items)
  | .object fields => .object (insertFields fields [])

def itemsAsMaps : List Json → List Json
  | [] => []
  | item :: items => item.asMap :: itemsAsMaps items

def insertFields : List (Bytes × Json) → JsonObject → JsonObject
  | [], object => object
  | (key, value) :: fields, object => insertFields fields (object.set key value.asMap)

end

def JsonObject.mapStrings (f : Bytes → Bytes) (object : JsonObject) : JsonObject := mapFieldStrings f object

def JsonObject.asMap (fields : JsonObject) : JsonObject := insertFields fields []

end Values

section Composition

variable {f g : Bytes → Bytes}

mutual

theorem Json.mapStrings_mapStrings : ∀ json : Json, (json.mapStrings f).mapStrings g = json.mapStrings (g ∘ f)
  | .null | .boolean _ | .number _ | .string _ => rfl
  | .array items => congrArg Json.array (mapItemStrings_mapItemStrings items)
  | .object fields => congrArg Json.object (mapFieldStrings_mapFieldStrings fields)

theorem mapItemStrings_mapItemStrings : ∀ items : List Json,
    mapItemStrings g (mapItemStrings f items) = mapItemStrings (g ∘ f) items
  | [] => rfl
  | item :: items => by
    rw [mapItemStrings, mapItemStrings, mapItemStrings, item.mapStrings_mapStrings, mapItemStrings_mapItemStrings items]

theorem mapFieldStrings_mapFieldStrings : ∀ fields : List (Bytes × Json),
    mapFieldStrings g (mapFieldStrings f fields) = mapFieldStrings (g ∘ f) fields
  | [] => rfl
  | (key, value) :: fields => by
    rw [mapFieldStrings, mapFieldStrings, mapFieldStrings, value.mapStrings_mapStrings,
      mapFieldStrings_mapFieldStrings fields, Function.comp_apply]

end

mutual

theorem Json.mapStrings_id : ∀ json : Json, json.mapStrings id = json
  | .null | .boolean _ | .number _ | .string _ => rfl
  | .array items => congrArg Json.array (mapItemStrings_id items)
  | .object fields => congrArg Json.object (mapFieldStrings_id fields)

theorem mapItemStrings_id : ∀ items : List Json, mapItemStrings id items = items
  | [] => rfl
  | item :: items => by rw [mapItemStrings, item.mapStrings_id, mapItemStrings_id items]

theorem mapFieldStrings_id : ∀ fields : List (Bytes × Json), mapFieldStrings id fields = fields
  | [] => rfl
  | (key, value) :: fields => by rw [mapFieldStrings, value.mapStrings_id, mapFieldStrings_id fields, id]

end

end Composition

theorem render_object_ends (escape : UInt8 → Bytes) (number : UInt64 → Bytes) (fields : List (Bytes × Json)) :
    ∃ body, (Json.object fields).render escape number = 123 :: (body ++ [125]) := by
  have hfields : ∀ fields, ∃ body, renderFields escape number fields = body ++ [125] := by
    intro fields
    induction fields with
    | nil => exact ⟨[], rfl⟩
    | cons field fields ih =>
      obtain ⟨body, hbody⟩ := ih
      rw [renderFields, hbody]
      exact ⟨44 :: (quoted escape field.1 ++ 58 :: (field.2.render escape number ++ body)), by simp⟩
  cases fields with
  | nil => exact ⟨[], rfl⟩
  | cons field fields =>
    obtain ⟨body, hbody⟩ := hfields fields
    rw [Json.render, hbody]
    exact ⟨quoted escape field.1 ++ 58 :: (field.2.render escape number ++ body), by simp⟩

-- A byte that stands outside the strings of a text.
def isMark (c : UInt8) : Bool := 0x20 ≤ c && c < 0x7F && c ≠ 34

/-- A rewriting of texts that keeps what stands outside the strings and turns each string into another. -/
structure RewritesStrings (escape escape' : UInt8 → Bytes) (f : Bytes → Bytes) (rewrite : Bytes → Bytes) : Prop where
  nil : rewrite [] = []
  mark : ∀ c rest, isMark c = true → rewrite (c :: rest) = c :: rewrite rest
  string : ∀ s rest, rewrite (quoted escape s ++ rest) = quoted escape' (f s) ++ rewrite rest

namespace RewritesStrings

variable {escape escape' : UInt8 → Bytes} {number : UInt64 → Bytes} {f : Bytes → Bytes} {rewrite : Bytes → Bytes}

theorem marks (h : RewritesStrings escape escape' f rewrite) (marks : Bytes) (hmarks : marks.all isMark = true)
    (rest : Bytes) : rewrite (marks ++ rest) = marks ++ rewrite rest := by
  induction marks with
  | nil => rfl
  | cons c marks ih =>
    rw [List.all_cons, Bool.and_eq_true] at hmarks
    rw [List.cons_append, h.mark c _ hmarks.1, ih hmarks.2, List.cons_append]

mutual

theorem render (h : RewritesStrings escape escape' f rewrite) (hnumber : ∀ value, (number value).all isMark = true) :
    ∀ (json : Json) (rest : Bytes),
      rewrite (json.render escape number ++ rest) = (json.mapStrings f).render escape' number ++ rewrite rest
  | .null, rest => h.marks (ofString "null") (by decide) rest
  | .boolean true, rest => h.marks (ofString "true") (by decide) rest
  | .boolean false, rest => h.marks (ofString "false") (by decide) rest
  | .number value, rest => h.marks (number value) (hnumber value) rest
  | .string value, rest => h.string value rest
  | .array [], rest => h.marks [91, 93] (by decide) rest
  | .array (item :: items), rest => by
    rw [Json.render, List.cons_append, List.append_assoc, h.mark _ _ (by decide), h.render hnumber item,
      h.items hnumber items, Json.mapStrings, mapItemStrings, Json.render, List.cons_append, List.append_assoc]
  | .object [], rest => h.marks [123, 125] (by decide) rest
  | .object ((key, value) :: fields), rest => by
    rw [Json.render, List.cons_append, List.append_assoc, List.cons_append, List.append_assoc, h.mark _ _ (by decide),
      h.string, h.mark _ _ (by decide), h.render hnumber value, h.fields hnumber fields, Json.mapStrings,
      mapFieldStrings, Json.render, List.cons_append, List.append_assoc, List.cons_append, List.append_assoc]

theorem items (h : RewritesStrings escape escape' f rewrite) (hnumber : ∀ value, (number value).all isMark = true) :
    ∀ (items : List Json) (rest : Bytes), rewrite (renderItems escape number items ++ rest) =
      renderItems escape' number (mapItemStrings f items) ++ rewrite rest
  | [], rest => h.marks [93] (by decide) rest
  | item :: items, rest => by
    rw [renderItems, List.cons_append, List.append_assoc, h.mark _ _ (by decide), h.render hnumber item,
      h.items hnumber items, mapItemStrings, renderItems, List.cons_append, List.append_assoc]

theorem fields (h : RewritesStrings escape escape' f rewrite) (hnumber : ∀ value, (number value).all isMark = true) :
    ∀ (fields : List (Bytes × Json)) (rest : Bytes), rewrite (renderFields escape number fields ++ rest) =
      renderFields escape' number (mapFieldStrings f fields) ++ rewrite rest
  | [], rest => h.marks [125] (by decide) rest
  | (key, value) :: fields, rest => by
    rw [renderFields, List.cons_append, List.append_assoc, List.cons_append, List.append_assoc, h.mark _ _ (by decide),
      h.string, h.mark _ _ (by decide), h.render hnumber value, h.fields hnumber fields, mapFieldStrings, renderFields,
      List.cons_append, List.append_assoc, List.cons_append, List.append_assoc]

end

theorem whole (h : RewritesStrings escape escape' f rewrite) (hnumber : ∀ value, (number value).all isMark = true)
    (json : Json) : rewrite (json.render escape number) = (json.mapStrings f).render escape' number := by
  have hrender := h.render hnumber json []
  rwa [List.append_nil, h.nil, List.append_nil] at hrender

end RewritesStrings

section EscapeTables

/-- A byte of a string stands as it is, or it is named behind a backslash in visible bytes. -/
structure IsEscapeTable (escape : UInt8 → Bytes) : Prop where
  cases (c : UInt8) : (escape c = [c] ∧ c ∉ [34, 92, 8, 12, 10, 13, 9]) ∨
    (c < 0x80 ∧ ∃ name more, escape c = 92 :: name :: more ∧ (0x20 ≤ name ∧ name < 0x7F) ∧
      ∀ b ∈ more, isMark b = true ∧ b ≠ 92)

theorem isEscapeTable_writtenByte : IsEscapeTable writtenByte where
  cases c := by
    unfold writtenByte
    split_ifs with h34 h92 h8 h12 h10 h13 h9
    · exact .inr ⟨h34 ▸ by decide, 34, [], rfl, by decide, nofun⟩
    · exact .inr ⟨h92 ▸ by decide, 92, [], rfl, by decide, nofun⟩
    · exact .inr ⟨h8 ▸ by decide, 98, [], rfl, by decide, nofun⟩
    · exact .inr ⟨h12 ▸ by decide, 102, [], rfl, by decide, nofun⟩
    · exact .inr ⟨h10 ▸ by decide, 110, [], rfl, by decide, nofun⟩
    · exact .inr ⟨h13 ▸ by decide, 114, [], rfl, by decide, nofun⟩
    · exact .inr ⟨h9 ▸ by decide, 116, [], rfl, by decide, nofun⟩
    · exact .inl ⟨rfl, by simp [h34, h92, h8, h12, h10, h13, h9]⟩

theorem isMark_hexDigit (c : UInt8) : isMark (hexDigit (c &&& 0x0F)) = true ∧ hexDigit (c &&& 0x0F) ≠ 92 :=
  Nibbles.forall_low (P := fun d => isMark (hexDigit d) = true ∧ hexDigit d ≠ 92) (by decide) c

theorem isEscapeTable_escapedByte : IsEscapeTable escapedByte where
  cases c := by
    unfold escapedByte
    split_ifs with h34 h92 hcontrol
    · exact .inr ⟨h34 ▸ by decide, 34, [], rfl, by decide, nofun⟩
    · exact .inr ⟨h92 ▸ by decide, 92, [], rfl, by decide, nofun⟩
    · have hlow : c < 0x80 := lt_trans hcontrol (by decide)
      obtain ⟨name, hname, heq⟩ | heq := escapedControl_cases c <;> rw [heq]
      · have hvisible : ∀ name ∈ ofString "bfnrt", 0x20 ≤ name ∧ name < 0x7F := by
          simpa using (by decide : (ofString "bfnrt").all (fun name => 0x20 ≤ name && name < 0x7F) = true)
        exact .inr ⟨hlow, name, [], rfl, hvisible name hname, nofun⟩
      · refine .inr ⟨hlow, 117, [48, 48, _, _], rfl, by decide, fun b hb => ?_⟩
        simp only [List.mem_cons, List.not_mem_nil, or_false] at hb
        obtain rfl | rfl | rfl | rfl := hb
        · decide
        · decide
        · exact isMark_hexDigit _
        · exact isMark_hexDigit _
    · refine .inl ⟨rfl, ?_⟩
      intro hmem
      simp only [List.mem_cons, List.not_mem_nil, or_false] at hmem
      obtain rfl | rfl | rfl | rfl | rfl | rfl | rfl := hmem
      · exact h34 rfl
      · exact h92 rfl
      all_goals exact hcontrol (by decide)

theorem escapedByte_of_escaped {c name : UInt8} {more : Bytes} (h : writtenByte c = 92 :: name :: more) :
    escapedByte c = writtenByte c := by
  have hescaped : writtenByte c ≠ [c] := by
    rw [h]
    exact fun heq => List.cons_ne_nil name more (List.cons.inj heq).2
  exact Nibbles.forall_byte (P := fun c => writtenByte c ≠ [c] → escapedByte c = writtenByte c) (by decide +kernel) c
    hescaped

end EscapeTables

section Reading

mutual

-- A reader of rendered texts. It takes no numbers, and it leaves the fields of an object as they stand.
def readJson : ℕ → Bytes → Option (Json × Bytes)
  | 0, _ => none
  | fuel + 1, text =>
    if text.head? = some 34 then (readString text).map fun (value, rest) => (.string value, rest)
    else if text.head? = some 91 then
      if text.tail.head? = some 93 then some (.array [], text.tail.tail)
      else (readJson fuel text.tail).bind fun (item, rest) =>
        (readItems fuel rest).map fun (items, rest) => (.array (item :: items), rest)
    else if text.head? = some 123 then
      if text.tail.head? = some 125 then some (.object [], text.tail.tail)
      else (readField fuel text.tail).bind fun (field, rest) =>
        (readFields fuel rest).map fun (fields, rest) => (.object (field :: fields), rest)
    else if text.take 4 = ofString "null" then some (.null, text.drop 4)
    else if text.take 4 = ofString "true" then some (.boolean true, text.drop 4)
    else if text.take 5 = ofString "false" then some (.boolean false, text.drop 5)
    else none

def readItems : ℕ → Bytes → Option (List Json × Bytes)
  | 0, _ => none
  | fuel + 1, text =>
    if text.head? = some 93 then some ([], text.tail)
    else if text.head? = some 44 then
      (readJson fuel text.tail).bind fun (item, rest) =>
        (readItems fuel rest).map fun (items, rest) => (item :: items, rest)
    else none

def readField : ℕ → Bytes → Option ((Bytes × Json) × Bytes)
  | 0, _ => none
  | fuel + 1, text =>
    (readString text).bind fun (key, rest) =>
      if rest.head? = some 58 then (readJson fuel rest.tail).map fun (value, rest) => ((key, value), rest) else none

def readFields : ℕ → Bytes → Option (List (Bytes × Json) × Bytes)
  | 0, _ => none
  | fuel + 1, text =>
    if text.head? = some 125 then some ([], text.tail)
    else if text.head? = some 44 then
      (readField fuel text.tail).bind fun (field, rest) =>
        (readFields fuel rest).map fun (fields, rest) => (field :: fields, rest)
    else none

end

def readRendered (text : Bytes) : Option Json :=
  match readJson (text.length + 1) text with
  | some (json, []) => some json.asMap
  | _ => none

theorem readBody_of_some {escape : UInt8 → Bytes} (hunit : ∀ c rest, (escape c ++ rest).head? ≠ some 34 ∧
    ∀ result, readUnit (escape c ++ rest) = some result → result = ([c], rest)) {s rest : Bytes} {fuel : ℕ}
    {result : Bytes × Bytes} (h : readBody fuel (s.flatMap escape ++ 34 :: rest) = some result) :
    result = (s, rest) := by
  induction s generalizing fuel result with
  | nil =>
    cases fuel with
    | zero => cases h
    | succ fuel => exact (Option.some.inj h).symm
  | cons c s ih =>
    cases fuel with
    | zero => cases h
    | succ fuel =>
      obtain ⟨hhead, hread⟩ := hunit c (s.flatMap escape ++ 34 :: rest)
      rw [List.flatMap_cons, List.append_assoc, readBody, if_neg hhead] at h
      obtain ⟨first, hfirst, h⟩ := Option.bind_eq_some_iff.mp h
      obtain rfl := hread first hfirst
      obtain ⟨more, hmore, rfl⟩ := Option.map_eq_some_iff.mp h
      obtain rfl := ih hmore
      rfl

def ReadsQuoted (escape : UInt8 → Bytes) : Prop :=
  ∀ s rest result, readString (quoted escape s ++ rest) = some result → result = (s, rest)

theorem readsQuoted_of_units {escape : UInt8 → Bytes} (hunit : ∀ c rest, (escape c ++ rest).head? ≠ some 34 ∧
    ∀ result, readUnit (escape c ++ rest) = some result → result = ([c], rest)) : ReadsQuoted escape := by
  intro s rest result h
  rw [quoted, List.cons_append, List.append_assoc, List.singleton_append, readString] at h
  exact readBody_of_some hunit h

theorem readsQuoted_escapedByte : ReadsQuoted escapedByte := by
  apply readsQuoted_of_units
  intro c rest
  obtain ⟨hhead, hread⟩ := readUnit_escapedByte c rest
  refine ⟨hhead, fun result h => ?_⟩
  rw [hread] at h
  exact (Option.some.inj h).symm

theorem readsQuoted_writtenByte : ReadsQuoted writtenByte := by
  apply readsQuoted_of_units
  intro c rest
  obtain ⟨hself, hother⟩ | ⟨-, name, more, heq, -⟩ := isEscapeTable_writtenByte.cases c
  · simp only [List.mem_cons, List.not_mem_nil, or_false, not_or] at hother
    obtain ⟨hquote, hbackslash, -⟩ := hother
    rw [hself]
    refine ⟨by simpa using hquote, fun result h => ?_⟩
    rw [List.singleton_append, readUnit] at h
    · split_ifs at h
      exact (Option.some.inj h).symm
    · rintro a b c d rest' rfl
      exact absurd rfl hbackslash
    · rintro d rest' rfl
      exact absurd rfl hbackslash
  · obtain ⟨hhead, hread⟩ := readUnit_escapedByte c rest
    rw [escapedByte_of_escaped heq] at hhead hread
    refine ⟨hhead, fun result h => ?_⟩
    rw [hread] at h
    exact (Option.some.inj h).symm

section Rendered

variable {escape : UInt8 → Bytes} {number : UInt64 → Bytes}

-- What stands for a number begins with a digit.
def BeginsWithDigit (number : UInt64 → Bytes) : Prop :=
  ∀ value, ∃ c more, number value = c :: more ∧ 48 ≤ c ∧ c ≤ 57

theorem head_render (hnumber : BeginsWithDigit number) (escape : UInt8 → Bytes) (json : Json) :
    ∃ c more, json.render escape number = c :: more ∧ c ≠ 93 ∧ c ≠ 125 := by
  cases json with
  | null => exact ⟨110, _, rfl, by decide⟩
  | boolean value => cases value <;> exact ⟨_, _, rfl, by decide⟩
  | number value =>
    obtain ⟨c, more, heq, -, hhigh⟩ := hnumber value
    refine ⟨c, more, heq, ?_, ?_⟩ <;> rintro rfl <;> exact absurd hhigh (by decide)
  | string value => exact ⟨34, _, rfl, by decide⟩
  | array items => cases items <;> exact ⟨91, _, rfl, by decide⟩
  | object fields =>
    cases fields with
    | nil => exact ⟨123, _, rfl, by decide⟩
    | cons field fields => exact ⟨123, _, rfl, by decide⟩

theorem readJson_digit {c : UInt8} (hlow : 48 ≤ c) (hhigh : c ≤ 57) (fuel : ℕ) (rest : Bytes) :
    readJson fuel (c :: rest) = none := by
  have hne : ∀ d : UInt8, 57 < d ∨ d < 48 → c ≠ d := by
    rintro d (hd | hd) rfl
    · exact absurd hhigh (not_le.mpr hd)
    · exact absurd hlow (not_le.mpr hd)
  cases fuel with
  | zero => rfl
  | succ fuel =>
    have hnull : ofString "null" = [110, 117, 108, 108] := rfl
    have htrue : ofString "true" = [116, 114, 117, 101] := rfl
    have hfalse : ofString "false" = [102, 97, 108, 115, 101] := rfl
    unfold readJson
    simp [hnull, htrue, hfalse, hne 34 (by decide), hne 91 (by decide), hne 123 (by decide), hne 110 (by decide),
      hne 116 (by decide), hne 102 (by decide)]

mutual

/-- What is read in a rendered text is what has been rendered. -/
theorem readJson_render (hquoted : ReadsQuoted escape) (hnumber : BeginsWithDigit number) :
    ∀ (json : Json) (fuel : ℕ) (rest : Bytes) (result : Json × Bytes),
      readJson fuel (json.render escape number ++ rest) = some result → result = (json, rest)
  | _, 0, _, _, h => by cases h
  | .null, _ + 1, rest, result, h => (Option.some.inj h).symm
  | .boolean true, _ + 1, rest, result, h => (Option.some.inj h).symm
  | .boolean false, _ + 1, rest, result, h => (Option.some.inj h).symm
  | .number value, fuel + 1, rest, result, h => by
    obtain ⟨c, more, heq, hlow, hhigh⟩ := hnumber value
    rw [Json.render, heq, List.cons_append, readJson_digit hlow hhigh] at h
    cases h
  | .string value, _ + 1, rest, result, h => by
    obtain ⟨found, hfound, rfl⟩ := Option.map_eq_some_iff.mp h
    rw [hquoted _ _ _ hfound]
  | .array [], _ + 1, rest, result, h => (Option.some.inj h).symm
  | .array (item :: items), fuel + 1, rest, result, h => by
    obtain ⟨c, more, heq, hclose, -⟩ := head_render hnumber escape item
    have hnotClosed : (item.render escape number ++ (renderItems escape number items ++ rest)).head? ≠ some 93 := by
      simpa [heq] using hclose
    rw [Json.render, List.cons_append, List.append_assoc, readJson, List.head?_cons, if_neg (by decide),
      if_pos rfl, List.tail_cons, if_neg hnotClosed] at h
    obtain ⟨first, hfirst, h⟩ := Option.bind_eq_some_iff.mp h
    obtain rfl := readJson_render hquoted hnumber item fuel _ _ hfirst
    obtain ⟨others, hothers, rfl⟩ := Option.map_eq_some_iff.mp h
    rw [readItems_render hquoted hnumber items fuel _ _ hothers]
  | .object [], _ + 1, rest, result, h => (Option.some.inj h).symm
  | .object ((key, value) :: fields), fuel + 1, rest, result, h => by
    have htext : (Json.object ((key, value) :: fields)).render escape number ++ rest =
        123 :: (quoted escape key ++
          58 :: (value.render escape number ++ (renderFields escape number fields ++ rest))) := by
      simp [Json.render]
    rw [htext, readJson, List.head?_cons, if_neg (by decide), if_neg (by decide), if_pos rfl, List.tail_cons,
      if_neg (by simp [quoted])] at h
    obtain ⟨first, hfirst, h⟩ := Option.bind_eq_some_iff.mp h
    obtain rfl := readField_render hquoted hnumber key value fuel _ _ hfirst
    obtain ⟨others, hothers, rfl⟩ := Option.map_eq_some_iff.mp h
    rw [readFields_render hquoted hnumber fields fuel _ _ hothers]

theorem readItems_render (hquoted : ReadsQuoted escape) (hnumber : BeginsWithDigit number) :
    ∀ (items : List Json) (fuel : ℕ) (rest : Bytes) (result : List Json × Bytes),
      readItems fuel (renderItems escape number items ++ rest) = some result → result = (items, rest)
  | _, 0, _, _, h => by cases h
  | [], _ + 1, rest, result, h => (Option.some.inj h).symm
  | item :: items, fuel + 1, rest, result, h => by
    rw [renderItems, List.cons_append, List.append_assoc, readItems, List.head?_cons, if_neg (by decide),
      if_pos rfl, List.tail_cons] at h
    obtain ⟨first, hfirst, h⟩ := Option.bind_eq_some_iff.mp h
    obtain rfl := readJson_render hquoted hnumber item fuel _ _ hfirst
    obtain ⟨others, hothers, rfl⟩ := Option.map_eq_some_iff.mp h
    rw [readItems_render hquoted hnumber items fuel _ _ hothers]

theorem readField_render (hquoted : ReadsQuoted escape) (hnumber : BeginsWithDigit number) (key : Bytes) :
    ∀ (value : Json) (fuel : ℕ) (rest : Bytes) (result : (Bytes × Json) × Bytes),
      readField fuel (quoted escape key ++ 58 :: (value.render escape number ++ rest)) = some result →
        result = ((key, value), rest)
  | _, 0, _, _, h => by cases h
  | value, fuel + 1, rest, result, h => by
    rw [readField] at h
    obtain ⟨first, hfirst, h⟩ := Option.bind_eq_some_iff.mp h
    obtain rfl := hquoted _ _ _ hfirst
    simp only [List.head?_cons, if_true, List.tail_cons] at h
    obtain ⟨found, hfound, rfl⟩ := Option.map_eq_some_iff.mp h
    rw [readJson_render hquoted hnumber value fuel _ _ hfound]

theorem readFields_render (hquoted : ReadsQuoted escape) (hnumber : BeginsWithDigit number) :
    ∀ (fields : List (Bytes × Json)) (fuel : ℕ) (rest : Bytes) (result : List (Bytes × Json) × Bytes),
      readFields fuel (renderFields escape number fields ++ rest) = some result → result = (fields, rest)
  | _, 0, _, _, h => by cases h
  | [], _ + 1, rest, result, h => (Option.some.inj h).symm
  | (key, value) :: fields, fuel + 1, rest, result, h => by
    have htext : renderFields escape number ((key, value) :: fields) ++ rest =
        44 :: (quoted escape key ++
          58 :: (value.render escape number ++ (renderFields escape number fields ++ rest))) := by
      simp [renderFields]
    rw [htext, readFields, List.head?_cons, if_neg (by decide), if_pos rfl, List.tail_cons] at h
    obtain ⟨first, hfirst, h⟩ := Option.bind_eq_some_iff.mp h
    obtain rfl := readField_render hquoted hnumber key value fuel _ _ hfirst
    obtain ⟨others, hothers, rfl⟩ := Option.map_eq_some_iff.mp h
    rw [readFields_render hquoted hnumber fields fuel _ _ hothers]

end

theorem readRendered_render (hquoted : ReadsQuoted escape) (hnumber : BeginsWithDigit number) {json json' : Json}
    (h : readRendered (json.render escape number) = some json') : json' = json.asMap := by
  unfold readRendered at h
  split at h
  · next found hfound =>
    obtain rfl := Option.some.inj h
    rw [← List.append_nil (json.render escape number)] at hfound
    have hresult := readJson_render hquoted hnumber json _ _ _ hfound
    rw [(Prod.mk.inj hresult).1]
  · cases h

end Rendered

end Reading

end Tightrope.Core
