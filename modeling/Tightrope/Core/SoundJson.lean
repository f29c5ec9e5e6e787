import Tightrope.Core.Json
import Tightrope.Library.UnicodeText

namespace Tightrope.Core

open Bytes

-- A value whose texts have a property and whose objects are maps.
inductive SoundOver (P : Bytes → Prop) : Json → Prop
  | null : SoundOver P .null
  | boolean (value : Bool) : SoundOver P (.boolean value)
  | number (value : UInt64) : SoundOver P (.number value)
  | string {value : Bytes} (h : P value) : SoundOver P (.string value)
  | array {items : List Json} (h : ∀ item ∈ items, SoundOver P item) : SoundOver P (.array items)
  | object {fields : JsonObject} (sorted : fields.Pairwise fun a b => a.1 < b.1)
      (keys : ∀ field ∈ fields, P field.1) (values : ∀ field ∈ fields, SoundOver P field.2) :
        SoundOver P (.object fields)

structure SoundObjectOver (P : Bytes → Prop) (object : JsonObject) : Prop where
  sorted : object.Pairwise fun a b => a.1 < b.1
  keys : ∀ field ∈ object, P field.1
  values : ∀ field ∈ object, SoundOver P field.2

abbrev Sound : Json → Prop := SoundOver Utf8.Valid

abbrev SoundObject : JsonObject → Prop := SoundObjectOver Utf8.Valid

-- A byte of a request's own words: printable ASCII or the line feed between two instructions.
def isPlainByte (b : UInt8) : Bool := (0x20 ≤ b && b < 0x7F) || b = 10

/-- A property that texts of plain bytes have and that texts put together from such texts keep. -/
class TextProperty (P : Bytes → Prop) : Prop where
  plain : ∀ {text : Bytes}, text.all isPlainByte = true → P text
  append : ∀ {first last : Bytes}, P first → P last → P (first ++ last)

instance : TextProperty Utf8.Valid where
  plain h := by
    apply Utf8.valid_of_all
    rw [List.all_eq_true] at h ⊢
    intro b hb
    have hplain := h b hb
    simp only [isPlainByte, Bool.or_eq_true, Bool.and_eq_true, decide_eq_true_eq, UInt8.le_iff_toNat_le,
      UInt8.lt_iff_toNat_lt, ← UInt8.toNat_inj, UInt8.reduceToNat] at hplain
    rw [decide_eq_true_eq]
    omega
  append := Utf8.Valid.append

variable {P : Bytes → Prop}

theorem sound_object_iff {object : JsonObject} : SoundOver P (.object object) ↔ SoundObjectOver P object := by
  constructor
  · rintro ⟨⟩
    next sorted keys values => exact ⟨sorted, keys, values⟩
  · rintro ⟨sorted, keys, values⟩
    exact .object sorted keys values

theorem SoundOver.items {items : List Json} (h : SoundOver P (.array items)) : ∀ item ∈ items, SoundOver P item := by
  cases h
  assumption

theorem SoundOver.valid {value : Bytes} (h : SoundOver P (.string value)) : P value := by
  cases h
  assumption

namespace SoundObjectOver

variable {object other : JsonObject} {key : Bytes} {value : Json}

theorem nil : SoundObjectOver P [] := ⟨.nil, by simp, by simp⟩

theorem set (h : SoundObjectOver P object) (hkey : P key) (hvalue : SoundOver P value) :
    SoundObjectOver P (object.set key value) := by
  refine ⟨FlatMap.sorted_insertEntry key value h.sorted, fun field hfield => ?_, fun field hfield => ?_⟩
  · obtain rfl | hfield := FlatMap.mem_insertEntry hfield
    · exact hkey
    · exact h.keys field hfield
  · obtain rfl | hfield := FlatMap.mem_insertEntry hfield
    · exact hvalue
    · exact h.values field hfield

theorem filter (h : SoundObjectOver P object) (p : Bytes × Json → Bool) : SoundObjectOver P (object.filter p) :=
  ⟨h.sorted.filter _, fun field hfield => h.keys field (List.mem_of_mem_filter hfield),
    fun field hfield => h.values field (List.mem_of_mem_filter hfield)⟩

theorem erase (h : SoundObjectOver P object) (key : Bytes) : SoundObjectOver P (object.erase key) := h.filter _

theorem foldl_erase (h : SoundObjectOver P object) (keys : List Bytes) :
    SoundObjectOver P (keys.foldl JsonObject.erase object) := by
  induction keys generalizing object with
  | nil => exact h
  | cons key keys ih => exact ih (h.erase key)

theorem mem_iff (h : SoundObjectOver P object) : (key, value) ∈ object ↔ object.find? key = some value :=
  FlatMap.mem_entries (m := ⟨object, h.sorted⟩)

theorem find? (h : SoundObjectOver P object) (hfind : object.find? key = some value) : SoundOver P value :=
  h.values _ (h.mem_iff.mpr hfind)

theorem string? (h : SoundObjectOver P object) {text : Bytes} (hstring : object.string? key = some text) :
    P text := by
  obtain ⟨value, hfind, hvalue⟩ := Option.bind_eq_some_iff.mp hstring
  cases value with
  | string text' =>
    cases hvalue
    exact (h.find? hfind).valid
  | _ => cases hvalue

theorem ext (h : SoundObjectOver P object) (h' : SoundObjectOver P other)
    (hsame : ∀ key, object.find? key = other.find? key) : object = other := by
  have heq : (⟨object, h.sorted⟩ : FlatMap Bytes Json) = ⟨other, h'.sorted⟩ := FlatMap.ext_find? hsame
  exact congrArg FlatMap.entries heq

theorem set_self (h : SoundObjectOver P object) (hfind : object.find? key = some value) :
    object.set key value = object := by
  have hset := h.set (h.keys _ (h.mem_iff.mpr hfind)) (h.find? hfind)
  refine hset.ext h fun key' => ?_
  rw [JsonObject.find?_set]
  split_ifs with heq
  · rw [heq, hfind]
  · rfl

theorem erase_set (h : SoundObjectOver P object) (hkey : P key) (hvalue : SoundOver P value)
    (hfind : object.find? key = none) : (object.set key value).erase key = object := by
  refine ((h.set hkey hvalue).erase key).ext h fun key' => ?_
  rw [JsonObject.find?_erase, JsonObject.find?_set]
  split_ifs with heq
  · rw [heq, hfind]
  · rfl

end SoundObjectOver

section Texts

mutual

-- The strings of a value and the keys of its objects.
def Json.texts : Json → List Bytes
  | .null | .boolean _ | .number _ => []
  | .string value => [value]
  | .array items => itemTexts items
  | .object fields => fieldTexts fields

def itemTexts : List Json → List Bytes
  | [] => []
  | item :: items => item.texts ++ itemTexts items

def fieldTexts : List (Bytes × Json) → List Bytes
  | [] => []
  | (key, value) :: fields => key :: (value.texts ++ fieldTexts fields)

end

variable {Q : Bytes → Prop}

mutual

theorem soundOver_of_texts : ∀ json : Json, SoundOver Q json → (∀ text ∈ json.texts, P text) → SoundOver P json
  | .null, _, _ => .null
  | .boolean value, _, _ => .boolean value
  | .number value, _, _ => .number value
  | .string value, _, h => .string (h value (List.mem_singleton.mpr rfl))
  | .array items, hsound, h => .array (soundItems_of_texts items hsound.items h)
  | .object fields, hsound, h => by
    have hfields := sound_object_iff.mp hsound
    obtain ⟨hkeys, hvalues⟩ := soundFields_of_texts fields hfields.values h
    exact .object hfields.sorted hkeys hvalues

theorem soundItems_of_texts : ∀ items : List Json, (∀ item ∈ items, SoundOver Q item) →
    (∀ text ∈ itemTexts items, P text) → ∀ item ∈ items, SoundOver P item
  | [], _, _ => List.forall_mem_nil _
  | item :: items, hsound, h => by
    obtain ⟨hitem, hitems⟩ := List.forall_mem_cons.mp hsound
    obtain ⟨htexts, hrest⟩ := List.forall_mem_append.mp h
    exact List.forall_mem_cons.mpr ⟨soundOver_of_texts item hitem htexts, soundItems_of_texts items hitems hrest⟩

theorem soundFields_of_texts : ∀ fields : List (Bytes × Json), (∀ field ∈ fields, SoundOver Q field.2) →
    (∀ text ∈ fieldTexts fields, P text) → (∀ field ∈ fields, P field.1) ∧ ∀ field ∈ fields, SoundOver P field.2
  | [], _, _ => ⟨List.forall_mem_nil _, List.forall_mem_nil _⟩
  | (key, value) :: fields, hsound, h => by
    obtain ⟨hvalue, hvalues⟩ := List.forall_mem_cons.mp hsound
    obtain ⟨hkey, htexts⟩ := List.forall_mem_cons.mp h
    obtain ⟨htexts, hrest⟩ := List.forall_mem_append.mp htexts
    obtain ⟨hkeys, hfields⟩ := soundFields_of_texts fields hvalues hrest
    exact ⟨List.forall_mem_cons.mpr ⟨hkey, hkeys⟩,
      List.forall_mem_cons.mpr ⟨soundOver_of_texts value hvalue htexts, hfields⟩⟩

end

mutual

theorem texts_of_soundOver : ∀ json : Json, SoundOver P json → ∀ text ∈ json.texts, P text
  | .null, _ | .boolean _, _ | .number _, _ => List.forall_mem_nil _
  | .string _, h => List.forall_mem_singleton.mpr h.valid
  | .array items, h => itemTexts_of_soundOver items h.items
  | .object fields, h => by
    have hfields := sound_object_iff.mp h
    exact fieldTexts_of_soundOver fields hfields.keys hfields.values

theorem itemTexts_of_soundOver : ∀ items : List Json, (∀ item ∈ items, SoundOver P item) →
    ∀ text ∈ itemTexts items, P text
  | [], _ => List.forall_mem_nil _
  | item :: items, h => by
    obtain ⟨hitem, hitems⟩ := List.forall_mem_cons.mp h
    exact List.forall_mem_append.mpr ⟨texts_of_soundOver item hitem, itemTexts_of_soundOver items hitems⟩

theorem fieldTexts_of_soundOver : ∀ fields : List (Bytes × Json), (∀ field ∈ fields, P field.1) →
    (∀ field ∈ fields, SoundOver P field.2) → ∀ text ∈ fieldTexts fields, P text
  | [], _, _ => List.forall_mem_nil _
  | (key, value) :: fields, hkeys, hvalues => by
    obtain ⟨hkey, hkeys⟩ := List.forall_mem_cons.mp hkeys
    obtain ⟨hvalue, hvalues⟩ := List.forall_mem_cons.mp hvalues
    exact List.forall_mem_cons.mpr ⟨hkey, List.forall_mem_append.mpr
      ⟨texts_of_soundOver value hvalue, fieldTexts_of_soundOver fields hkeys hvalues⟩⟩

end

end Texts

theorem erase_absent {object : JsonObject} {key : Bytes} (h : object.find? key = none) : object.erase key = object := by
  induction object with
  | nil => rfl
  | cons field fields ih =>
    rw [JsonObject.find?, FlatMap.findEntry] at h
    split_ifs at h with hkey
    rw [JsonObject.erase, List.filter_cons_of_pos (by simpa using hkey)]
    exact congrArg (field :: ·) (ih h)

section Ascii

-- In ASCII and without control characters below 0x20.
def isAscii (text : Bytes) : Bool := text.all fun b => 0x20 ≤ b.toNat && b.toNat ≤ 0x7F

theorem valid_of_isAscii {text : Bytes} (h : isAscii text = true) : Utf8.Valid text := by
  apply Utf8.valid_of_all
  rw [List.all_eq_true]
  intro b hb
  have hbyte := List.all_eq_true.mp h b hb
  rw [Bool.and_eq_true] at hbyte
  exact hbyte.2

mutual

-- Values without numbers, their strings in ASCII and their keys in order.
def isAsciiJson : Json → Bool
  | .null | .boolean _ => true
  | .number _ => false
  | .string value => isAscii value
  | .array items => areAsciiItems items
  | .object fields => areAsciiFields fields

def areAsciiItems : List Json → Bool
  | [] => true
  | item :: items => isAsciiJson item && areAsciiItems items

def areAsciiFields : List (Bytes × Json) → Bool
  | [] => true
  | (key, value) :: fields =>
    isAscii key && isAsciiJson value && (fields.all fun field => key < field.1) && areAsciiFields fields

end

mutual

theorem sound_of_isAscii : ∀ json : Json, isAsciiJson json = true → Sound json
  | .null, _ => .null
  | .boolean value, _ => .boolean value
  | .number _, h => nomatch h
  | .string _, h => .string (valid_of_isAscii h)
  | .array items, h => .array (sound_of_areAsciiItems items h)
  | .object fields, h => sound_object_iff.mpr (soundObject_of_areAsciiFields fields h)

theorem sound_of_areAsciiItems : ∀ items : List Json, areAsciiItems items = true → ∀ item ∈ items, Sound item
  | [], _ => by simp
  | item :: items, h => by
    rw [areAsciiItems, Bool.and_eq_true] at h
    exact List.forall_mem_cons.mpr ⟨sound_of_isAscii item h.1, sound_of_areAsciiItems items h.2⟩

theorem soundObject_of_areAsciiFields : ∀ fields : JsonObject, areAsciiFields fields = true → SoundObject fields
  | [], _ => .nil
  | (key, value) :: fields, h => by
    simp only [areAsciiFields, Bool.and_eq_true] at h
    obtain ⟨⟨⟨hkey, hvalue⟩, hsorted⟩, hrest⟩ := h
    have hfields := soundObject_of_areAsciiFields fields hrest
    refine ⟨List.pairwise_cons.mpr ⟨?_, hfields.sorted⟩,
      List.forall_mem_cons.mpr ⟨valid_of_isAscii hkey, hfields.keys⟩,
      List.forall_mem_cons.mpr ⟨sound_of_isAscii value hvalue, hfields.values⟩⟩
    exact fun field hfield => by simpa using List.all_eq_true.mp hsorted field hfield

end

end Ascii

end Tightrope.Core
