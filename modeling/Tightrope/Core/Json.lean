import Tightrope.Library.Bytes
import Tightrope.Library.FlatMap

namespace Tightrope.Core

open Bytes

inductive Json where
  | null
  | boolean (value : Bool)
  | number (value : UInt64)
  | string (value : Bytes)
  | array (items : List Json)
  | object (fields : List (Bytes × Json))

-- The entries of a `std::map` in the order of its keys.
abbrev JsonObject := List (Bytes × Json)

namespace Json

mutual

def decEq : (a b : Json) → Decidable (a = b)
  | .null, .null => .isTrue rfl
  | .boolean a, .boolean b => decidable_of_iff (a = b) (by simp)
  | .number a, .number b => decidable_of_iff (a = b) (by simp)
  | .string a, .string b => decidable_of_iff (a = b) (by simp)
  | .array a, .array b => @decidable_of_iff _ (a = b) (by simp) (decEqItems a b)
  | .object a, .object b => @decidable_of_iff _ (a = b) (by simp) (decEqFields a b)
  | .null, .boolean _ | .null, .number _ | .null, .string _ | .null, .array _ | .null, .object _
  | .boolean _, .null | .boolean _, .number _ | .boolean _, .string _ | .boolean _, .array _ | .boolean _, .object _
  | .number _, .null | .number _, .boolean _ | .number _, .string _ | .number _, .array _ | .number _, .object _
  | .string _, .null | .string _, .boolean _ | .string _, .number _ | .string _, .array _ | .string _, .object _
  | .array _, .null | .array _, .boolean _ | .array _, .number _ | .array _, .string _ | .array _, .object _
  | .object _, .null | .object _, .boolean _ | .object _, .number _ | .object _, .string _ | .object _, .array _ =>
    .isFalse nofun

def decEqItems : (a b : List Json) → Decidable (a = b)
  | [], [] => .isTrue rfl
  | [], _ :: _ | _ :: _, [] => .isFalse nofun
  | a :: as, b :: bs =>
    @decidable_of_iff _ (a = b ∧ as = bs) (by simp) (@instDecidableAnd _ _ (decEq a b) (decEqItems as bs))

def decEqFields : (a b : List (Bytes × Json)) → Decidable (a = b)
  | [], [] => .isTrue rfl
  | [], _ :: _ | _ :: _, [] => .isFalse nofun
  | (k, a) :: as, (l, b) :: bs =>
    @decidable_of_iff _ (k = l ∧ a = b ∧ as = bs) (by simp [and_assoc])
      (@instDecidableAnd _ _ _ (@instDecidableAnd _ _ (decEq a b) (decEqFields as bs)))

end

instance : DecidableEq Json := decEq

def string? : Json → Option Bytes
  | .string value => some value
  | _ => none

def object? : Json → Option JsonObject
  | .object fields => some fields
  | _ => none

def isNull : Json → Bool
  | .null => true
  | _ => false

def isBoolean : Json → Bool
  | .boolean _ => true
  | _ => false

end Json

namespace JsonObject

def find? (object : JsonObject) (key : Bytes) : Option Json := FlatMap.findEntry key object

-- `object[key] = value`
def set (object : JsonObject) (key : Bytes) (value : Json) : JsonObject := FlatMap.insertEntry key value object

def erase (object : JsonObject) (key : Bytes) : JsonObject := object.filter fun field => field.1 ≠ key

def hasField (object : JsonObject) (key : Bytes) : Bool := (object.find? key).isSome

-- `json_string_field`
def string? (object : JsonObject) (key : Bytes) : Option Bytes := (object.find? key).bind Json.string?

variable {object : JsonObject} {key key' : Bytes}

@[simp] theorem find?_set (object : JsonObject) (key key' : Bytes) (value : Json) :
    (object.set key value).find? key' = if key' = key then some value else object.find? key' := by
  have hset := FlatMap.findEntry_insertEntry object key key' value
  rw [find?, set, hset]
  split_ifs <;> rfl

@[simp] theorem find?_erase (object : JsonObject) (key key' : Bytes) :
    (object.erase key).find? key' = if key' = key then none else object.find? key' := by
  unfold find? erase
  induction object with
  | nil => simp [FlatMap.findEntry]
  | cons field fields ih =>
    rw [List.filter_cons]
    by_cases hkey : field.1 = key
    · rw [if_neg (by simp [hkey]), ih, FlatMap.findEntry]
      by_cases hkey' : key' = key
      · rw [if_pos hkey', if_pos hkey']
      · rw [if_neg hkey', if_neg hkey', if_neg fun h => hkey' (h.symm.trans hkey)]
    · rw [if_pos (by simp [hkey]), FlatMap.findEntry, FlatMap.findEntry, ih]
      by_cases hkey' : key' = key
      · rw [if_pos hkey', if_pos hkey', if_neg fun h => hkey (h.trans hkey')]
      · rw [if_neg hkey', if_neg hkey']

end JsonObject

structure JsonLibrary where
  read : Bytes → Option Json
  write : Json → Option Bytes

namespace JsonLibrary

variable (lib : JsonLibrary)

def readObject (text : Bytes) : Option JsonObject := (lib.read text).bind Json.object?

def readString (text key : Bytes) : Option Bytes := (lib.readObject text).bind (·.string? key)

end JsonLibrary

end Tightrope.Core
