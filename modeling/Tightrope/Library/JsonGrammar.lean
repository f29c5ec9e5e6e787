import Mathlib.Data.List.Basic
import Tightrope.Library.BitGroups
import Tightrope.Library.UnicodeText

/-!
The grammar of JSON texts, over characters.
JSON texts over bytes: the grammar, with the bytes that may stand in a string as a parameter, and what a string
literal stands for.
-/

namespace JsonGrammar

def IsDigit (c : Char) : Prop := '0' ≤ c ∧ c ≤ '9'

def IsHexDigit (c : Char) : Prop := IsDigit c ∨ 'a' ≤ c ∧ c ≤ 'f' ∨ 'A' ≤ c ∧ c ≤ 'F'

def Whitespace (text : List Char) : Prop := ∀ c ∈ text, c ∈ [' ', '\t', '\n', '\r']

def Digits (text : List Char) : Prop := text ≠ [] ∧ ∀ c ∈ text, IsDigit c

inductive Integer : List Char → Prop
  | zero : Integer ['0']
  | positive {c : Char} {rest : List Char} (hc : '1' ≤ c ∧ c ≤ '9') (h : ∀ d ∈ rest, IsDigit d) : Integer (c :: rest)

inductive Fraction : List Char → Prop
  | none : Fraction []
  | digits {text : List Char} (h : Digits text) : Fraction ('.' :: text)

inductive Exponent : List Char → Prop
  | none : Exponent []
  | digits {e : Char} {sign text : List Char} (he : e ∈ ['e', 'E']) (hsign : sign ∈ [[], ['+'], ['-']])
      (h : Digits text) : Exponent (e :: sign ++ text)

def IsNumber (text : List Char) : Prop :=
  ∃ sign integer fraction exponent, text = sign ++ integer ++ fraction ++ exponent ∧ sign ∈ [[], ['-']] ∧
    Integer integer ∧ Fraction fraction ∧ Exponent exponent

inductive StringChar : List Char → Prop
  | unescaped {c : Char} (h : ' ' ≤ c) (hquote : c ≠ '"') (hbackslash : c ≠ '\\') : StringChar [c]
  | escaped {c : Char} (h : c ∈ ['"', '\\', '/', 'b', 'f', 'n', 'r', 't']) : StringChar ['\\', c]
  | unicode {digits : List Char} (hlength : digits.length = 4) (h : ∀ d ∈ digits, IsHexDigit d) :
      StringChar ('\\' :: 'u' :: digits)

def IsString (text : List Char) : Prop :=
  ∃ chars : List (List Char), text = '"' :: (chars.flatten ++ ['"']) ∧ ∀ char ∈ chars, StringChar char

def literals : List (List Char) := [['n', 'u', 'l', 'l'], ['t', 'r', 'u', 'e'], ['f', 'a', 'l', 's', 'e']]

inductive Phrase
  | value
  | text
  | elements
  | member
  | members

inductive Derives : Phrase → List Char → Prop
  | literal {text : List Char} (h : text ∈ literals) : Derives .value text
  | number {text : List Char} (h : IsNumber text) : Derives .value text
  | string {text : List Char} (h : IsString text) : Derives .value text
  | emptyArray {space : List Char} (h : Whitespace space) : Derives .value ('[' :: (space ++ [']']))
  | array {elements : List Char} (h : Derives .elements elements) : Derives .value ('[' :: (elements ++ [']']))
  | emptyObject {space : List Char} (h : Whitespace space) : Derives .value ('\x7b' :: (space ++ ['\x7d']))
  | object {members : List Char} (h : Derives .members members) : Derives .value ('\x7b' :: (members ++ ['\x7d']))
  | text {before value after : List Char} (hbefore : Whitespace before) (h : Derives .value value)
      (hafter : Whitespace after) : Derives .text (before ++ value ++ after)
  | lastElement {value : List Char} (h : Derives .text value) : Derives .elements value
  | element {value rest : List Char} (h : Derives .text value) (hrest : Derives .elements rest) :
      Derives .elements (value ++ ',' :: rest)
  | member {before name after value : List Char} (hbefore : Whitespace before) (hname : IsString name)
      (hafter : Whitespace after) (h : Derives .text value) : Derives .member (before ++ name ++ after ++ ':' :: value)
  | lastMember {member : List Char} (h : Derives .member member) : Derives .members member
  | nextMember {member rest : List Char} (h : Derives .member member) (hrest : Derives .members rest) :
      Derives .members (member ++ ',' :: rest)

def IsText (text : List Char) : Prop := Derives .text text

section Compact

theorem whitespace_nil : Whitespace [] := by simp [Whitespace]

theorem derives_emptyArray : Derives .value ['[', ']'] := .emptyArray whitespace_nil

theorem derives_emptyObject : Derives .value ['\x7b', '\x7d'] := .emptyObject whitespace_nil

theorem derives_text {value : List Char} (h : Derives .value value) : Derives .text value := by
  have htext : Derives .text ([] ++ value ++ []) := .text whitespace_nil h whitespace_nil
  rwa [List.nil_append, List.append_nil] at htext

theorem derives_member {name value : List Char} (hname : IsString name) (h : Derives .value value) :
    Derives .member (name ++ ':' :: value) := by
  have hmember : Derives .member ([] ++ name ++ [] ++ ':' :: value) :=
    .member whitespace_nil hname whitespace_nil (derives_text h)
  rwa [List.nil_append, List.append_nil] at hmember

end Compact

end JsonGrammar

namespace JsonBytes

open Bytes JsonGrammar

def ofChars (text : List Char) : Bytes := text.map fun c => UInt8.ofNat c.toNat

def hexValue (c : UInt8) : Option ℕ :=
  if 48 ≤ c ∧ c ≤ 57 then some (c.toNat - 48)
  else if 97 ≤ c ∧ c ≤ 102 then some (c.toNat - 87)
  else if 65 ≤ c ∧ c ≤ 70 then some (c.toNat - 55)
  else none

section Grammar

variable (raw : UInt8 → Prop)

inductive StringUnit : Bytes → Prop
  | unescaped {b : UInt8} (h : raw b) (hquote : b ≠ 34) (hbackslash : b ≠ 92) : StringUnit [b]
  | escaped {b : UInt8} (h : b ∈ ofString "\"\\/bfnrt") : StringUnit [92, b]
  | unicode {digits : Bytes} (hlength : digits.length = 4) (h : ∀ d ∈ digits, (hexValue d).isSome) :
      StringUnit (92 :: 117 :: digits)

def IsLiteral (text : Bytes) : Prop :=
  ∃ units : List Bytes, text = 34 :: (units.flatten ++ [34]) ∧ ∀ unit ∈ units, StringUnit raw unit

def IsSpace (text : Bytes) : Prop := ∀ b ∈ text, b ∈ ofString " \t\n\r"

inductive Derives : Phrase → Bytes → Prop
  | literal {text : List Char} (h : text ∈ literals) : Derives .value (ofChars text)
  | number {text : List Char} (h : IsNumber text) : Derives .value (ofChars text)
  | string {text : Bytes} (h : IsLiteral raw text) : Derives .value text
  | emptyArray {space : Bytes} (h : IsSpace space) : Derives .value (91 :: (space ++ [93]))
  | array {elements : Bytes} (h : Derives .elements elements) : Derives .value (91 :: (elements ++ [93]))
  | emptyObject {space : Bytes} (h : IsSpace space) : Derives .value (123 :: (space ++ [125]))
  | object {members : Bytes} (h : Derives .members members) : Derives .value (123 :: (members ++ [125]))
  | text {before value after : Bytes} (hbefore : IsSpace before) (h : Derives .value value) (hafter : IsSpace after) :
      Derives .text (before ++ value ++ after)
  | lastElement {value : Bytes} (h : Derives .text value) : Derives .elements value
  | element {value rest : Bytes} (h : Derives .text value) (hrest : Derives .elements rest) :
      Derives .elements (value ++ 44 :: rest)
  | member {before name after value : Bytes} (hbefore : IsSpace before) (hname : IsLiteral raw name)
      (hafter : IsSpace after) (h : Derives .text value) : Derives .member (before ++ name ++ after ++ 58 :: value)
  | lastMember {member : Bytes} (h : Derives .member member) : Derives .members member
  | nextMember {member rest : Bytes} (h : Derives .member member) (hrest : Derives .members rest) :
      Derives .members (member ++ 44 :: rest)

end Grammar

def IsText (text : Bytes) : Prop := Derives (0x20 ≤ ·) .text text

def IsTextWithRawControls (text : Bytes) : Prop := Derives (fun _ => True) .text text

section Unquoted

theorem digit_ne_quote {c : Char} (h : IsDigit c) : UInt8.ofNat c.toNat ≠ 34 := by
  obtain ⟨hlow, hhigh⟩ := h
  have hle : 48 ≤ c.toNat ∧ c.toNat ≤ 57 := ⟨hlow, hhigh⟩
  intro heq
  have hnat := congrArg UInt8.toNat heq
  rw [UInt8.toNat_ofNat', Nat.mod_eq_of_lt (by omega)] at hnat
  change c.toNat = 34 at hnat
  omega

theorem quote_not_mem_ofChars {text : List Char} (h : ∀ c ∈ text, IsDigit c ∨ c ∈ ['-', '+', '.', 'e', 'E']) :
    34 ∉ ofChars text := by
  intro hmem
  obtain ⟨c, hc, heq⟩ := List.mem_map.mp hmem
  obtain hdigit | hsign := h c hc
  · exact digit_ne_quote hdigit heq
  · have hall : ∀ d ∈ ['-', '+', '.', 'e', 'E'], UInt8.ofNat d.toNat ≠ 34 := by simp
    exact hall c hsign heq

theorem quote_not_mem_number {text : List Char} (h : IsNumber text) : 34 ∉ ofChars text := by
  obtain ⟨sign, integer, fraction, exponent, rfl, hsign, hinteger, hfraction, hexponent⟩ := h
  apply quote_not_mem_ofChars
  intro c hc
  simp only [List.mem_append] at hc
  obtain ((hc | hc) | hc) | hc := hc
  · have hsigns : ∀ sign ∈ [[], ['-']], ∀ c ∈ sign, c ∈ ['-', '+', '.', 'e', 'E'] := by simp
    exact .inr (hsigns sign hsign c hc)
  · cases hinteger with
    | zero =>
      obtain rfl := List.mem_singleton.mp hc
      exact .inl (by unfold IsDigit; decide)
    | positive hfirst hrest =>
      obtain rfl | hc := List.mem_cons.mp hc
      · exact .inl ⟨le_trans (by decide) hfirst.1, hfirst.2⟩
      · exact .inl (hrest c hc)
  · cases hfraction with
    | none => cases hc
    | digits hdigits =>
      obtain rfl | hc := List.mem_cons.mp hc
      · exact .inr (by decide)
      · exact .inl (hdigits.2 c hc)
  · cases hexponent with
    | none => cases hc
    | digits he hsign hdigits =>
      obtain hc | hc := List.mem_append.mp hc
      · obtain rfl | hc := List.mem_cons.mp hc
        · have hmarks : ∀ e ∈ ['e', 'E'], e ∈ ['-', '+', '.', 'e', 'E'] := by simp
          exact .inr (hmarks _ he)
        · have hsigns : ∀ sign ∈ [[], ['+'], ['-']], ∀ c ∈ sign, c ∈ ['-', '+', '.', 'e', 'E'] := by simp
          exact .inr (hsigns _ hsign c hc)
      · exact .inl (hdigits.2 c hc)

theorem quote_not_mem_literal {text : List Char} (h : text ∈ literals) : 34 ∉ ofChars text :=
  (by decide +kernel : ∀ text ∈ literals, 34 ∉ ofChars text) text h

theorem quote_not_mem_space {text : Bytes} (h : IsSpace text) : 34 ∉ text :=
  fun hmem => absurd (h 34 hmem) (by decide)

end Unquoted

section Decoding

def simpleEscape (c : UInt8) : Option UInt8 :=
  if c = 34 ∨ c = 92 ∨ c = 47 then some c
  else if c = 98 then some 8
  else if c = 102 then some 12
  else if c = 110 then some 10
  else if c = 114 then some 13
  else if c = 116 then some 9
  else none

def codeUnit (digits : Bytes) : Option ℕ :=
  (digits.mapM hexValue).map fun values => values.foldl (fun unit value => 16 * unit + value) 0

def readUnicode (unit : ℕ) (rest : Bytes) : Option (Bytes × Bytes) :=
  if Utf16.IsHigh unit then
    match rest with
    | 92 :: 117 :: a :: b :: c :: d :: rest =>
      (codeUnit [a, b, c, d]).bind fun low =>
        if Utf16.IsLow low then some (String.utf8EncodeChar (Char.ofNat (Utf16.pair unit low)), rest) else none
    | _ => none
  else if Utf16.IsLow unit then none
  else some (String.utf8EncodeChar (Char.ofNat unit), rest)

def readUnit : Bytes → Option (Bytes × Bytes)
  | [] => none
  | 92 :: 117 :: a :: b :: c :: d :: rest => (codeUnit [a, b, c, d]).bind fun unit => readUnicode unit rest
  | 92 :: c :: rest => (simpleEscape c).map fun b => ([b], rest)
  | b :: rest => if b = 34 ∨ b = 92 ∨ b < 0x20 then none else some ([b], rest)

def readBody : ℕ → Bytes → Option (Bytes × Bytes)
  | 0, _ => none
  | fuel + 1, text =>
    if text.head? = some 34 then some ([], text.tail)
    else (readUnit text).bind fun (bytes, rest) => (readBody fuel rest).map fun (more, rest) => (bytes ++ more, rest)

/-- The value of the string literal at the start of a text, and the text behind it: each turn reads a byte or more. -/
def readString : Bytes → Option (Bytes × Bytes)
  | 34 :: text => readBody text.length text
  | _ => none

theorem readUnicode_of_lt {unit : ℕ} (h : unit < 0xD800) (rest : Bytes) :
    readUnicode unit rest = some (String.utf8EncodeChar (Char.ofNat unit), rest) := by
  unfold readUnicode
  rw [if_neg (by omega), if_neg (by omega)]

/-- Units that are read one after the other up to the closing quote. -/
theorem readBody_units {α : Type} {written : α → Bytes} {value : α → Bytes}
    (hunit : ∀ a rest, (written a ++ rest).head? ≠ some 34 ∧ readUnit (written a ++ rest) = some (value a, rest))
    (units : List α) (rest : Bytes) {fuel : ℕ} (hfuel : units.length < fuel) :
    readBody fuel (units.flatMap written ++ 34 :: rest) = some (units.flatMap value, rest) := by
  induction units generalizing fuel with
  | nil =>
    cases fuel with
    | zero => cases hfuel
    | succ fuel => rfl
  | cons a units ih =>
    cases fuel with
    | zero => cases hfuel
    | succ fuel =>
      obtain ⟨hhead, hread⟩ := hunit a (units.flatMap written ++ 34 :: rest)
      rw [List.flatMap_cons, List.append_assoc, readBody, if_neg hhead, hread, Option.bind_some]
      dsimp only
      rw [ih (Nat.lt_of_succ_lt_succ hfuel), Option.map_some, List.flatMap_cons]

end Decoding

end JsonBytes
