import Tightrope.App.CodexSetup
import Tightrope.Library.Headings

namespace Tightrope.App

open Headings

inductive TomlLine where
  | blank
  | comment
  | table (array : Bool) (key : List Text)
  | entry (key : Text)
  deriving DecidableEq

abbrev TomlTable := Bool × List Text

section Reading

def isBlank (c : Char) : Bool := c = ' ' || c = tab

def isQuote (c : Char) : Bool := c = doubleQuote || c = singleQuote

def isBareKeyChar (c : Char) : Bool := c.isAlphanum || c = '_' || c = '-'

def stripBlanks (text : Text) : Text := ((text.dropWhile isBlank).reverse.dropWhile isBlank).reverse

def keyPart (text : Text) : Text :=
  let part := stripBlanks text
  match part.head?, part.getLast? with
  | some first, some last => if isQuote first ∧ first = last ∧ 2 ≤ part.length then part.tail.dropLast else part
  | _, _ => part

def dottedKey (name : Text) : List Text := (name.splitOn '.').map keyPart

def scanName : Option Char → Text → Option (Text × Text)
  | _, [] => none
  | none, c :: rest =>
    if c = ']' then some ([], rest)
    else (scanName (if isQuote c then some c else none) rest).map fun found => (c :: found.1, found.2)
  | some _, [_] => none
  | some quote, c :: d :: rest =>
    if c = '\\' ∧ quote = doubleQuote then (scanName (some quote) rest).map fun found => (c :: d :: found.1, found.2)
    else (scanName (if c = quote then none else some quote) (d :: rest)).map fun found => (c :: found.1, found.2)

def endsLine (rest : Text) : Bool := (rest.dropWhile isBlank).head?.all (· = '#')

def readName (array : Bool) (text : Text) : Option TomlLine :=
  (scanName none text).bind fun found =>
    let rest := if array then found.2.tail else found.2
    if (array = true → found.2.head? = some ']') ∧ stripBlanks found.1 ≠ [] ∧ endsLine rest = true then
      some (.table array (dottedKey found.1))
    else none

def readEntry (text : Text) : Option TomlLine :=
  let key := text.takeWhile (· ≠ '=')
  let value := (text.dropWhile (· ≠ '=')).tail.dropWhile isBlank
  let keyed := text.head?.any (fun c => isBareKeyChar c || isQuote c) &&
    (key.any isQuote || key.all fun c => isBareKeyChar c || c = '.' || isBlank c)
  if '=' ∈ text ∧ keyed = true ∧ value.head?.any (fun c => isBareKeyChar c || isQuote c || c ∈ ['+', '[', '\x7b']) then
    some (.entry (stripBlanks key))
  else none

def readLine (line : Text) : Option TomlLine :=
  if carriageReturn ∈ line then none
  else
    match line.dropWhile isBlank with
    | [] => some .blank
    | c :: rest =>
      if c = '#' then some .comment
      else if c = '[' then if rest.head? = some '[' then readName true rest.tail else readName false rest
      else readEntry (c :: rest)

/-- Each line is blank, a comment, the header of a table or of an array of tables, or a key with its value. -/
def IsTomlText (text : Text) : Prop := ∀ line ∈ splitLines text, (readLine line).isSome = true

instance (text : Text) : Decidable (IsTomlText text) := inferInstanceAs (Decidable (∀ line ∈ splitLines text, _))

end Reading

section Tables

def opensTable (line : Text) : Option TomlTable :=
  match readLine line with
  | some (.table array key) => some (array, key)
  | _ => none

def providerTable : TomlTable := (false, ["model_providers".toList, "tightrope".toList])

def assignsProvider (line : Text) : Bool := readLine line = some (.entry modelProvider)

def tomlLines (text : Text) : List (Option TomlTable × Text) := placed opensTable none (splitLines text)

def keptLines (text : Text) : List (Option TomlTable × Text) :=
  (tomlLines text).filter fun place => !(place.1.isNone && assignsProvider place.2)

def definitions (table : List Text) (text : Text) : ℕ :=
  (splitLines text).countP fun line => opensTable line = some (false, table)

def MayAdd (place : Option TomlTable × Text) : Prop :=
  place.2 = [] ∨ place = (none, modelProviderLine) ∨
    (place.1 = some providerTable ∧
      (place.2 = header tightropeProviderSection ∨ place.2 ∈ tightropeProviderSettings.map settingLine))

/-- Editing a text is conservative: the edited text is configured and stays as it is when edited again, the lines of the
text are all there, in order and each in its table, what is added lands where it belongs, and no table is newly
defined twice. -/
structure Conservative (text : Text) : Prop where
  configured : (inspectTightropeSetup (buildUpdatedConfig text)).configured = true
  idempotent : buildUpdatedConfig (buildUpdatedConfig text) = buildUpdatedConfig text
  kept : (keptLines text).Sublist (tomlLines (buildUpdatedConfig text))
  added : ∃ added, (tomlLines (buildUpdatedConfig text)).Perm (keptLines text ++ added) ∧ ∀ place ∈ added, MayAdd place
  defined : ∀ table, 2 ≤ definitions table (buildUpdatedConfig text) → 2 ≤ definitions table text

end Tables

end Tightrope.App
