import Tightrope.Library.Separators

namespace Tightrope.App

open Separators

abbrev Text := List Char

instance textLawfulBEq : LawfulBEq (List Char) := inferInstance

section Characters

def tab : Char := Char.ofNat 9

def lineFeed : Char := Char.ofNat 10

def carriageReturn : Char := Char.ofNat 13

def doubleQuote : Char := Char.ofNat 34

def singleQuote : Char := Char.ofNat 39

def isSpace (c : Char) : Bool :=
  let n := c.toNat
  (9 ≤ n && n ≤ 13) || n = 0x20 || n = 0xA0 || n = 0x1680 || (0x2000 ≤ n && n ≤ 0x200A) || n = 0x2028 || n = 0x2029 ||
    n = 0x202F || n = 0x205F || n = 0x3000 || n = 0xFEFF

def isLineTerminator (c : Char) : Bool := c.toNat ∈ [10, 13, 0x2028, 0x2029]

-- `[A-Za-z0-9_.-]`
def isKeyChar (c : Char) : Bool := c.isAlphanum || c = '_' || c = '.' || c = '-'

end Characters

def trimStart (value : Text) : Text := value.dropWhile isSpace

def trimEnd (value : Text) : Text := (value.reverse.dropWhile isSpace).reverse

def trim (value : Text) : Text := trimEnd (trimStart value)

def tightropeProviderName : Text := "tightrope".toList

def tightropeProviderSection : Text := "model_providers.tightrope".toList

def modelProvider : Text := "model_provider".toList

def inQuotes (value : Text) : Text := doubleQuote :: (value ++ [doubleQuote])

def tightropeProviderSettings : List (Text × Text) :=
  [("name".toList, inQuotes "OpenAI".toList),
    ("base_url".toList, inQuotes "http://127.0.0.1:2455/backend-api/codex".toList),
    ("wire_api".toList, inQuotes "responses".toList),
    ("supports_websockets".toList, "true".toList),
    ("requires_openai_auth".toList, "true".toList)]

def requiredSettingKeys : List Text := tightropeProviderSettings.map Prod.fst

def assignment (key value : Text) : Text := key ++ " = ".toList ++ value

def header (name : Text) : Text := '[' :: (name ++ [']'])

section Inspection

def stripInlineComment (value : Text) : Text := trim (value.takeWhile (· ≠ '#'))

-- `/^"(.*)"$/`, for either quote
def unquoted (quote : Char) : Text → Option Text
  | [] => none
  | c :: rest =>
    if c = quote ∧ rest.getLast? = some quote ∧ rest.dropLast.any isLineTerminator = false then
      some rest.dropLast else none

def parseTomlStringValue (rawValue : Text) : Option Text :=
  let value := stripInlineComment rawValue
  (unquoted doubleQuote value).or (unquoted singleQuote value)

def parseTomlKeyValueExpression (value : Text) : Option (Text × Text) :=
  let key := value.takeWhile isKeyChar
  match (value.dropWhile isKeyChar).dropWhile isSpace with
  | [] => none
  | c :: rest =>
    if c ≠ '=' ∨ key = [] then none
    else
      let rawValue := rest.dropWhile isSpace
      if rawValue = [] then if rest.getLast?.all isLineTerminator then none else some (key, [])
      else if rawValue.any isLineTerminator then none
      else some (key, trim rawValue)

def parseActiveTomlExpression (line : Text) : Option Text :=
  let trimmed := trimStart line
  if trimmed = [] ∨ trimmed.head? = some '#' then none
  else
    let expression := stripInlineComment trimmed
    if expression = [] then none else some expression

def parseCommentedTomlExpression (line : Text) : Option Text :=
  let trimmed := trimStart line
  if trimmed.head? ≠ some '#' then none
  else
    let expression := stripInlineComment (trimStart trimmed.tail)
    if expression = [] then none else some expression

-- `/^\[([^\]]+)\]$/`
def bracketed : Text → Option Text
  | [] => none
  | c :: rest =>
    if c = '[' ∧ rest.getLast? = some ']' ∧ rest.dropLast ≠ [] ∧ ']' ∉ rest.dropLast then some rest.dropLast else none

def parseSectionName (expression : Option Text) : Option Text := expression.bind bracketed

structure Inspection where
  activeSettingKeys : List Text := []
  commentedSettingKeys : List Text := []
  activeSectionName : Option Text := none
  commentedSectionName : Option Text := none
  activeModelProvider : Option Text := none
  hasActiveProviderSection : Bool := false
  hasCommentedModelProvider : Bool := false
  hasCommentedProviderSection : Bool := false

namespace Inspection

variable (s : Inspection)

def activeSection (name : Text) : Inspection :=
  { s with
    activeSectionName := some name
    commentedSectionName := none
    hasActiveProviderSection := s.hasActiveProviderSection || name = tightropeProviderSection }

def commentedSection (name : Text) : Inspection :=
  { s with
    commentedSectionName := some name
    hasCommentedProviderSection := s.hasCommentedProviderSection || name = tightropeProviderSection }

def activeEntry (key rawValue : Text) : Inspection :=
  { s with
    activeModelProvider := if s.activeSectionName = none ∧ key = modelProvider then parseTomlStringValue rawValue
      else s.activeModelProvider
    activeSettingKeys := if s.activeSectionName = some tightropeProviderSection ∧ key ∈ requiredSettingKeys then
      key :: s.activeSettingKeys else s.activeSettingKeys }

def commentedEntry (key rawValue : Text) : Inspection :=
  { s with
    hasCommentedModelProvider :=
      if s.activeSectionName = none ∧ s.commentedSectionName = none ∧ key = modelProvider then
      parseTomlStringValue rawValue = some tightropeProviderName else s.hasCommentedModelProvider
    commentedSettingKeys := if (s.activeSectionName = some tightropeProviderSection ∨
      s.commentedSectionName = some tightropeProviderSection) ∧ key ∈ requiredSettingKeys then
      key :: s.commentedSettingKeys else s.commentedSettingKeys }

def line (line : Text) : Inspection :=
  let activeExpression := parseActiveTomlExpression line
  match parseSectionName activeExpression with
  | some name => s.activeSection name
  | none =>
    let commentedExpression := parseCommentedTomlExpression line
    match parseSectionName commentedExpression with
    | some name => s.commentedSection name
    | none =>
      match parseTomlKeyValueExpression (activeExpression.getD []) with
      | some (key, rawValue) => s.activeEntry key rawValue
      | none =>
        match parseTomlKeyValueExpression (commentedExpression.getD []) with
        | some (key, rawValue) => s.commentedEntry key rawValue
        | none => s

end Inspection

structure TightropeSetupState where
  configured : Bool
  hasCommentedProviderEntry : Bool
  hasCommentedSettingsEntry : Bool
  deriving DecidableEq

def withoutReturn (line : Text) : Text := if line.getLast? = some carriageReturn then line.dropLast else line

def withoutReturns : List Text → List Text
  | [] => []
  | [last] => [last]
  | line :: next :: lines => withoutReturn line :: withoutReturns (next :: lines)

-- `split(/\r?\n/)`
def splitLines (configText : Text) : List Text := withoutReturns (configText.splitOn lineFeed)

def inspectLines (lines : List Text) : Inspection := lines.foldl Inspection.line {}

def inspectTightropeSetup (configText : Text) : TightropeSetupState :=
  let s := inspectLines (splitLines configText)
  { configured := s.activeModelProvider = some tightropeProviderName && s.hasActiveProviderSection &&
      requiredSettingKeys.all fun key => key ∈ s.activeSettingKeys
    hasCommentedProviderEntry := s.hasCommentedModelProvider || s.hasCommentedProviderSection
    hasCommentedSettingsEntry := 0 < s.commentedSettingKeys.length }

end Inspection

section Editing

def sectionNameForLine (line : Text) : Option Text :=
  let trimmed := trim line
  if trimmed = [] ∨ trimmed.head? = some '#' then none else bracketed trimmed

def isActiveSectionHeader (line : Text) : Bool :=
  let trimmed := trim line
  trimmed ≠ [] && trimmed.head? ≠ some '#' && (bracketed trimmed).isSome

-- `^${key}\s*=`
def isActiveKeyLine (line key : Text) : Bool :=
  let trimmed := trim line
  trimmed ≠ [] && trimmed.head? ≠ some '#' && key.isPrefixOf trimmed &&
    ((trimmed.drop key.length).dropWhile isSpace).head? = some '='

-- `/^([A-Za-z0-9_.-]+)\s*=/`
def keyOfLine (line : Text) : Option Text :=
  let trimmed := trim line
  if trimmed = [] ∨ trimmed.head? = some '#' then none
  else
    let key := trimmed.takeWhile isKeyChar
    if key ≠ [] ∧ ((trimmed.dropWhile isKeyChar).dropWhile isSpace).head? = some '=' then some key else none

def sectionBoundsFrom (sectionName : Text) : Option ℕ → ℕ → List Text → Option (ℕ × ℕ)
  | sectionStart, index, [] => sectionStart.map fun start => (start, index)
  | sectionStart, index, line :: lines =>
    match sectionNameForLine line, sectionStart with
    | none, _ => sectionBoundsFrom sectionName sectionStart (index + 1) lines
    | some currentSection, none =>
      sectionBoundsFrom sectionName (if currentSection = sectionName then some index else none) (index + 1) lines
    | some _, some start => some (start, index)

def findSectionBounds (lines : List Text) (sectionName : Text) : Option (ℕ × ℕ) :=
  sectionBoundsFrom sectionName none 0 lines

def splice (lines : List Text) (index : ℕ) (added : List Text) : List Text :=
  lines.take index ++ added ++ lines.drop index

def modelProviderLine : Text := assignment modelProvider (inQuotes tightropeProviderName)

def replaceModelProvider : Bool → List Text → List Text × Bool
  | seenModelProvider, [] => ([], seenModelProvider)
  | seenModelProvider, line :: lines =>
    if isActiveKeyLine line modelProvider = false then
      let updated := replaceModelProvider seenModelProvider lines
      (line :: updated.1, updated.2)
    else
      let updated := replaceModelProvider true lines
      (if seenModelProvider then updated.1 else modelProviderLine :: updated.1, updated.2)

def upsertModelProvider (lines : List Text) : List Text :=
  let updated := replaceModelProvider false lines
  if updated.2 then updated.1
  else splice updated.1 ((updated.1.findIdx? isActiveSectionHeader).getD updated.1.length) [modelProviderLine]

def settingLine (setting : Text × Text) : Text := assignment setting.1 setting.2

def upsertTightropeProviderSection (lines : List Text) : List Text :=
  match findSectionBounds lines tightropeProviderSection with
  | none =>
    let appended := if lines.getLast?.any fun last => trim last ≠ [] then lines ++ [[]] else lines
    appended ++ [header tightropeProviderSection] ++ tightropeProviderSettings.map settingLine
  | some (start, stop) =>
    let presentKeys := ((lines.take stop).drop (start + 1)).filterMap keyOfLine
    let missing := tightropeProviderSettings.filter fun setting => setting.1 ∉ presentKeys
    if missing = [] then lines else splice lines stop (missing.map settingLine)

-- `replace(/\r\n/g, '\n')`
def replaceReturns : Text → Text
  | [] => []
  | c :: rest => if c = carriageReturn ∧ rest.head? = some lineFeed then replaceReturns rest
    else c :: replaceReturns rest

def buildUpdatedConfig (existingConfig : Text) : Text :=
  let normalized := replaceReturns existingConfig
  let lines := if normalized = [] then [] else normalized.splitOn lineFeed
  let joined := join lineFeed (upsertTightropeProviderSection (upsertModelProvider lines))
  if joined.getLast? = some lineFeed then joined else joined ++ [lineFeed]

end Editing

end Tightrope.App
