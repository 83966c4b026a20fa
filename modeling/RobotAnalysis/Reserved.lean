import RobotAnalysis.Text.CaseMap
import RobotAnalysis.Text.Trim

/-!
# Reserved words

The words with a meaning of their own: section headings, settings, imports, control markers and the
prefixes of behaviour-style steps. Headings and settings are compared without blanks and up to case,
control markers exactly as they are written.
-/
namespace RobotAnalysis

namespace Reserved

/-- A name without blanks and in lowercase, the form in which settings are compared. -/
def normalize (name : Text) : Text :=
  (name.filter fun c => !CharClass.isBlank c).flatMap CaseMap.lower

/-- Whether a name is one of some normalized words. -/
def isOneOf (words : List String) (name : Text) : Bool :=
  words.any fun w => w.toList == normalize name

/-- Whether a cell is exactly one of some words. -/
def isExactly (words : List String) (cell : Text) : Bool :=
  words.any fun w => w.toList == cell

end Reserved

inductive HeadingKind
  | settings
  | variableTable
  | testCases
  | tasks
  | keywords
  | comments
  | unknown
  deriving DecidableEq, Repr

namespace HeadingKind

/-- The kind that a heading such as `*** Test Cases ***` announces. -/
def ofText (heading : Text) : HeadingKind :=
  let name := heading.trim.trimBy (· == '*')
  if Reserved.isOneOf ["setting", "settings"] name then .settings
  else if Reserved.isOneOf ["variable", "variables"] name then .variableTable
  else if Reserved.isOneOf ["testcase", "testcases"] name then .testCases
  else if Reserved.isOneOf ["task", "tasks"] name then .tasks
  else if Reserved.isOneOf ["keyword", "keywords", "userkeyword", "userkeywords"] name then .keywords
  else if Reserved.isOneOf ["comment", "comments"] name then .comments
  else .unknown

def isSettings (k : HeadingKind) : Bool := k == .settings

/-- Sections that hold test cases; tasks are test cases under another name. -/
def holdsTestCases (k : HeadingKind) : Bool := k == .testCases || k == .tasks

def holdsKeywords (k : HeadingKind) : Bool := k == .keywords

/-- Sections that hold test cases or user keywords. -/
def holdsBodies (k : HeadingKind) : Bool := k.holdsTestCases || k.holdsKeywords

def holdsVariables (k : HeadingKind) : Bool := k == .variableTable

end HeadingKind

inductive ImportKind
  | library
  | resource
  | variableFile
  deriving DecidableEq, Repr

namespace ImportKind

/-- The kind that the first cell of a row names. -/
def ofSetting? (name : Text) : Option ImportKind :=
  if Reserved.isOneOf ["library"] name then some .library
  else if Reserved.isOneOf ["resource"] name then some .resource
  else if Reserved.isOneOf ["variables"] name then some .variableFile
  else none

end ImportKind

namespace Reserved

/-- A reserved word as completion offers it: what the user types to find it, and what is written. -/
structure Word where
  lookup : String
  presentation : String
  deriving DecidableEq, Repr

inductive Category
  | heading
  | setting
  | importing
  | bracketSetting
  | gherkin
  | marker
  deriving DecidableEq, Repr

/-- Words that are written as they are looked up. -/
def plainWords (ws : List String) : List Word := ws.map fun w => ⟨w, w⟩

def headingWords : List Word :=
  ["Settings", "Variables", "Test Cases", "Tasks", "Keywords", "Comments"].map
    fun w => ⟨w, "*** " ++ w ++ " ***"⟩

/-- The settings between brackets. -/
def bracketWords : List Word :=
  ["Documentation", "Tags", "Setup", "Teardown", "Template", "Timeout", "Arguments", "Return"].map
    fun w => ⟨w, "[" ++ w ++ "]"⟩

/-- The words that may stand before a step. -/
def gherkinWords : List Word := plainWords ["Given", "When", "Then", "And", "But"]

/-- The words of a group, in the order in which they are offered. -/
def Category.words : Category → List Word
  | .heading => headingWords
  | .setting =>
    plainWords ["Documentation", "Metadata", "Suite Setup", "Suite Teardown", "Test Setup",
      "Test Teardown", "Test Template", "Test Timeout", "Test Tags", "Force Tags", "Default Tags",
      "Task Setup", "Task Teardown", "Task Template", "Task Timeout", "Keyword Tags"]
  | .importing => plainWords ["Library", "Resource", "Variables"]
  | .bracketSetting => bracketWords
  | .gherkin => gherkinWords
  | .marker =>
    plainWords ["FOR", "IN", "IN RANGE", "IN ENUMERATE", "IN ZIP", "END", "IF", "ELSE IF", "ELSE",
      "WHILE", "TRY", "EXCEPT", "FINALLY", "BREAK", "CONTINUE", "RETURN"]

def isImportSetting (name : Text) : Bool := (ImportKind.ofSetting? name).isSome

/-- Settings whose first value is a keyword call. -/
def isFixtureSetting (name : Text) : Bool :=
  isOneOf ["suitesetup", "suiteteardown", "testsetup", "testteardown", "testtemplate", "tasksetup",
    "taskteardown", "tasktemplate"] name

/-- Whether a cell stands between brackets. -/
def isBracketed (cell : Text) : Bool := cell.head? == some '[' && cell.getLast? == some ']'

/-- Bracket settings that mean something; all brackets at both ends are left out. -/
def isKnownBracketSetting (name : Text) : Bool :=
  let inner := Sequence.dropTrailing (· == ']') (name.dropWhile (· == '['))
  bracketWords.any fun w => normalize w.lookup.toList == normalize inner

/-- Bracket settings whose first value is a keyword call. -/
def isFixtureBracketSetting (name : Text) : Bool :=
  isOneOf ["[setup]", "[teardown]", "[template]"] name

/-- The bracket setting whose values declare arguments. -/
def isArgumentsBracketSetting (name : Text) : Bool := isOneOf ["[arguments]"] name

/-- Words that make a row part of a control structure. -/
def isControlMarker (cell : Text) : Bool :=
  isExactly ["FOR", ":FOR", "END", "IF", "ELSE IF", "ELSE", "WHILE", "TRY", "EXCEPT", "FINALLY",
    "BREAK", "CONTINUE", "RETURN"] cell

/-- Words that begin a loop over values. -/
def isLoopMarker (cell : Text) : Bool := isExactly ["FOR", ":FOR"] cell

/-- Words between the variables of a loop and its values. -/
def isLoopInMarker (cell : Text) : Bool :=
  isExactly ["IN", "IN RANGE", "IN ENUMERATE", "IN ZIP"] cell

/-- The keyword call after a leading word such as `Given`, if something follows that word. -/
def withoutGherkin? (text : Text) : Option Text :=
  match Sequence.splitOnce? CharClass.isBlank text.trimStart with
  | none => none
  | some (first, rest) =>
    let call := Text.trimStart rest
    if (gherkinWords.any fun w => Text.sameAscii w.lookup.toList first) && !call.isEmpty then
      some call
    else none

end Reserved

end RobotAnalysis
