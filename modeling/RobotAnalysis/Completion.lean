import RobotAnalysis.Cursor
import RobotAnalysis.Scope

/-!
# Completion

What may be written at a place: section headings anywhere, and in a section the reserved words,
keywords and variables that have a meaning there. A candidate is offered when one of the texts it is
looked up by begins with what has been typed in the cell so far, up to case.
-/
namespace RobotAnalysis

inductive CompletionKind
  | heading
  | setting
  | importing
  | bracketSetting
  | gherkin
  | marker
  | keyword
  | variable_
  deriving DecidableEq, Repr

namespace CompletionKind

/-- The number of a kind in the language server protocol. -/
def lsp : CompletionKind → Nat
  | .heading | .importing => 9
  | .setting | .bracketSetting => 10
  | .gherkin | .marker => 14
  | .keyword => 3
  | .variable_ => 6

end CompletionKind

/-- What an editor writes after a candidate. -/
inductive Tail
  | none
  | space
  /-- A cell separator, of which blanks already there are a part. -/
  | separator
  | newline
  deriving DecidableEq, Repr

structure CompletionItem where
  /-- The text that is written. -/
  label : Text
  kind : CompletionKind
  tail : Tail
  /-- The texts by which the candidate is found. -/
  lookups : List Text
  deriving DecidableEq, Repr

namespace CompletionItem

/-- A candidate found by its label and some further texts, each kept once. -/
def make (label : Text) (kind : CompletionKind) (tail : Tail) (lookups : List Text) :
    CompletionItem :=
  ⟨label, kind, tail, Sequence.distinctBy id (label :: lookups)⟩

/-- Whether a lookup text of the candidate begins with a typed text, up to case. -/
def isFoundBy (item : CompletionItem) (typed : Text) : Bool :=
  item.lookups.any fun l => typed.lowerInContext.isPrefixOf l.lowerInContext

def ofWord (kind : CompletionKind) (tail : Tail) (w : Reserved.Word) : CompletionItem :=
  let lookup := w.lookup.toList
  let presentation := w.presentation.toList
  make presentation kind tail
    [lookup, Name.capitalize lookup, Name.capitalize presentation,
      Text.lowerInContext presentation]

def ofKeyword (capitalize : Bool) (k : Keyword) : CompletionItem :=
  make (if capitalize then Name.capitalize k.name else k.name) .keyword
    (if k.takesArguments then .separator else .none)
    [k.name, Name.capitalize k.name, k.name.lowerInContext]

/-- The candidate of a variable, of which only the first word is written. -/
def ofVariable (v : Variable) : CompletionItem :=
  let word := v.text.words.headD v.text
  make word .variable_ .none
    [v.text, Name.capitalize v.text, v.text.lowerInContext, word, word.lowerInContext]

end CompletionItem

namespace Workspace

def wordItems (category : Reserved.Category) (kind : CompletionKind) (tail : Tail) :
    List CompletionItem :=
  category.words.map (.ofWord kind tail)

/-- The reserved words that may be written in a section of some kind. -/
def wordCandidates (kind : HeadingKind) : List CompletionItem :=
  let body :=
    if kind.holdsBodies then
      wordItems .bracketSetting .bracketSetting .separator ++ wordItems .marker .marker .separator
    else []
  let steps := if kind.holdsTestCases then wordItems .gherkin .gherkin .space else []
  let settings :=
    if kind.isSettings then
      wordItems .setting .setting .separator ++ wordItems .importing .importing .separator
    else []
  wordItems .heading .heading .newline ++ body ++ steps ++ settings

/-- The keywords and variables that may be written at an offset in a section of some kind. -/
def symbolCandidates (options : Options) (kind : HeadingKind) (scope : Scope) (offset : Nat) :
    List CompletionItem :=
  let keywords :=
    if kind.holdsBodies then
      (Keyword.distinct scope.keywords).map (.ofKeyword options.capitalizeKeywords)
    else []
  keywords ++ (Variable.distinct (scope.variablesAt offset)).map .ofVariable

/-- The candidates that fit what has been typed before an offset of a document. -/
def fitting (d : Document) (offset : Nat) (all : List CompletionItem) : List CompletionItem :=
  let typed := d.source.text.typedBefore offset
  if typed.isEmpty then all else all.filter fun item => item.isFoundBy typed

/-- The candidates at an offset, whatever has been typed. -/
def candidates (ws : Workspace) (d : Document) (offset : Nat) : List CompletionItem :=
  let kind := SectionModel.kindAt d.sections offset
  let symbols :=
    if kind.holdsBodies || kind.isSettings then
      symbolCandidates ws.options kind (Scope.ofDocument ws d) offset
    else []
  wordCandidates kind ++ symbols

/-- The candidates at an offset that fit what has been typed. -/
def completions (ws : Workspace) (d : Document) (offset : Nat) : List CompletionItem :=
  fitting d offset (ws.candidates d offset)

end Workspace

end RobotAnalysis
