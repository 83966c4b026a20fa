import RobotAnalysis.Row

/-!
# Parsing

Every text is a document. Its lines are grouped by the headings among them, and the lines of a
section into rows and definitions as its heading demands. What does not fit is kept in the tree and
reported as a `SyntaxError` on the line where it stands.
-/
namespace RobotAnalysis

/-- Why a line does not fit. -/
inductive SyntaxFault
  | unknownHeading
  | settingContinuationAlone
  | variableContinuationAlone
  /-- An import, named as it is written, that imports nothing. -/
  | importWithoutName (setting : Text)
  | invalidVariableName (name : Text)
  | unknownSetting (name : Text)
  | missingTestCaseName
  | missingKeywordName
  deriving DecidableEq, Repr

namespace SyntaxFault

/-- The message shown to the user. -/
def message : SyntaxFault → Text
  | .unknownHeading => "Unrecognized section header".toList
  | .settingContinuationAlone => "Continuation line without a setting".toList
  | .variableContinuationAlone => "Continuation line without a variable".toList
  | .importWithoutName setting => setting ++ " import requires a name".toList
  | .invalidVariableName name => "Invalid variable name '".toList ++ name ++ ['\'']
  | .unknownSetting name => "Unknown setting '".toList ++ name ++ ['\'']
  | .missingTestCaseName => "Missing test case name".toList
  | .missingKeywordName => "Missing keyword name".toList

end SyntaxFault

/-- A fault and the line where it stands. -/
structure SyntaxError where
  fault : SyntaxFault
  span : Span
  deriving DecidableEq, Repr

/-- Trees together with the errors found in them. -/
structure Parsed (α : Type) where
  value : α
  errors : List SyntaxError
  deriving DecidableEq, Repr

namespace Parsed

/-- Consecutive results as one; errors keep the order of the text. -/
def sequence {α : Type} : List (Parsed α) → Parsed (List α)
  | [] => ⟨[], []⟩
  | p :: ps =>
    let rest := sequence ps
    ⟨p.value :: rest.value, p.errors ++ rest.errors⟩

end Parsed

/-- What a row becomes: its node, the shape that gives its cells their roles, and its faults. -/
structure RowForm where
  kind : NodeKind
  shape : RowShape
  faults : List SyntaxFault
  deriving DecidableEq, Repr

namespace RowForm

/-- A row that is not interpreted. -/
def plain (faults : List SyntaxFault) : RowForm := ⟨.otherRow, .other, faults⟩

def ofSetting (r : Row) : RowForm :=
  if r.head.isContinuation then plain [.settingContinuationAlone]
  else if Reserved.isImportSetting r.name then
    ⟨.importing, .importing, if r.cellCount < 2 then [.importWithoutName r.name] else []⟩
  else ⟨.setting, .setting (Reserved.isFixtureSetting r.name), []⟩

def ofVariable (r : Row) : RowForm :=
  if r.head.isContinuation then plain [.variableContinuationAlone]
  else
    ⟨.variableRow, .variableRow,
      if VariableToken.isWholeCell r.name then [] else [.invalidVariableName r.name]⟩

/-- The node and shape of a row of a body that begins with a cell. -/
def shapeInBody (first : Text) : NodeKind × RowShape :=
  if first = Line.continuationMark then (.otherRow, .other)
  else if Reserved.isBracketed first then
    (.bracketRow,
      .bracket (Reserved.isFixtureBracketSetting first) (Reserved.isArgumentsBracketSetting first))
  else if Reserved.isControlMarker first then (.controlRow, .control)
  else (.callRow, .call)

/-- A row of the body of a test case or user keyword. -/
def ofBody (r : Row) : RowForm :=
  let (kind, shape) := shapeInBody r.name
  ⟨kind, shape,
    if Reserved.isBracketed r.name && !Reserved.isKnownBracketSetting r.name then
      [.unknownSetting r.name]
    else []⟩

/-- The node of a row, with its errors on the first line. -/
def parse (form : Row → RowForm) (r : Row) : Parsed Tree :=
  let f := form r
  ⟨.node f.kind (r.trees f.shape), f.faults.map fun fault => ⟨fault, r.head.span⟩⟩

end RowForm

namespace Item

def parse (form : Row → RowForm) : Item → Parsed (List Tree)
  | .blank l => ⟨l.bare, []⟩
  | .row r =>
    let parsed := RowForm.parse form r
    ⟨[parsed.value], parsed.errors⟩

/-- The trees of consecutive items. -/
def parseAll (form : Row → RowForm) (items : List Item) : Parsed (List Tree) :=
  let parts := Parsed.sequence (items.map (parse form))
  ⟨parts.value.flatten, parts.errors⟩

end Item

/-- A test case or user keyword: its first line, and the lines of its body after that. -/
structure Definition where
  first : Line
  body : List Line
  deriving DecidableEq, Repr

namespace Definition

/-- Whether a line begins a definition where another one is open. -/
def begins (l : Line) : Bool := !l.isBlank && !l.isIndented && !l.isContinuation

/-- The lines of a section as the blank lines at its start and its definitions. -/
def ofLines (ls : List Line) : List Line × List Definition :=
  match ls.dropWhile Line.isBlank with
  | [] => (ls, [])
  | first :: rest =>
    let (body, more) := Sequence.groupAt begins rest
    (ls.takeWhile Line.isBlank, ⟨first, body⟩ :: more.map fun d => ⟨d.1, d.2⟩)

/-- The trees of the line that names a definition: the name, and the row after it if there is one. -/
def nameLine (l : Line) : List Tree :=
  match l.parts with
  | .cell name :: rest =>
    let gaps := rest.takeWhile fun p => !p.isCell
    let row := rest.dropWhile fun p => !p.isCell
    let nameTree : Tree := .node (.cell .definitionName) (name.map .leaf)
    match row.head? >>= Part.cellText? with
    | none => nameTree :: rest.flatMap Part.bare
    | some first =>
      let (kind, shape) := RowForm.shapeInBody first
      nameTree :: (gaps.flatMap Part.bare ++ [.node kind ((Roles.start shape).assign row).1])
  | parts => parts.flatMap Part.bare

/-- The node of a definition. Where the first line is indented it belongs to the body and the name
is missing. -/
def parse (kind : NodeKind) (d : Definition) : Parsed Tree :=
  if d.first.isIndented then
    let body := Item.parseAll RowForm.ofBody (Item.ofLines (d.first :: d.body))
    let fault := if kind = .testCase then SyntaxFault.missingTestCaseName else .missingKeywordName
    ⟨.node kind body.value, ⟨fault, d.first.span⟩ :: body.errors⟩
  else
    let body := Item.parseAll RowForm.ofBody (Item.ofLines d.body)
    ⟨.node kind (nameLine d.first ++ body.value), body.errors⟩

/-- The trees of the lines of a section that holds definitions. -/
def parseAll (kind : NodeKind) (ls : List Line) : Parsed (List Tree) :=
  let (blanks, definitions) := ofLines ls
  let nodes := Parsed.sequence (definitions.map (parse kind))
  ⟨blanks.flatMap Line.bare ++ nodes.value, nodes.errors⟩

end Definition

/-- A heading and the lines up to the next one. -/
structure SectionLines where
  heading : Line
  body : List Line
  deriving DecidableEq, Repr

namespace SectionLines

/-- The kind of the section, read off the cells of its heading. -/
def kind (s : SectionLines) : HeadingKind := HeadingKind.ofText s.heading.cellsText

/-- The trees of the lines below the heading. -/
def parseBody (s : SectionLines) : Parsed (List Tree) :=
  match s.kind with
  | .settings => Item.parseAll RowForm.ofSetting (Item.ofLines s.body)
  | .variableTable => Item.parseAll RowForm.ofVariable (Item.ofLines s.body)
  | .testCases | .tasks => Definition.parseAll .testCase s.body
  | .keywords => Definition.parseAll .userKeyword s.body
  | .comments | .unknown => Item.parseAll (fun _ => RowForm.plain []) (Item.ofLines s.body)

def parse (s : SectionLines) : Parsed Tree :=
  let body := s.parseBody
  ⟨.node .headed (.node .heading s.heading.bare :: body.value),
    (if s.kind = .unknown then [⟨.unknownHeading, s.heading.span⟩] else []) ++ body.errors⟩

end SectionLines

/-- The node of the lines before the first heading, if there are any. -/
def preambleTrees (lines : List Line) : List Tree :=
  if lines.isEmpty then [] else [.node .preamble (lines.flatMap Line.bare)]

def parseLines (lines : List Line) : Parsed Tree :=
  let (before, groups) := Sequence.groupAt Line.isHeading lines
  let sections := Parsed.sequence (groups.map fun g => SectionLines.parse ⟨g.1, g.2⟩)
  ⟨.node .document (preambleTrees before ++ sections.value), sections.errors⟩

def parse (text : Text) : Parsed Tree := parseLines (linesOf (tokenize text))

end RobotAnalysis
