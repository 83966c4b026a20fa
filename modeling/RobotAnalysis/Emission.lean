import RobotAnalysis.LineTable
import RobotAnalysis.Parse
import RobotAnalysis.TreeBuilder

/-!
# Emitting a tree

Parsing with two cursors, one over the tokens of a document and one over its lines, that tells a
builder node by node and token by token what to put into the tree. A place in a line is reached by
bumping all tokens before it. Nothing here is sure to work: the result is `none` where a token or a
cell is asked for that is not there, and where a loop goes round without passing a line.
-/
namespace RobotAnalysis

/-- The state of emitting a tree. -/
structure Emission where
  /-- The number of the next token. -/
  pos : Nat
  /-- The lines from the next one on. -/
  rest : List LineEntry
  /-- What the builder has been told. -/
  calls : List BuilderCall
  errors : List SyntaxError
  deriving DecidableEq, Repr

namespace Emission

def start (kind : NodeKind) (e : Emission) : Emission :=
  { e with calls := e.calls ++ [.start kind] }

/-- Finishes the node started last. -/
def finish (e : Emission) : Emission := { e with calls := e.calls ++ [.finish] }

/-- Reports a fault on a line. -/
def report (fault : SyntaxFault) (line : LineEntry) (e : Emission) : Emission :=
  { e with errors := e.errors ++ [⟨fault, line.span⟩] }

@[simp] theorem pos_start (kind : NodeKind) (e : Emission) : (e.start kind).pos = e.pos := rfl

@[simp] theorem pos_report (fault : SyntaxFault) (line : LineEntry) (e : Emission) :
    (e.report fault line).pos = e.pos := rfl

/-- Repeats a step for the next line as long as there is one that satisfies a condition. -/
def whileLine {σ : Type} (rest : σ → List LineEntry) (condition : LineEntry → Bool)
    (step : LineEntry → σ → Option σ) (s : σ) : Option σ :=
  match rest s with
  | [] => some s
  | line :: _ =>
    if condition line then
      match step line s with
      | none => none
      | some s' =>
        if (rest s').length < (rest s).length then whileLine rest condition step s' else none
    else some s
termination_by (rest s).length

variable (tokens : List Token)

/-- Emits the tokens before the number `index`. -/
def bumpUntil (index : Nat) (e : Emission) : Option Emission :=
  if e.pos < index then
    match tokens[e.pos]? with
    | some t => bumpUntil index { e with pos := e.pos + 1, calls := e.calls ++ [.token t] }
    | none => none
  else some e
termination_by index - e.pos

/-- Emits a node around a range of tokens, after the tokens before it. -/
def emitRange (kind : NodeKind) (start stop : Nat) (e : Emission) : Option Emission := do
  let e ← e.bumpUntil tokens start
  let e ← (e.start kind).bumpUntil tokens stop
  return e.finish

/-- Emits the comment of a line and what is left of the line, and passes to the next one. -/
def finishLine (line : LineEntry) (e : Emission) : Option Emission := do
  let e ←
    match line.comment? with
    | some (start, stop) => e.emitRange tokens .comment start stop
    | none => some e
  let e ← e.bumpUntil tokens line.stop
  return { e with rest := e.rest.tail }

/-- Emits the cells that get a role. -/
def emitCells (roles : Roles) : List CellRange → Emission → Option (Roles × Emission)
  | [], e => some (roles, e)
  | c :: cells, e =>
    match roles.next c.text with
    | (some kind, roles) => do
      let e ← e.emitRange tokens (.cell kind) c.start c.stop
      emitCells roles cells e
    | (none, roles) => emitCells roles cells e

/-- Emits a line; the roles of its cells begin after the first `skipped` of them. -/
def emitLine (skipped : Nat) (line : LineEntry) (roles : Roles) (e : Emission) :
    Option (Roles × Emission) := do
  let s ← e.emitCells tokens roles (line.cells.drop skipped)
  let e ← s.2.finishLine tokens line
  return (s.1, e)

/-- Emits continuation lines, whose marks get no role. -/
def emitContinuations (s : Roles × Emission) : Option (Roles × Emission) :=
  whileLine (fun s => s.2.rest) LineEntry.isContinuation
    (fun line s => s.2.emitLine tokens 1 line s.1) s

/-- Emits a line and its continuation lines as one node. -/
def emitRow (kind : NodeKind) (shape : RowShape) (line : LineEntry) (e : Emission) :
    Option (Roles × Emission) := do
  let s ← (e.start kind).emitLine tokens 0 line (.start shape)
  let s ← emitContinuations tokens s
  return (s.1, s.2.finish)

/-- Emits a row that is not interpreted. -/
def emitPlain (line : LineEntry) (e : Emission) : Option Emission := do
  let s ← e.emitRow tokens .otherRow .other line
  return s.2

def emitSetting (line : LineEntry) (e : Emission) : Option Emission := do
  let name ← line.cells.head?
  if line.isContinuation then (e.report .settingContinuationAlone line).emitPlain tokens line
  else if Reserved.isImportSetting name.text then
    let s ← e.emitRow tokens .importing .importing line
    return if s.1.index < 2 then s.2.report (.importWithoutName name.text) line else s.2
  else
    let s ← e.emitRow tokens .setting (.setting (Reserved.isFixtureSetting name.text)) line
    return s.2

def emitVariable (line : LineEntry) (e : Emission) : Option Emission := do
  if line.isContinuation then (e.report .variableContinuationAlone line).emitPlain tokens line
  else
    let name ← line.cells.head?
    let e :=
      if VariableToken.isWholeCell name.text then e
      else e.report (.invalidVariableName name.text) line
    let s ← e.emitRow tokens .variableRow .variableRow line
    return s.2

/-- Emits a row of the body of a test case or user keyword. -/
def emitBodyRow (line : LineEntry) (e : Emission) : Option Emission := do
  let first ← line.cells.head?
  let e :=
    if Reserved.isBracketed first.text && !Reserved.isKnownBracketSetting first.text then
      e.report (.unknownSetting first.text) line
    else e
  let (kind, shape) := RowForm.shapeInBody first.text
  let s ← e.emitRow tokens kind shape line
  return s.2

/-- Emits the line that names a definition, and the row after the name if there is one. -/
def emitNameLine (line : LineEntry) (e : Emission) : Option Emission := do
  let name ← line.cells.head?
  let e ← e.emitRange tokens (.cell .definitionName) name.start name.stop
  match line.cells[1]? with
  | none => e.finishLine tokens line
  | some first =>
    let (kind, shape) := RowForm.shapeInBody first.text
    let e ← e.bumpUntil tokens first.start
    let s ← (e.start kind).emitLine tokens 1 line (.start shape)
    return s.2.finish

/-- Emits a blank line, or a row that begins with the line. -/
def emitItem (row : LineEntry → Emission → Option Emission) (line : LineEntry) (e : Emission) :
    Option Emission :=
  if line.isBlank then e.finishLine tokens line else row line e

/-- Whether a line belongs to the definition before it. -/
def isInBody (line : LineEntry) : Bool :=
  !line.isHeading && (line.isBlank || line.indented || line.isContinuation)

/-- Emits a test case or user keyword. -/
def emitDefinition (kind : NodeKind) (line : LineEntry) (e : Emission) : Option Emission := do
  let e := e.start kind
  let e ←
    if line.indented then
      let fault := if kind = .testCase then SyntaxFault.missingTestCaseName else .missingKeywordName
      some (e.report fault line)
    else e.emitNameLine tokens line
  let e ← whileLine Emission.rest isInBody (emitItem tokens (emitBodyRow tokens)) e
  return e.finish

/-- Emits a row or a definition of a section of some kind. -/
def emitInSection : HeadingKind → LineEntry → Emission → Option Emission
  | .settings => emitSetting tokens
  | .variableTable => emitVariable tokens
  | .testCases | .tasks => emitDefinition tokens .testCase
  | .keywords => emitDefinition tokens .userKeyword
  | .comments | .unknown => emitPlain tokens

/-- Whether a line belongs to the section before it, or stands before the first one. -/
def isInSection (line : LineEntry) : Bool := !line.isHeading

def emitSection (heading : LineEntry) (e : Emission) : Option Emission := do
  let kind := HeadingKind.ofText (heading.cellsText tokens)
  let e := if kind = .unknown then e.report .unknownHeading heading else e
  let e ← ((e.start .headed).start .heading).finishLine tokens heading
  let e ← whileLine Emission.rest isInSection (emitItem tokens (emitInSection tokens kind)) e.finish
  return e.finish

/-- Emits the lines before the first heading, if there are any. -/
def emitPreamble (e : Emission) : Option Emission := do
  if e.rest.head?.any isInSection then
    let e ← whileLine Emission.rest isInSection (finishLine tokens) (e.start .preamble)
    return e.finish
  else some e

def emitDocument (e : Emission) : Option Emission := do
  let e ← (e.start .document).emitPreamble tokens
  let e ← whileLine Emission.rest (fun _ => true) (emitSection tokens) e
  let e ← e.bumpUntil tokens tokens.length
  return e.finish

def ofText (text : Text) : Option Emission :=
  let tokens := tokenize text
  emitDocument tokens ⟨0, LineEntry.table tokens, [], []⟩

end Emission

end RobotAnalysis
