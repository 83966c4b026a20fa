import RobotAnalysis.Line
import RobotAnalysis.Reserved
import RobotAnalysis.Tree
import RobotAnalysis.VariableToken

/-!
# Rows and the roles of their cells

A row is a line with its continuation lines. Its shape decides which role each cell plays, and the
roles are given out from left to right by a small machine whose state survives the line break before
a continuation. The mark of a continuation line takes no role.
-/
namespace RobotAnalysis

/-- What a row is, as far as the roles of its cells depend on it. -/
inductive RowShape
  /-- A setting; the first value of a fixture is a keyword call. -/
  | setting (fixture : Bool)
  | importing
  | variableRow
  /-- A bracket setting; the values of `[Arguments]` declare variables. -/
  | bracket (fixture arguments : Bool)
  | call
  | control
  /-- A row whose cells play no role. -/
  | other
  deriving DecidableEq, Repr

/-- How far the roles of a row have been given out. -/
structure Roles where
  shape : RowShape
  /-- The number of cells passed. -/
  index : Nat
  /-- Whether the keyword call has been passed. -/
  called : Bool
  /-- Whether the variables of a loop are being passed. -/
  inLoopVariables : Bool
  deriving DecidableEq, Repr

namespace Roles

/-- Before the first cell. -/
def start (shape : RowShape) : Roles := ⟨shape, 0, false, false⟩

/-- The role of the next cell of a row that names a setting first. -/
def afterName (r : Roles) (fixture : Bool) : CellKind × Roles :=
  if r.index = 0 then (.settingName, r)
  else if fixture && !r.called then (.keywordCall, { r with called := true })
  else (.argument, r)

/-- The role of the next cell of a row that calls a keyword. -/
def ofCall (r : Roles) (cell : Text) : CellKind × Roles :=
  if r.called then (.argument, r)
  else if VariableToken.isWholeCell cell then (.assignment, r)
  else (.keywordCall, { r with called := true })

/-- The role of the next cell of a row of a control structure. -/
def ofControl (r : Roles) (cell : Text) : CellKind × Roles :=
  if r.index = 0 then
    (.controlMarker, { r with inLoopVariables := Reserved.isLoopMarker cell })
  else if Reserved.isLoopInMarker cell then (.controlMarker, { r with inLoopVariables := false })
  else if r.inLoopVariables then (.assignment, r)
  else if Reserved.isControlMarker cell then (.controlMarker, r)
  else (.argument, r)

/-- The role of the next cell where its row gives it one, and the state after it. -/
def next (r : Roles) (cell : Text) : Option CellKind × Roles :=
  let (kind?, after) : Option CellKind × Roles :=
    match r.shape with
    | .other => (none, r)
    | .importing => (some (if r.index = 0 then .settingName else .argument), r)
    | .variableRow => (some (if r.index = 0 then .variableName else .argument), r)
    | .setting fixture => (r.afterName fixture).map some id
    | .bracket fixture false => (r.afterName fixture).map some id
    | .bracket _ true => (some (if r.index = 0 then .settingName else .assignment), r)
    | .call => (r.ofCall cell).map some id
    | .control => (r.ofControl cell).map some id
  (kind?, { after with index := r.index + 1 })

end Roles

namespace Part

/-- The trees of a part that takes no role. -/
def bare : Part → List Tree
  | .gap t => [.leaf t]
  | .cell ts => ts.map .leaf
  | .comment ts => [.node .comment (ts.map .leaf)]

/-- The trees of a cell with the role it has been given. -/
def ofCell (kind? : Option CellKind) (ts : List Token) : List Tree :=
  match kind? with
  | some kind => [.node (.cell kind) (ts.map .leaf)]
  | none => ts.map .leaf

@[simp] theorem leavesOf_bare (p : Part) : Tree.leavesOf p.bare = p.tokens := by
  cases p <;> simp [bare, tokens, Tree.leavesOf, Tree.leaves]

@[simp] theorem leavesOf_ofCell (kind? : Option CellKind) (ts : List Token) :
    Tree.leavesOf (ofCell kind? ts) = ts := by
  cases kind? <;> simp [ofCell, Tree.leavesOf, Tree.leaves]

@[simp] theorem leavesOf_flatMap_bare (ps : List Part) :
    Tree.leavesOf (ps.flatMap bare) = ps.flatMap tokens := by
  induction ps with
  | nil => rfl
  | cons p ps ih => simp [ih]

end Part

namespace Roles

/-- The trees of some parts of a row whose cells take the next roles, and the state after them. -/
def assign (r : Roles) : List Part → List Tree × Roles
  | [] => ([], r)
  | .cell ts :: ps =>
    let (kind?, r') := r.next (Token.textOf ts)
    let (trees, r'') := assign r' ps
    (Part.ofCell kind? ts ++ trees, r'')
  | .gap t :: ps => let (trees, r') := assign r ps; (.leaf t :: trees, r')
  | .comment ts :: ps =>
    let (trees, r') := assign r ps
    (.node .comment (ts.map .leaf) :: trees, r')

/-- Giving out roles loses no token. -/
@[simp] theorem leavesOf_assign (r : Roles) (ps : List Part) :
    Tree.leavesOf (r.assign ps).1 = ps.flatMap Part.tokens := by
  induction ps generalizing r with
  | nil => simp [assign, Tree.leavesOf]
  | cons p ps ih =>
    cases p <;> simp [assign, Tree.leavesOf, Tree.leaves, ih, Part.tokens]

end Roles

namespace Line

/-- The trees of a line whose cells take no role. -/
def bare (l : Line) : List Tree := l.parts.flatMap Part.bare

@[simp] theorem leavesOf_bare (l : Line) : Tree.leavesOf l.bare = l.tokens :=
  Part.leavesOf_flatMap_bare l.parts

end Line

namespace Roles

/-- The trees of continuation lines, whose cells after the mark take the next roles. -/
def assignContinuations (r : Roles) : List Line → List Tree
  | [] => []
  | l :: ls =>
    let (mark, rest) := l.splitAfterFirstCell
    let (trees, r') := r.assign rest
    mark.flatMap Part.bare ++ trees ++ assignContinuations r' ls

end Roles

/-- A line with its continuation lines. -/
structure Row where
  head : Line
  continuations : List Line
  deriving DecidableEq, Repr

namespace Row

def tokens (r : Row) : List Token := r.head.tokens ++ r.continuations.flatMap Line.tokens

/-- The first cell of a row. -/
def name (r : Row) : Text := r.head.cells.headD []

/-- The number of cells, the marks of continuation lines apart. -/
def cellCount (r : Row) : Nat :=
  r.continuations.foldl (fun n l => n + (l.cells.length - 1)) r.head.cells.length

/-- The trees of a row whose cells take roles from the first one on. -/
def trees (shape : RowShape) (r : Row) : List Tree :=
  let (trees, roles) := (Roles.start shape).assign r.head.parts
  trees ++ roles.assignContinuations r.continuations

end Row

inductive Item
  | blank (line : Line)
  | row (row : Row)
  deriving DecidableEq, Repr

namespace Item

def tokens : Item → List Token
  | .blank l => l.tokens
  | .row r => r.tokens

/-- Lines grouped into rows: a line that continues belongs to the row before it, unless a blank line
or nothing stands there. -/
def ofLines : List Line → List Item
  | [] => []
  | l :: ls =>
    if l.isBlank then .blank l :: ofLines ls
    else
      match ofLines ls with
      | .row r :: items =>
        if r.head.isContinuation then .row ⟨l, r.head :: r.continuations⟩ :: items
        else .row ⟨l, []⟩ :: .row r :: items
      | items => .row ⟨l, []⟩ :: items

/-- Grouping loses no line. -/
theorem flatMap_tokens_ofLines (ls : List Line) :
    (ofLines ls).flatMap tokens = ls.flatMap Line.tokens := by
  fun_induction ofLines ls <;> simp_all [tokens, Row.tokens]

end Item

end RobotAnalysis
