import RobotAnalysis.Reserved
import RobotAnalysis.Text.Trim
import RobotAnalysis.Tree

/-!
# Reading a tree

A `Node` is an inner node of a tree at its place in the document. Sections, rows and cells are read
off its children by their kind, in the order of the text.
-/
namespace RobotAnalysis

/-- An inner node and the offset at which it begins. -/
structure Node where
  start : Nat
  kind : NodeKind
  children : List Tree

structure Cell where
  kind : CellKind
  text : Text
  span : Span
  deriving DecidableEq, Repr

namespace Tree

/-- The inner nodes among consecutive trees, of which the first begins at `start`. -/
def nodesFrom (start : Nat) : List Tree → List Node
  | [] => []
  | .leaf t :: ts => nodesFrom (start + t.text.byteSize) ts
  | .node kind children :: ts =>
    ⟨start, kind, children⟩ :: nodesFrom (start + Token.sizeOf (leavesOf children)) ts

def root : Tree → Node
  | .leaf t => ⟨0, .document, [.leaf t]⟩
  | .node kind children => ⟨0, kind, children⟩

end Tree

namespace Node

def text (n : Node) : Text := Token.textOf (Tree.leavesOf n.children)

def span (n : Node) : Span := ⟨n.start, n.text.byteSize⟩

/-- The inner nodes among the children. -/
def nodes (n : Node) : List Node := Tree.nodesFrom n.start n.children

/-- The children of some kind. -/
def nodesOf (n : Node) (kind : NodeKind) : List Node := n.nodes.filter fun m => m.kind == kind

/-- A node that is a cell. -/
def cell? (n : Node) : Option Cell :=
  match n.kind with
  | .cell kind => some ⟨kind, n.text, n.span⟩
  | _ => none

def cells (n : Node) : List Cell := n.nodes.filterMap cell?

/-- The cells that play some role. -/
def cellsOf (n : Node) (kind : CellKind) : List Cell := n.cells.filter fun c => c.kind == kind

/-- The first cell that plays some role. -/
def firstCell? (n : Node) (kind : CellKind) : Option Cell := (n.cellsOf kind).head?

def sections (n : Node) : List Node := n.nodesOf .headed

def heading? (n : Node) : Option Node := (n.nodesOf .heading).head?

/-- The line of a heading without its line break and the blanks at its end. -/
def headingText (n : Node) : Text := n.text.trimEnd

/-- The kind of a section, read off the whole line of its heading. -/
def headingKind (n : Node) : HeadingKind :=
  match n.heading? with
  | some h => HeadingKind.ofText h.headingText
  | none => .unknown

/-- The test cases and user keywords of a section. -/
def definitions (n : Node) : List Node := n.nodes.filter fun m => m.kind.isDefinition

/-- The rows of a body that mean something. -/
def bodyRows (n : Node) : List Node := n.nodes.filter fun m => m.kind.isBodyRow

/-- Whether a row is the bracket setting that declares arguments. -/
def declaresArguments (n : Node) : Bool :=
  n.kind == .bracketRow &&
    ((n.firstCell? .settingName).any fun c => Reserved.isArgumentsBracketSetting c.text)

/-- The cells that declare the arguments of a definition. -/
def declaredArguments (n : Node) : List Cell :=
  (n.bodyRows.filter declaresArguments).flatMap fun row => row.cellsOf .assignment

end Node

end RobotAnalysis
