import RobotAnalysis.Token

/-!
# Syntax trees

A document as a tree whose leaves are its tokens. Inner nodes group lines into sections and
definitions, rows into the cells they are made of. The leaves from left to right spell the document,
so a node needs no position of its own: it follows from the leaves before it.
-/
namespace RobotAnalysis

/-- The part that a cell plays in its row. -/
inductive CellKind
  /-- The name of a test case or user keyword. -/
  | definitionName
  /-- The name of a setting, an import or a bracket setting. -/
  | settingName
  /-- The variable that a row of a variables section declares. -/
  | variableName
  /-- A variable that a row gives a value to. -/
  | assignment
  /-- The keyword that a row calls. -/
  | keywordCall
  /-- Any other value. -/
  | argument
  /-- A word of a control structure. -/
  | controlMarker
  deriving DecidableEq, Repr

/-- What an inner node of a tree groups. -/
inductive NodeKind
  /-- The whole document. -/
  | document
  /-- The lines before the first heading. -/
  | preamble
  /-- A heading and the lines up to the next one. -/
  | headed
  /-- The line of a heading. -/
  | heading
  /-- A setting that imports nothing. -/
  | setting
  /-- An import. -/
  | importing
  /-- A row of a variables section. -/
  | variableRow
  /-- A test case or task with its body. -/
  | testCase
  /-- A user keyword with its body. -/
  | userKeyword
  /-- A row that is not interpreted. -/
  | otherRow
  /-- A row that calls a keyword. -/
  | callRow
  /-- A row of a control structure. -/
  | controlRow
  /-- A row such as `[Arguments]    ${a}`. -/
  | bracketRow
  /-- A single cell. -/
  | cell (kind : CellKind)
  /-- A comment. -/
  | comment
  /-- Reserved for text that no rule accepts; every line is accepted by some rule. -/
  | error
  deriving DecidableEq, Repr

namespace NodeKind

/-- Nodes that wrap exactly one cell. -/
def isCell : NodeKind → Bool
  | .cell _ => true
  | _ => false

/-- Rows that continuation lines may extend. -/
def isRow : NodeKind → Bool
  | .setting | .importing | .variableRow | .otherRow | .callRow | .controlRow | .bracketRow => true
  | _ => false

/-- Rows of a body that a reader of the tree looks at. -/
def isBodyRow : NodeKind → Bool
  | .callRow | .controlRow | .bracketRow => true
  | _ => false

/-- Test cases and user keywords. -/
def isDefinition : NodeKind → Bool
  | .testCase | .userKeyword => true
  | _ => false

end NodeKind

/-- A tree over tokens. -/
inductive Tree
  | leaf (token : Token)
  | node (kind : NodeKind) (children : List Tree)
  deriving Repr

namespace Tree

mutual

/-- The tokens of a tree from left to right. -/
def leaves : Tree → List Token
  | .leaf t => [t]
  | .node _ children => leavesOf children

def leavesOf : List Tree → List Token
  | [] => []
  | t :: ts => t.leaves ++ leavesOf ts

end

@[simp] theorem leavesOf_append (ts us : List Tree) :
    leavesOf (ts ++ us) = leavesOf ts ++ leavesOf us := by
  induction ts with
  | nil => simp [leavesOf]
  | cons t ts ih => simp [leavesOf, ih]

@[simp] theorem leavesOf_map_leaf (ts : List Token) : leavesOf (ts.map leaf) = ts := by
  induction ts with
  | nil => simp [leavesOf]
  | cons t ts ih => simp [leavesOf, leaves, ih]

def text (t : Tree) : Text := Token.textOf t.leaves

def size (t : Tree) : Nat := Token.sizeOf t.leaves

mutual

def same : Tree → Tree → Bool
  | .leaf t, .leaf u => t == u
  | .node k ts, .node l us => k == l && sameAll ts us
  | .leaf _, .node _ _ => false
  | .node _ _, .leaf _ => false

/-- Whether two lists of trees are the same. -/
def sameAll : List Tree → List Tree → Bool
  | [], [] => true
  | t :: ts, u :: us => t.same u && sameAll ts us
  | [], _ :: _ => false
  | _ :: _, [] => false

end

mutual

theorem eq_of_same : ∀ {t u : Tree}, t.same u = true → t = u
  | .leaf t, .leaf u, h => by simp [same] at h; rw [h]
  | .node k ts, .node l us, h => by
    simp [same] at h
    rw [h.1, eq_of_sameAll h.2]
  | .leaf _, .node _ _, h => by simp [same] at h
  | .node _ _, .leaf _, h => by simp [same] at h

theorem eq_of_sameAll : ∀ {ts us : List Tree}, sameAll ts us = true → ts = us
  | [], [], _ => rfl
  | t :: ts, u :: us, h => by
    simp [sameAll] at h
    rw [eq_of_same h.1, eq_of_sameAll h.2]
  | [], _ :: _, h => by simp [sameAll] at h
  | _ :: _, [], h => by simp [sameAll] at h

end

mutual

theorem same_self : ∀ t : Tree, t.same t = true
  | .leaf t => by simp [same]
  | .node k ts => by simp [same, sameAll_self ts]

theorem sameAll_self : ∀ ts : List Tree, sameAll ts ts = true
  | [] => by simp [sameAll]
  | t :: ts => by simp [sameAll, same_self t, sameAll_self ts]

end

instance : DecidableEq Tree := fun t u =>
  if h : t.same u = true then .isTrue (eq_of_same h)
  else .isFalse fun e => h (e ▸ same_self t)

end Tree

end RobotAnalysis
