import Mathlib.Data.List.Basic
import RobotAnalysis.Node

/-!
# Nodes at their places

All inner nodes of a tree in the order of the text, each at the offset that follows from the tokens
before it. A node comes before the nodes inside it, so what holds below a node is put together from
what holds below its children. Pieces are the trees that rows are made of: a token, a cell or a
comment, with nothing but tokens inside.
-/
namespace RobotAnalysis

namespace Tree

mutual

/-- The inner nodes of a tree that begins at `start`, each before those inside it. -/
def nodesIn (start : Nat) : Tree → List Node
  | .leaf _ => []
  | .node kind children => ⟨start, kind, children⟩ :: nodesInAll start children

/-- The inner nodes of consecutive trees, of which the first begins at `start`. -/
def nodesInAll (start : Nat) : List Tree → List Node
  | [] => []
  | t :: ts => nodesIn start t ++ nodesInAll (start + t.size) ts

end

/-- The inner nodes of a document in the order of the text. -/
def allNodes (t : Tree) : List Node := nodesIn 0 t

end Tree

/-- The tree of a node, wherever it begins. -/
def Node.tree (n : Node) : Tree := .node n.kind n.children

namespace Tree

/-- A token, or a node around tokens that is a cell or a comment. -/
inductive IsPiece : Tree → Prop
  | leaf (t : Token) : IsPiece (.leaf t)
  | cell (kind : CellKind) (ts : List Token) : IsPiece (.node (.cell kind) (ts.map .leaf))
  | comment (ts : List Token) : IsPiece (.node .comment (ts.map .leaf))

/-- A token or a comment. -/
inductive IsGap : Tree → Prop
  | leaf (t : Token) : IsGap (.leaf t)
  | comment (ts : List Token) : IsGap (.node .comment (ts.map .leaf))

theorem IsGap.isPiece {t : Tree} (h : IsGap t) : IsPiece t := by
  cases h with
  | leaf t => exact .leaf t
  | comment ts => exact .comment ts

/-- The role and the text of a tree that is a cell. -/
def cellText? : Tree → Option (CellKind × Text)
  | .node (.cell kind) children => some (kind, Token.textOf (leavesOf children))
  | .node _ _ | .leaf _ => none

/-- The roles and the texts of the cells among some trees. -/
def cellTexts (ts : List Tree) : List (CellKind × Text) := ts.filterMap cellText?

theorem nodesFrom_map_leaf (start : Nat) (ts : List Token) :
    nodesFrom start (ts.map .leaf) = [] := by
  induction ts generalizing start with
  | nil => rfl
  | cons t ts ih => exact ih _

theorem nodesFrom_append (start : Nat) (ts us : List Tree) :
    nodesFrom start (ts ++ us) =
      nodesFrom start ts ++ nodesFrom (start + Token.sizeOf (leavesOf ts)) us := by
  induction ts generalizing start with
  | nil => rfl
  | cons t ts ih =>
    cases t with
    | leaf t =>
      rw [List.cons_append, nodesFrom, ih, nodesFrom]
      simp [leavesOf, leaves, Token.sizeOf, Token.textOf, Nat.add_assoc]
    | node kind children =>
      rw [List.cons_append, nodesFrom, ih, nodesFrom]
      simp [leavesOf, leaves, Token.sizeOf, Token.textOf, Nat.add_assoc]

/-- Whether a tree is an inner node. -/
def isNode : Tree → Bool
  | .leaf _ => false
  | .node _ _ => true

theorem map_tree_nodesFrom (start : Nat) (ts : List Tree) :
    (nodesFrom start ts).map Node.tree = ts.filter isNode := by
  induction ts generalizing start with
  | nil => rfl
  | cons t ts ih =>
    cases t with
    | leaf t => exact ih _
    | node kind children => exact congrArg _ (ih _)

theorem cellTexts_nodesFrom (start : Nat) (ts : List Tree) :
    ((nodesFrom start ts).filterMap Node.cell?).map (fun c => (c.kind, c.text)) = cellTexts ts := by
  induction ts generalizing start with
  | nil => rfl
  | cons t ts ih =>
    cases t with
    | leaf t => exact ih _
    | node kind children =>
      rw [nodesFrom, cellTexts, List.filterMap_cons, List.filterMap_cons]
      cases kind
      case cell kind => exact congrArg _ (ih _)
      all_goals exact ih _

end Tree

namespace Node

/-- The inner nodes inside a node, in the order of the text. -/
def below (n : Node) : List Node := Tree.nodesInAll n.start n.children

theorem nodesInAll_eq (start : Nat) (ts : List Tree) :
    Tree.nodesInAll start ts = (Tree.nodesFrom start ts).flatMap fun m => m :: m.below := by
  induction ts generalizing start with
  | nil => rfl
  | cons t ts ih =>
    cases t with
    | leaf t =>
      rw [Tree.nodesInAll, Tree.nodesIn, List.nil_append, ih, Tree.nodesFrom]
      simp only [Tree.size, Tree.leaves, Token.sizeOf, Token.textOf, List.flatMap_singleton]
    | node kind children =>
      rw [Tree.nodesInAll, Tree.nodesIn, ih, Tree.nodesFrom, List.flatMap_cons]
      rfl

/-- The nodes inside a node are its children, each followed by the nodes inside it. -/
theorem below_eq (n : Node) : n.below = n.nodes.flatMap fun m => m :: m.below :=
  nodesInAll_eq n.start n.children

theorem tree_mem_of_mem_nodes {n m : Node} (h : m ∈ n.nodes) : m.tree ∈ n.children := by
  have mem := List.mem_map_of_mem (f := tree) h
  rw [nodes, Tree.map_tree_nodesFrom] at mem
  exact List.mem_of_mem_filter mem

/-- Nothing is inside a cell or a comment. -/
theorem below_eq_nil {m : Node} (h : m.tree.IsPiece) : m.below = [] := by
  have nothing (ts : List Token) (hts : m.children = ts.map .leaf) : m.below = [] := by
    rw [below, hts, nodesInAll_eq, Tree.nodesFrom_map_leaf, List.flatMap_nil]
  obtain ⟨start, kind, children⟩ := m
  cases h with
  | cell _ ts => exact nothing ts rfl
  | comment ts => exact nothing ts rfl

/-- Inside a node that is made of pieces there are only its children. -/
theorem below_eq_nodes {n : Node} (h : ∀ t ∈ n.children, Tree.IsPiece t) : n.below = n.nodes := by
  rw [below_eq]
  have alone : ∀ m ∈ n.nodes, m :: m.below = [m] := by
    intro m hm
    rw [below_eq_nil (h _ (tree_mem_of_mem_nodes hm))]
  rw [List.flatMap_congr alone, List.flatMap_singleton']

theorem kind_of_isPiece {m : Node} (h : m.tree.IsPiece) :
    m.kind = .comment ∨ ∃ kind, m.kind = .cell kind := by
  obtain ⟨start, kind, children⟩ := m
  cases h with
  | cell kind _ => exact .inr ⟨kind, rfl⟩
  | comment _ => exact .inl rfl

theorem kind_of_isGap {m : Node} (h : m.tree.IsGap) :
    m.kind = .comment := by
  obtain ⟨start, kind, children⟩ := m
  cases h
  rfl

theorem cells_texts (n : Node) :
    n.cells.map (fun c => (c.kind, c.text)) = Tree.cellTexts n.children :=
  Tree.cellTexts_nodesFrom n.start n.children

theorem length_cellsOf (n : Node) (kind : CellKind) :
    (n.cellsOf kind).length = ((Tree.cellTexts n.children).filter fun c => c.1 == kind).length := by
  rw [← cells_texts, List.filter_map, List.length_map]
  rfl

end Node

end RobotAnalysis
