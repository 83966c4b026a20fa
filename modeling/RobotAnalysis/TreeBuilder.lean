import RobotAnalysis.Tree

/-!
# Building trees

A tree is built by telling a builder where nodes begin and end and which tokens stand between. Told
what belongs to a tree, from the left to the right, it builds this tree.
-/
namespace RobotAnalysis

/-- What a builder of trees is told. -/
inductive BuilderCall
  /-- The nodes and tokens that follow belong to a new node. -/
  | start (kind : NodeKind)
  | token (t : Token)
  /-- The node started last is complete. -/
  | finish
  deriving DecidableEq, Repr

/-- Every node that is started is finished exactly once, after all that was started inside it. -/
inductive BuilderCall.Balanced : List BuilderCall → Prop
  | nil : Balanced []
  | token (t : Token) {rest : List BuilderCall} : Balanced rest → Balanced (.token t :: rest)
  | node (kind : NodeKind) {inside rest : List BuilderCall} :
      Balanced inside → Balanced rest → Balanced (.start kind :: (inside ++ .finish :: rest))

theorem BuilderCall.Balanced.append {cs ds : List BuilderCall} (h : Balanced cs)
    (h' : Balanced ds) : Balanced (cs ++ ds) := by
  induction h with
  | nil => exact h'
  | token t _ ih => exact .token t ih
  | node kind inside _ _ ih =>
    rw [List.cons_append, List.append_assoc]
    exact .node kind inside ih

/-- The state of building a tree. -/
structure TreeBuilder where
  /-- The nodes that are not complete, the last one first, with the number of trees before them. -/
  parents : List (NodeKind × Nat)
  /-- The complete trees that do not belong to a complete node. -/
  children : List Tree

namespace TreeBuilder

/-- Tells a builder something. Only a node that has been started can be finished. -/
def tell (b : TreeBuilder) : BuilderCall → Option TreeBuilder
  | .start kind => some { b with parents := (kind, b.children.length) :: b.parents }
  | .token t => some { b with children := b.children ++ [.leaf t] }
  | .finish =>
    match b.parents with
    | [] => none
    | (kind, before) :: parents =>
      some ⟨parents, b.children.take before ++ [.node kind (b.children.drop before)]⟩

/-- The tree of a builder that has been told a whole document: one complete node. -/
def build (calls : List BuilderCall) : Option Tree :=
  match calls.foldlM tell ⟨[], []⟩ with
  | some ⟨[], [.node kind children]⟩ => some (.node kind children)
  | _ => none

end TreeBuilder

namespace Tree

mutual

/-- What a builder is told to build a tree. -/
def calls : Tree → List BuilderCall
  | .leaf t => [.token t]
  | .node kind children => .start kind :: (callsOf children ++ [.finish])

/-- What a builder is told to build consecutive trees. -/
def callsOf : List Tree → List BuilderCall
  | [] => []
  | t :: ts => t.calls ++ callsOf ts

end

theorem callsOf_append (ts us : List Tree) : callsOf (ts ++ us) = callsOf ts ++ callsOf us := by
  induction ts with
  | nil => rfl
  | cons t ts ih => rw [List.cons_append, callsOf, callsOf, ih, List.append_assoc]

theorem callsOf_cons (t : Tree) (ts : List Tree) :
    callsOf (t :: ts) = callsOf [t] ++ callsOf ts := callsOf_append [t] ts

theorem callsOf_singleton (t : Tree) : callsOf [t] = t.calls := by
  rw [callsOf, callsOf, List.append_nil]

theorem callsOf_map_leaf (ts : List Token) : callsOf (ts.map .leaf) = ts.map .token := by
  induction ts with
  | nil => rfl
  | cons t ts ih =>
    rw [List.map_cons, callsOf, ih]
    rfl

/-- A node is complete when it is finished after its children. -/
theorem append_callsOf_node (done : List BuilderCall) (kind : NodeKind) (ts : List Tree) :
    done ++ [.start kind] ++ callsOf ts ++ [.finish] = done ++ callsOf [.node kind ts] := by
  simp [callsOf_singleton, calls]

mutual

theorem balanced_calls : ∀ t : Tree, BuilderCall.Balanced t.calls
  | .leaf t => .token t .nil
  | .node kind children => .node kind (balanced_callsOf children) .nil

theorem balanced_callsOf : ∀ ts : List Tree, BuilderCall.Balanced (callsOf ts)
  | [] => .nil
  | t :: ts => (balanced_calls t).append (balanced_callsOf ts)

end

end Tree

namespace TreeBuilder

mutual

/-- A builder that is told a tree has this tree as the last of its complete ones. -/
theorem foldlM_calls : ∀ (t : Tree) (b : TreeBuilder),
    t.calls.foldlM tell b = some { b with children := b.children ++ [t] }
  | .leaf t, b => rfl
  | .node kind children, b => by
    have begun : tell b (.start kind) =
        some { b with parents := (kind, b.children.length) :: b.parents } := rfl
    rw [Tree.calls, List.foldlM_cons, begun, Option.bind_eq_bind, Option.bind_some,
      List.foldlM_append, foldlM_callsOf children]
    simp [tell]

theorem foldlM_callsOf : ∀ (ts : List Tree) (b : TreeBuilder),
    (Tree.callsOf ts).foldlM tell b = some { b with children := b.children ++ ts }
  | [], b => by simp [Tree.callsOf]
  | t :: ts, b => by
    rw [Tree.callsOf, List.foldlM_append, foldlM_calls t b, Option.bind_eq_bind, Option.bind_some,
      foldlM_callsOf ts]
    simp

end

/-- A builder that is told a node builds it. -/
theorem build_calls (kind : NodeKind) (children : List Tree) :
    build (Tree.node kind children).calls = some (.node kind children) := by
  rw [build, foldlM_calls]
  rfl

end TreeBuilder

end RobotAnalysis
