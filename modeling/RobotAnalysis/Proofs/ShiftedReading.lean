import Mathlib.Data.List.Basic
import RobotAnalysis.Proofs.FoundSymbols
import RobotAnalysis.Proofs.LineSeam
import RobotAnalysis.Proofs.PlacedNodes

/-!
# Reading trees elsewhere

Whatever is read off a node takes its places from the offset at which the node begins, and nothing
else from it. So a tree behind `n` more bytes has the same nodes, cells and symbols `n` bytes later.
-/
namespace RobotAnalysis

variable {n : Nat} {file : FileId}

theorem Span.shift_add (start : Nat) (s : Span) : s.shift (n + start) = (s.shift start).shift n :=
  congrArg (Span.mk · s.size) (Nat.add_assoc n start s.start)

/-- The same cell behind `n` more bytes. -/
def Cell.shift (n : Nat) (c : Cell) : Cell := { c with span := c.span.shift n }

def Node.shift (n : Nat) (m : Node) : Node := { m with start := n + m.start }

namespace Tree

theorem nodesFrom_add (start : Nat) (ts : List Tree) :
    nodesFrom (n + start) ts = (nodesFrom start ts).map (Node.shift n) := by
  induction ts generalizing start with
  | nil => rfl
  | cons t ts ih =>
    cases t with
    | leaf t => rw [nodesFrom, Nat.add_assoc, ih, nodesFrom]
    | node kind children =>
      rw [nodesFrom, Nat.add_assoc, ih, nodesFrom]
      rfl

end Tree

namespace Node

variable (m : Node)

theorem nodes_shift : (m.shift n).nodes = m.nodes.map (shift n) :=
  Tree.nodesFrom_add m.start m.children

/-- Nodes chosen by what they are, not by where they stand, are chosen anywhere. -/
theorem filter_nodes_shift (p : NodeKind → Bool) :
    (m.shift n).nodes.filter (fun k => p k.kind) =
      (m.nodes.filter fun k => p k.kind).map (shift n) := by
  rw [nodes_shift, List.filter_map]
  rfl

theorem nodesOf_shift (kind : NodeKind) :
    (m.shift n).nodesOf kind = (m.nodesOf kind).map (shift n) :=
  m.filter_nodes_shift (· == kind)

theorem definitions_shift : (m.shift n).definitions = m.definitions.map (shift n) :=
  m.filter_nodes_shift NodeKind.isDefinition

theorem bodyRows_shift : (m.shift n).bodyRows = m.bodyRows.map (shift n) :=
  m.filter_nodes_shift NodeKind.isBodyRow

theorem cell?_shift : (m.shift n).cell? = m.cell?.map (Cell.shift n) := by
  obtain ⟨start, kind, children⟩ := m
  cases kind <;> rfl

theorem cells_shift : (m.shift n).cells = m.cells.map (Cell.shift n) := by
  rw [cells, nodes_shift, List.filterMap_map, cells, List.map_filterMap]
  exact List.filterMap_congr fun k _ => k.cell?_shift

theorem cellsOf_shift (kind : CellKind) :
    (m.shift n).cellsOf kind = (m.cellsOf kind).map (Cell.shift n) := by
  rw [cellsOf, cells_shift, List.filter_map]
  rfl

theorem firstCell?_shift (kind : CellKind) :
    (m.shift n).firstCell? kind = (m.firstCell? kind).map (Cell.shift n) := by
  rw [firstCell?, cellsOf_shift, List.head?_map]
  rfl

theorem headingKind_shift : (m.shift n).headingKind = m.headingKind := by
  rw [headingKind, heading?, nodesOf_shift, List.head?_map, headingKind, heading?]
  cases (m.nodesOf .heading).head? <;> rfl

theorem declaresArguments_shift : (m.shift n).declaresArguments = m.declaresArguments := by
  rw [declaresArguments, firstCell?_shift, Option.any_map]
  rfl

theorem declaredArguments_shift :
    (m.shift n).declaredArguments = m.declaredArguments.map (Cell.shift n) := by
  have sameRows : declaresArguments ∘ shift n = declaresArguments :=
    funext fun k => k.declaresArguments_shift
  rw [declaredArguments, bodyRows_shift, List.filter_map, sameRows, List.flatMap_map,
    declaredArguments, List.map_flatMap]
  exact List.flatMap_congr fun k _ => k.cellsOf_shift .assignment

end Node

/-- The same place behind `n` more bytes of its document. -/
def Location.shift (n : Nat) : Location → Location
  | .document file span => .document file (span.shift n)
  | .library name member => .library name member

def Visibility.shift (n : Nat) : Visibility → Visibility
  | .everywhere => .everywhere
  | .within file span => .within file (span.shift n)

def Keyword.shift (n : Nat) (k : Keyword) : Keyword := { k with location := k.location.shift n }

def Variable.shift (n : Nat) (v : Variable) : Variable :=
  { v with visibility := v.visibility.shift n, location := v.location.shift n }

def ImportDeclaration.shift (n : Nat) (i : ImportDeclaration) : ImportDeclaration :=
  { i with span := i.span.shift n }

def TestCase.shift (n : Nat) (t : TestCase) : TestCase :=
  { t with span := t.span.shift n, body := t.body.shift n }

def Mention.shift (n : Nat) (u : Mention) : Mention := { u with span := u.span.shift n }

namespace Findings

def shift (n : Nat) (f : Findings) : Findings :=
  ⟨f.keywords.map (Keyword.shift n), f.testCases.map (TestCase.shift n),
    f.vars.map (Variable.shift n), f.imports.map (ImportDeclaration.shift n),
    f.calls.map (Mention.shift n), f.usages.map (Mention.shift n)⟩

@[simp] theorem shift_append (f g : Findings) : (f ++ g).shift n = f.shift n ++ g.shift n := by
  change (append f g).shift n = append (f.shift n) (g.shift n)
  simp only [append, shift, List.map_append]

theorem shift_concat (fs : List Findings) : (concat fs).shift n = concat (fs.map (shift n)) := by
  induction fs with
  | nil => rfl
  | cons f fs ih => rw [concat_cons, shift_append, ih, List.map_cons, concat_cons]

/-- What is found in parts one after the other moves if what is found in every part does. -/
theorem concat_shift {α : Type} {f g : α → Findings} {s : α → α}
    (h : ∀ a, f (s a) = (g a).shift n) (l : List α) :
    concat ((l.map s).map f) = (concat (l.map g)).shift n := by
  rw [shift_concat, List.map_map, List.map_map]
  exact congrArg concat (List.map_congr_left fun a _ => h a)

theorem usagesIn_shift (start : Nat) (text : Text) :
    usagesIn (n + start) text = (usagesIn start text).map (Mention.shift n) := by
  rw [usagesIn, usagesIn, List.map_map]
  exact List.map_congr_left fun v _ => congrArg (Mention.mk v.text) (Span.shift_add start v.span)

theorem usagesOf_shift (cells : List Cell) :
    usagesOf (cells.map (Cell.shift n)) = (usagesOf cells).shift n := by
  rw [usagesOf, List.flatMap_map, usagesOf, shift, List.map_flatMap]
  have usages := List.flatMap_congr fun (c : Cell) (_ : c ∈ cells) =>
    usagesIn_shift (n := n) c.span.start c.text
  exact congrArg (Findings.mk [] [] [] [] []) usages

theorem callOf_shift (call? : Option Cell) :
    callOf (call?.map (Cell.shift n)) = (callOf call?).shift n := by
  cases call? <;> rfl

theorem aliasOf?_shift (cells : List Cell) :
    aliasOf? (cells.map (Cell.shift n)) = aliasOf? cells := by
  fun_induction aliasOf? cells with
  | case1 c d cells isAlias => simp [aliasOf?, Cell.shift, isAlias]
  | case2 c d cells isAlias ih => simpa [aliasOf?, Cell.shift, isAlias] using ih
  | case3 cells short =>
    rcases cells with _ | ⟨c, _ | ⟨d, cells⟩⟩
    · rfl
    · rfl
    · exact absurd rfl (short c d cells)

theorem ofImport_shift (row : Node) : ofImport (row.shift n) = (ofImport row).shift n := by
  have sameKind : ((row.shift n).firstCell? .settingName).bind
      (fun c => ImportKind.ofSetting? c.text) =
        (row.firstCell? .settingName).bind fun c => ImportKind.ofSetting? c.text := by
    rw [Node.firstCell?_shift]
    cases row.firstCell? .settingName <;> rfl
  rw [ofImport, sameKind, Node.cellsOf_shift, List.head?_map, usagesOf_shift, aliasOf?_shift,
    ofImport]
  cases (row.firstCell? .settingName).bind fun c => ImportKind.ofSetting? c.text with
  | none => rfl
  | some kind => cases (row.cellsOf .argument).head? <;> rfl

theorem ofSetting_shift (row : Node) : ofSetting (row.shift n) = (ofSetting row).shift n := by
  rw [ofSetting, Node.firstCell?_shift, Node.cellsOf_shift, callOf_shift, usagesOf_shift, ofSetting,
    shift_append]

theorem declaredBy_shift (scope : VariableScope) (cell : Cell) :
    declaredBy file scope (cell.shift n) = (declaredBy file scope cell).map (Variable.shift n) := by
  have sameText : (cell.shift n).text = cell.text := rfl
  rw [declaredBy, declaredBy, sameText]
  split <;> rfl

theorem ofVariableRow_shift (row : Node) :
    ofVariableRow file (row.shift n) = (ofVariableRow file row).shift n := by
  rw [ofVariableRow, Node.firstCell?_shift, Node.cellsOf_shift, usagesOf_shift, ofVariableRow]
  cases row.firstCell? .variableName with
  | none => rfl
  | some cell => simp [shift, usagesOf, declaredBy_shift]

theorem defaultUsages_shift (cell : Cell) :
    defaultUsages (cell.shift n) = (defaultUsages cell).map (Mention.shift n) := by
  have sameText : (cell.shift n).text = cell.text := rfl
  rw [defaultUsages, defaultUsages, sameText]
  split
  · rw [← usagesIn_shift, ← Nat.add_assoc n]
    rfl
  · rfl

theorem assignedBy_shift (scope : VariableScope) (body : Span) (cell : Cell) :
    assignedBy file scope (body.shift n) (cell.shift n) =
      (assignedBy file scope body cell).map (Variable.shift n) := by
  have sameText : (cell.shift n).text = cell.text := rfl
  have start : (cell.shift n).span.start = n + cell.span.start := rfl
  rw [assignedBy, assignedBy, sameText, start]
  cases (VariableToken.all cell.text).head? with
  | none => rfl
  | some v => simp [Variable.declare, Variable.shift, Visibility.shift, Location.shift,
      Span.shift_add]

theorem setBy_shift (row : Node) :
    setBy file (row.shift n) = (setBy file row).map (Variable.shift n) := by
  rw [setBy, setBy, Node.firstCell?_shift, Node.firstCell?_shift]
  cases row.firstCell? .keywordCall with
  | none => rfl
  | some call =>
    cases row.firstCell? .argument with
    | none => rfl
    | some first =>
      have sameText : (call.shift n).text = call.text := rfl
      simp only [Option.map_some, sameText, declaredBy_shift]
      split <;> rfl

theorem ofBodyRow_shift (scope : VariableScope) (body : Span) (row : Node) :
    ofBodyRow file scope (body.shift n) (row.shift n) =
      (ofBodyRow file scope body row).shift n := by
  have vars : ((row.cellsOf .assignment).map (Cell.shift n)).flatMap
      (assignedBy file scope (body.shift n)) =
        ((row.cellsOf .assignment).flatMap (assignedBy file scope body)).map
          (Variable.shift n) := by
    rw [List.flatMap_map, List.map_flatMap]
    exact List.flatMap_congr fun cell _ => assignedBy_shift scope body cell
  have defaults : ((row.cellsOf .assignment).map (Cell.shift n)).flatMap defaultUsages =
      ((row.cellsOf .assignment).flatMap defaultUsages).map (Mention.shift n) := by
    rw [List.flatMap_map, List.map_flatMap]
    exact List.flatMap_congr fun cell _ => defaultUsages_shift cell
  simp only [ofBodyRow, Node.cellsOf_shift, Node.firstCell?_shift, Node.declaresArguments_shift,
    vars, defaults, setBy_shift, callOf_shift, usagesOf_shift, shift_append]
  cases row.declaresArguments <;> simp [shift, none]

theorem ofName_shift (definition : Node) (name : Cell) :
    ofName file (definition.shift n) (name.shift n) = (ofName file definition name).shift n := by
  have sameKind : (definition.shift n).kind = definition.kind := rfl
  rw [ofName, sameKind, Node.declaredArguments_shift, List.isEmpty_map, ofName]
  split <;> rfl

theorem ofDefinition_shift (definition : Node) :
    ofDefinition file (definition.shift n) = (ofDefinition file definition).shift n := by
  have names : ((definition.shift n).firstCell? .definitionName).toList =
      (definition.firstCell? .definitionName).toList.map (Cell.shift n) := by
    rw [Node.firstCell?_shift]
    cases definition.firstCell? .definitionName <;> rfl
  have sameKind : (definition.shift n).kind = definition.kind := rfl
  have span : (definition.shift n).span = definition.span.shift n := rfl
  rw [ofDefinition, names, Node.bodyRows_shift, sameKind, span,
    concat_shift (ofName_shift definition), concat_shift (ofBodyRow_shift _ _), ofDefinition,
    shift_append]

theorem ofSection_shift (sec : Node) :
    ofSection file (sec.shift n) = (ofSection file sec).shift n := by
  rw [ofSection, Node.headingKind_shift, ofSection]
  cases sec.headingKind with
  | settings =>
    simp only [Node.nodesOf_shift, concat_shift ofImport_shift, concat_shift ofSetting_shift,
      shift_append]
  | variableTable => simp only [Node.nodesOf_shift, concat_shift ofVariableRow_shift]
  | testCases | tasks | keywords =>
    simp only [Node.definitions_shift, concat_shift ofDefinition_shift]
  | comments | unknown => rfl

end Findings

namespace SectionModel

def shift (n : Nat) (s : SectionModel) : SectionModel :=
  { s with span := s.span.shift n, found := s.found.shift n }

/-- The sections of a document that is made of the trees of two are those of the first one and
behind them those of the second one. -/
theorem ofTree_append (ts us : List Tree) :
    ofTree file (.node .document (ts ++ us)) =
      ofTree file (.node .document ts) ++
        (ofTree file (.node .document us)).map (shift (Token.sizeOf (Tree.leavesOf ts))) := by
  have behind : Tree.nodesFrom (0 + Token.sizeOf (Tree.leavesOf ts)) us =
      (Tree.nodesFrom 0 us).map (Node.shift (Token.sizeOf (Tree.leavesOf ts))) := by
    rw [Nat.zero_add]
    exact Tree.nodesFrom_add 0 us
  simp only [ofTree, Tree.root, Node.sections, Node.nodesOf, Node.nodes, Tree.nodesFrom_append,
    behind, List.filter_append, List.filter_map, List.map_append, List.map_map]
  refine congrArg (_ ++ ·) (List.map_congr_left fun sec _ => ?_)
  simp only [Function.comp_apply, Node.headingKind_shift, Findings.ofSection_shift, shift]
  rfl

end SectionModel

end RobotAnalysis
