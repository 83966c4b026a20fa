import RobotAnalysis.Proofs.EmittedDocument

/-!
# No token is lost

Each grouping of the tokens keeps all of them in order: the parts of a line, the roles of its cells,
the rows, the definitions and the sections. So the leaves of a parsed tree are the tokens of the
text.
-/
namespace RobotAnalysis

theorem Tree.leavesOf_singleton (t : Tree) : leavesOf [t] = t.leaves := by
  rw [leavesOf, leavesOf, List.append_nil]

/-- Consecutive trees have the leaves of what they are made from, one after the other. -/
theorem Tree.leavesOf_map {α : Type} {tree : α → Tree} {tokens : α → List Token}
    (h : ∀ x, (tree x).leaves = tokens x) (xs : List α) :
    leavesOf (xs.map tree) = xs.flatMap tokens := by
  induction xs with
  | nil => rfl
  | cons x xs ih => rw [List.map_cons, leavesOf, h, ih, List.flatMap_cons]

theorem Line.leavesOf_flatMap_bare (ls : List Line) :
    Tree.leavesOf (ls.flatMap bare) = ls.flatMap tokens := by
  induction ls with
  | nil => rfl
  | cons l ls ih =>
    rw [List.flatMap_cons, Tree.leavesOf_append, leavesOf_bare, ih, List.flatMap_cons]

/-- A line is divided after its first cell. -/
theorem Line.tokens_splitAfterFirstCell (l : Line) :
    l.splitAfterFirstCell.1.flatMap Part.tokens ++ l.splitAfterFirstCell.2.flatMap Part.tokens =
      l.tokens := by
  rw [← List.flatMap_append, splitAfterFirstCell, List.take_append_drop, tokens]

theorem Roles.leavesOf_assignContinuations (r : Roles) (ls : List Line) :
    Tree.leavesOf (r.assignContinuations ls) = ls.flatMap Line.tokens := by
  induction ls generalizing r with
  | nil => rfl
  | cons l ls ih =>
    rw [assignContinuations, Tree.leavesOf_append, Tree.leavesOf_append, ih,
      Part.leavesOf_flatMap_bare, leavesOf_assign, Line.tokens_splitAfterFirstCell,
      List.flatMap_cons]

theorem Row.leavesOf_trees (shape : RowShape) (r : Row) :
    Tree.leavesOf (r.trees shape) = r.tokens := by
  rw [trees, Tree.leavesOf_append, Roles.leavesOf_assign, Roles.leavesOf_assignContinuations]
  rfl

namespace Item

theorem leavesOf_parse (form : Row → RowForm) (item : Item) :
    Tree.leavesOf (parse form item).value = item.tokens := by
  cases item with
  | blank l => exact Line.leavesOf_bare l
  | row r =>
    show Tree.leavesOf [.node _ (r.trees _)] = r.tokens
    rw [Tree.leavesOf_singleton, Tree.leaves, Row.leavesOf_trees]

theorem leavesOf_items (form : Row → RowForm) (items : List Item) :
    Tree.leavesOf (parseAll form items).value = items.flatMap tokens := by
  induction items with
  | nil => rfl
  | cons item items ih =>
    rw [parseAll_cons, Tree.leavesOf_append, leavesOf_parse, ih, List.flatMap_cons]

/-- The rows of some lines have the leaves of these lines. -/
theorem leavesOf_parseAll (form : Row → RowForm) (ls : List Line) :
    Tree.leavesOf (parseAll form (ofLines ls)).value = ls.flatMap Line.tokens := by
  rw [← flatMap_tokens_ofLines, leavesOf_items]

end Item

namespace Definition

/-- The line that names a definition is divided at the second cell. -/
theorem leavesOf_nameLine (l : Line) : Tree.leavesOf (nameLine l) = l.tokens := by
  rw [nameLine, Line.tokens]
  split
  · rename_i name rest parts
    have split := List.takeWhile_append_dropWhile (p := fun p => !p.isCell) (l := rest)
    have first : (Tree.node (.cell .definitionName) (name.map .leaf)).leaves = name := by
      rw [Tree.leaves, Tree.leavesOf_map_leaf]
    rw [parts, List.flatMap_cons, Part.tokens]
    dsimp only
    split
    · rw [Tree.leavesOf, first, Part.leavesOf_flatMap_bare]
    · rw [Tree.leavesOf, first, Tree.leavesOf_append, Part.leavesOf_flatMap_bare,
        Tree.leavesOf_singleton, Tree.leaves, Roles.leavesOf_assign, ← List.flatMap_append, split]
  · exact Part.leavesOf_flatMap_bare l.parts

theorem leaves_parse (kind : NodeKind) (d : Definition) :
    (parse kind d).value.leaves = d.lines.flatMap Line.tokens := by
  rw [parse]
  split
  · exact Item.leavesOf_parseAll RowForm.ofBody (d.first :: d.body)
  · rw [Tree.leaves, Tree.leavesOf_append, leavesOf_nameLine, Item.leavesOf_parseAll]
    rfl

theorem leavesOf_parseAll (kind : NodeKind) (ls : List Line) :
    Tree.leavesOf (parseAll kind ls).value = ls.flatMap Line.tokens := by
  calc
    Tree.leavesOf (parseAll kind ls).value =
        (ofLines ls).1.flatMap Line.tokens ++
          (ofLines ls).2.flatMap fun d => d.lines.flatMap Line.tokens := by
      rw [value_parseAll, Tree.leavesOf_append, Line.leavesOf_flatMap_bare,
        Tree.leavesOf_map (leaves_parse kind)]
    _ = ((ofLines ls).1 ++ (ofLines ls).2.flatMap lines).flatMap Line.tokens := by
      rw [List.flatMap_append, List.flatMap_assoc]
    _ = ls.flatMap Line.tokens := by rw [ofLines_flatten]

end Definition

namespace SectionLines

theorem leavesOf_parseBody (s : SectionLines) :
    Tree.leavesOf s.parseBody.value = s.body.flatMap Line.tokens := by
  rw [parseBody]
  cases s.kind with
  | settings => exact Item.leavesOf_parseAll _ _
  | variableTable => exact Item.leavesOf_parseAll _ _
  | testCases => exact Definition.leavesOf_parseAll _ _
  | tasks => exact Definition.leavesOf_parseAll _ _
  | keywords => exact Definition.leavesOf_parseAll _ _
  | comments => exact Item.leavesOf_parseAll _ _
  | unknown => exact Item.leavesOf_parseAll _ _

theorem leaves_parse (s : SectionLines) : s.parse.value.leaves = s.lines.flatMap Line.tokens := by
  rw [parse, Tree.leaves, Tree.leavesOf, Tree.leaves, Line.leavesOf_bare, leavesOf_parseBody,
    lines, List.flatMap_cons]

end SectionLines

theorem leavesOf_preambleTrees (ls : List Line) :
    Tree.leavesOf (preambleTrees ls) = ls.flatMap Line.tokens := by
  rw [preambleTrees]
  cases ls with
  | nil => rfl
  | cons l ls =>
    show Tree.leavesOf [.node .preamble ((l :: ls).flatMap Line.bare)] = _
    rw [Tree.leavesOf_singleton, Tree.leaves, Line.leavesOf_flatMap_bare]

/-- The leaves of a parsed tree are the tokens of the text. -/
theorem leaves_parse (text : Text) : (parse text).value.leaves = tokenize text := by
  calc
    (parse text).value.leaves =
        (SectionLines.linesBefore text).flatMap Line.tokens ++
          (SectionLines.ofText text).flatMap fun s => s.lines.flatMap Line.tokens := by
      rw [value_parse, Tree.leaves, Tree.leavesOf_append, leavesOf_preambleTrees,
        Tree.leavesOf_map SectionLines.leaves_parse]
    _ = (linesOf (tokenize text)).flatMap Line.tokens := by
      rw [← SectionLines.flatten_ofText, List.flatMap_append, List.flatMap_assoc]
    _ = tokenize text := flatMap_tokens_linesOf _

/-- Emitting a document ends with a builder that has been told a complete tree. The leaves of the
tree are the tokens of the text, so the tree spells the text. -/
theorem parse_lossless (text : Text) :
    ∃ e t, Emission.ofText text = some e ∧ BuilderCall.Balanced e.calls ∧
      TreeBuilder.build e.calls = some t ∧ parse text = ⟨t, e.errors⟩ ∧
      t.leaves = tokenize text ∧ t.text = text := by
  obtain ⟨e, emitted, calls, errors⟩ := Emission.ofText_eq text
  refine ⟨e, (parse text).value, emitted, ?_, ?_, ?_, leaves_parse text, ?_⟩
  · rw [calls]
    exact Tree.balanced_calls _
  · rw [calls, value_parse]
    exact TreeBuilder.build_calls .document _
  · rw [errors]
  · rw [Tree.text, leaves_parse, textOf_tokenize]

end RobotAnalysis
