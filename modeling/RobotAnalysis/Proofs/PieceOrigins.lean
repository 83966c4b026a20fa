import RobotAnalysis.Proofs.EmittedDocument
import RobotAnalysis.Proofs.HeadingKinds
import RobotAnalysis.Proofs.TreeGrammar

/-!
# Where the pieces of a tree come from

Every cell of a parsed tree is a cell of some line of the text, and so is every comment. So what is
known about the parts of lines is known about the nodes around tokens: they hold some token, and the
ones that are cells hold no line break.
-/
namespace RobotAnalysis

/-- Kinds of nodes that group other nodes. -/
def NodeKind.isFrame (kind : NodeKind) : Bool := !kind.isCell && kind != .comment

theorem NodeKind.isFrame_of_isRow {kind : NodeKind} (h : kind.isRow = true) :
    kind.isFrame = true := by
  cases kind <;> first | rfl | cases h

theorem NodeKind.isFrame_of_isDefinition {kind : NodeKind} (h : kind.isDefinition = true) :
    kind.isFrame = true := by
  cases kind <;> first | rfl | cases h

theorem NodeKind.isCell_of_isFrame {kind : NodeKind} (h : kind.isFrame = true) :
    kind.isCell = false := by
  cases kind <;> first | rfl | cases h

namespace Tree

/-- A tree whose cells and comments are among some parts of lines. -/
inductive MadeOf (parts : List Part) : Tree → Prop
  | leaf (t : Token) : MadeOf parts (.leaf t)
  | cell (kind : CellKind) {ts : List Token} (h : .cell ts ∈ parts) :
      MadeOf parts (.node (.cell kind) (ts.map .leaf))
  | comment {ts : List Token} (h : .comment ts ∈ parts) :
      MadeOf parts (.node .comment (ts.map .leaf))
  | frame {kind : NodeKind} {children : List Tree} (isFrame : kind.isFrame = true)
      (h : ∀ t ∈ children, MadeOf parts t) : MadeOf parts (.node kind children)

end Tree

variable {parts : List Part} {t : Tree}

namespace Part

theorem madeOf_of_mem_bare {p : Part} (h : p ∈ parts) (ht : t ∈ p.bare) : Tree.MadeOf parts t := by
  cases p with
  | gap token => exact List.mem_singleton.1 ht ▸ .leaf token
  | cell ts =>
    obtain ⟨token, -, rfl⟩ := List.mem_map.1 ht
    exact .leaf token
  | comment ts => exact List.mem_singleton.1 ht ▸ .comment h

theorem madeOf_of_mem_flatMap_bare {ps : List Part} (h : ∀ p ∈ ps, p ∈ parts)
    (ht : t ∈ ps.flatMap bare) : Tree.MadeOf parts t := by
  obtain ⟨p, hp, ht⟩ := List.mem_flatMap.1 ht
  exact madeOf_of_mem_bare (h p hp) ht

theorem madeOf_of_mem_ofCell {kind? : Option CellKind} {ts : List Token} (h : .cell ts ∈ parts)
    (ht : t ∈ ofCell kind? ts) : Tree.MadeOf parts t := by
  cases kind? with
  | none =>
    obtain ⟨token, -, rfl⟩ := List.mem_map.1 ht
    exact .leaf token
  | some kind => exact List.mem_singleton.1 ht ▸ .cell kind h

end Part

namespace Roles

theorem madeOf_of_mem_assign {r : Roles} {ps : List Part} (h : ∀ p ∈ ps, p ∈ parts)
    (ht : t ∈ (r.assign ps).1) : Tree.MadeOf parts t := by
  induction ps generalizing r with
  | nil => cases ht
  | cons p ps ih =>
    obtain ⟨first, rest⟩ := List.forall_mem_cons.1 h
    cases p with
    | gap token =>
      rcases List.mem_cons.1 ht with rfl | ht
      · exact .leaf token
      · exact ih rest ht
    | cell ts =>
      rcases List.mem_append.1 ht with ht | ht
      · exact Part.madeOf_of_mem_ofCell first ht
      · exact ih rest ht
    | comment ts =>
      rcases List.mem_cons.1 ht with rfl | ht
      · exact .comment first
      · exact ih rest ht

theorem madeOf_of_mem_assignContinuations {r : Roles} {ls : List Line}
    (h : ∀ l ∈ ls, ∀ p ∈ l.parts, p ∈ parts) (ht : t ∈ r.assignContinuations ls) :
    Tree.MadeOf parts t := by
  induction ls generalizing r with
  | nil => cases ht
  | cons l ls ih =>
    obtain ⟨first, rest⟩ := List.forall_mem_cons.1 h
    rw [assignContinuations] at ht
    rcases List.mem_append.1 ht with ht | ht
    · rcases List.mem_append.1 ht with ht | ht
      · exact Part.madeOf_of_mem_flatMap_bare (fun p hp => first p (List.mem_of_mem_take hp)) ht
      · exact madeOf_of_mem_assign (fun p hp => first p (List.mem_of_mem_drop hp)) ht
    · exact ih rest ht

end Roles

namespace Item

def lines : Item → List Line
  | .blank l => [l]
  | .row r => r.head :: r.continuations

theorem flatMap_lines_ofLines (ls : List Line) : (ofLines ls).flatMap lines = ls := by
  fun_induction ofLines ls <;> simp_all [lines]

end Item

namespace RowForm

/-- Rows become nodes that are rows. -/
theorem InUse.isRow {form : Row → RowForm} (h : InUse form) (r : Row) :
    (form r).kind.isRow = true := by
  cases h with
  | ofSetting => unfold RowForm.ofSetting; split_ifs <;> rfl
  | ofVariable => unfold RowForm.ofVariable; split_ifs <;> rfl
  | ofBody => unfold RowForm.ofBody shapeInBody; split_ifs <;> rfl
  | plain => rfl

theorem isRow_shapeInBody (first : Text) : (shapeInBody first).1.isRow = true := by
  unfold shapeInBody
  split_ifs <;> rfl

end RowForm

theorem Row.madeOf_of_mem_trees {shape : RowShape} {r : Row}
    (h : ∀ l ∈ r.head :: r.continuations, ∀ p ∈ l.parts, p ∈ parts) (ht : t ∈ r.trees shape) :
    Tree.MadeOf parts t := by
  obtain ⟨head, continuations⟩ := List.forall_mem_cons.1 h
  rcases List.mem_append.1 ht with ht | ht
  · exact Roles.madeOf_of_mem_assign head ht
  · exact Roles.madeOf_of_mem_assignContinuations continuations ht

theorem Item.madeOf_of_mem_parseAll {form : Row → RowForm} (used : RowForm.InUse form)
    {ls : List Line} (h : ∀ l ∈ ls, ∀ p ∈ l.parts, p ∈ parts)
    (ht : t ∈ (parseAll form (ofLines ls)).value) : Tree.MadeOf parts t := by
  rw [value_parseAll] at ht
  obtain ⟨item, mem, ht⟩ := List.mem_flatMap.1 ht
  have inside : ∀ l ∈ item.lines, ∀ p ∈ l.parts, p ∈ parts := by
    intro l hl
    apply h
    rw [← flatMap_lines_ofLines ls]
    exact List.mem_flatMap.2 ⟨item, mem, hl⟩
  cases item with
  | blank l => exact Part.madeOf_of_mem_flatMap_bare (inside l List.mem_cons_self) ht
  | row r =>
    rw [List.mem_singleton.1 ht]
    exact .frame (NodeKind.isFrame_of_isRow (used.isRow r))
      fun t ht => Row.madeOf_of_mem_trees inside ht

namespace Definition

theorem madeOf_of_mem_nameLine {l : Line} (h : ∀ p ∈ l.parts, p ∈ parts) (ht : t ∈ nameLine l) :
    Tree.MadeOf parts t := by
  rw [nameLine] at ht
  split at ht
  · rename_i name rest split
    rw [split] at h
    obtain ⟨named, behind⟩ := List.forall_mem_cons.1 h
    dsimp only at ht
    split at ht
    · rcases List.mem_cons.1 ht with rfl | ht
      · exact .cell .definitionName named
      · exact Part.madeOf_of_mem_flatMap_bare behind ht
    · rename_i first _
      rcases List.mem_cons.1 ht with rfl | ht
      · exact .cell .definitionName named
      · rcases List.mem_append.1 ht with ht | ht
        · refine Part.madeOf_of_mem_flatMap_bare (fun p hp => behind p ?_) ht
          exact List.takeWhile_subset _ hp
        · rw [List.mem_singleton.1 ht]
          refine .frame (NodeKind.isFrame_of_isRow (RowForm.isRow_shapeInBody first)) fun t ht => ?_
          refine Roles.madeOf_of_mem_assign (fun p hp => behind p ?_) ht
          exact List.dropWhile_subset _ hp
  · exact Part.madeOf_of_mem_flatMap_bare h ht

theorem madeOf_parse {kind : NodeKind} (isDefinition : kind.isDefinition = true) {d : Definition}
    (h : ∀ l ∈ d.lines, ∀ p ∈ l.parts, p ∈ parts) : Tree.MadeOf parts (parse kind d).value := by
  have isFrame : kind.isFrame = true := NodeKind.isFrame_of_isDefinition isDefinition
  rw [parse]
  split
  · exact .frame isFrame fun t ht => Item.madeOf_of_mem_parseAll .ofBody h ht
  · obtain ⟨first, body⟩ := List.forall_mem_cons.1 h
    refine .frame isFrame fun t ht => ?_
    rcases List.mem_append.1 ht with ht | ht
    · exact madeOf_of_mem_nameLine first ht
    · exact Item.madeOf_of_mem_parseAll .ofBody body ht

theorem madeOf_of_mem_parseAll {kind : NodeKind} (isDefinition : kind.isDefinition = true)
    {ls : List Line} (h : ∀ l ∈ ls, ∀ p ∈ l.parts, p ∈ parts)
    (ht : t ∈ (parseAll kind ls).value) : Tree.MadeOf parts t := by
  rw [← ofLines_flatten ls, List.forall_mem_append] at h
  rw [value_parseAll] at ht
  rcases List.mem_append.1 ht with ht | ht
  · obtain ⟨l, hl, ht⟩ := List.mem_flatMap.1 ht
    exact Part.madeOf_of_mem_flatMap_bare (h.1 l hl) ht
  · obtain ⟨d, hd, rfl⟩ := List.mem_map.1 ht
    exact madeOf_parse isDefinition fun l hl => h.2 l (List.mem_flatMap.2 ⟨d, hd, hl⟩)

end Definition

theorem SectionLines.madeOf_parse {s : SectionLines} (h : ∀ l ∈ s.lines, ∀ p ∈ l.parts, p ∈ parts) :
    Tree.MadeOf parts s.parse.value := by
  obtain ⟨heading, body⟩ := List.forall_mem_cons.1 h
  rw [value_parse]
  refine .frame rfl (List.forall_mem_cons.2 ⟨?_, fun t ht => ?_⟩)
  · exact .frame rfl fun t ht => Part.madeOf_of_mem_flatMap_bare heading ht
  · rw [parseBody] at ht
    cases kind : s.kind with
    | settings =>
      rw [kind] at ht
      exact Item.madeOf_of_mem_parseAll .ofSetting body ht
    | variableTable =>
      rw [kind] at ht
      exact Item.madeOf_of_mem_parseAll .ofVariable body ht
    | testCases | tasks | keywords =>
      rw [kind] at ht
      exact Definition.madeOf_of_mem_parseAll rfl body ht
    | comments | unknown =>
      rw [kind] at ht
      exact Item.madeOf_of_mem_parseAll .plain body ht

/-- The parts of the lines of a text. -/
def partsOf (text : Text) : List Part := (linesOf (tokenize text)).flatMap Line.parts

/-- The cells and comments of a parsed tree are those of the lines of the text. -/
theorem madeOf_parse (text : Text) : Tree.MadeOf (partsOf text) (parse text).value := by
  have lines : ∀ l ∈ SectionLines.linesBefore text ++
      (SectionLines.ofText text).flatMap SectionLines.lines, ∀ p ∈ l.parts, p ∈ partsOf text := by
    rw [SectionLines.flatten_ofText]
    exact fun l hl p hp => List.mem_flatMap.2 ⟨l, hl, hp⟩
  obtain ⟨before, sections⟩ := List.forall_mem_append.1 lines
  rw [value_parse]
  refine .frame rfl fun t ht => ?_
  rcases List.mem_append.1 ht with ht | ht
  · rw [preambleTrees] at ht
    split at ht
    · cases ht
    · rw [List.mem_singleton.1 ht]
      refine .frame rfl fun t ht => ?_
      obtain ⟨l, hl, ht⟩ := List.mem_flatMap.1 ht
      exact Part.madeOf_of_mem_flatMap_bare (before l hl) ht
  · obtain ⟨s, hs, rfl⟩ := List.mem_map.1 ht
    exact s.madeOf_parse fun l hl => sections l (List.mem_flatMap.2 ⟨s, hs, hl⟩)

namespace Tree

mutual

theorem madeOf_of_mem_nodesIn (start : Nat) : ∀ t : Tree, MadeOf parts t →
    ∀ n ∈ nodesIn start t, MadeOf parts n.tree
  | .leaf _, _, n, hn => by cases hn
  | .node kind children, made, n, hn => by
    rcases List.mem_cons.1 hn with rfl | hn
    · exact made
    · refine madeOf_of_mem_nodesInAll start children ?_ n hn
      cases made with
      | cell kind h | comment h =>
        intro t ht
        obtain ⟨token, -, rfl⟩ := List.mem_map.1 ht
        exact .leaf token
      | frame isFrame h => exact h

theorem madeOf_of_mem_nodesInAll (start : Nat) : ∀ ts : List Tree, (∀ t ∈ ts, MadeOf parts t) →
    ∀ n ∈ nodesInAll start ts, MadeOf parts n.tree
  | [], _, n, hn => by cases hn
  | t :: ts, made, n, hn => by
    obtain ⟨first, rest⟩ := List.forall_mem_cons.1 made
    rcases List.mem_append.1 hn with hn | hn
    · exact madeOf_of_mem_nodesIn start t first n hn
    · exact madeOf_of_mem_nodesInAll _ ts rest n hn

end

end Tree

namespace Part

variable {ts cs : List Token}

/-- A cell is a word and what follows it up to the end of the cell. -/
theorem exists_restOfCell (h : .cell cs ∈ ofTokens ts) :
    ∃ t us, t.isTrivia = false ∧ cs = t :: (restOfCell us).1 := by
  induction ts using ofTokens.induct with
  | case1 => simp [ofTokens] at h
  | case2 t ts trivia ih =>
    rw [ofTokens, if_pos trivia] at h
    exact ih (by simpa using h)
  | case3 t ts noTrivia opens =>
    rw [ofTokens, if_neg noTrivia, if_pos opens] at h
    simp at h
  | case4 t ts noTrivia noComment rest ih =>
    rw [ofTokens, if_neg noTrivia, if_neg noComment] at h
    rcases List.mem_cons.1 h with h | h
    · cases h
      exact ⟨t, ts, by simpa using noTrivia, rfl⟩
    · exact ih h

theorem isTrivia_of_endsCell {t : Token} (h : endsCell t = true) : t.isTrivia = true := by
  obtain ⟨kind, text⟩ := t
  cases kind <;> first | rfl | cases h

theorem endsCell_of_word {t : Token} (word : t.isTrivia = false) : endsCell t = false := by
  rw [← Bool.not_eq_true]
  intro ends
  rw [isTrivia_of_endsCell ends] at word
  cases word

theorem endsCell_of_mem_restOfCell {t : Token} (word : t.isTrivia = false) (ts : List Token) :
    ∀ u ∈ t :: (restOfCell ts).1, endsCell u = false := by
  refine List.forall_mem_cons.2 ⟨endsCell_of_word word, fun u hu => ?_⟩
  have taken := (Sequence.dropTrailing_isPrefix _ _).subset hu
  simpa using List.mem_takeWhile_imp taken

/-- No separator and no line break is inside of a cell. -/
theorem endsCell_of_mem_cell (h : .cell cs ∈ ofTokens ts) : ∀ t ∈ cs, endsCell t = false := by
  obtain ⟨t, us, word, rfl⟩ := exists_restOfCell h
  exact endsCell_of_mem_restOfCell word us

/-- The tokens of a cell: at least one, and no line break. -/
theorem of_cell_mem_ofTokens (h : .cell cs ∈ ofTokens ts) :
    cs ≠ [] ∧ ∀ t ∈ cs, t.kind ≠ .newline := by
  obtain ⟨t, us, -, whole⟩ := exists_restOfCell h
  refine ⟨by simp [whole], fun u hu newline => ?_⟩
  have inside := endsCell_of_mem_cell h u hu
  simp [endsCell, newline] at inside

end Part

/-- The parts of lines hold some token, and cells no line break. -/
theorem Part.tokens_of_mem_partsOf {text : Text} {p : Part} (h : p ∈ partsOf text) :
    p.tokens ≠ [] ∧ (p.isCell = true → ∀ t ∈ p.tokens, t.kind ≠ .newline) := by
  obtain ⟨l, hl, part⟩ := List.mem_flatMap.1 h
  cases p with
  | gap t => exact ⟨List.cons_ne_nil _ _, nofun⟩
  | cell ts =>
    obtain ⟨tokens, -, parts⟩ := Line.exists_of_mem_locate hl
    obtain ⟨filled, noBreak⟩ := Part.of_cell_mem_ofTokens (parts ▸ part)
    exact ⟨filled, fun _ => noBreak⟩
  | comment ts =>
    obtain ⟨t, rest, rfl, -⟩ := (Line.isProper_of_mem_linesOf hl).comments ts part
    exact ⟨List.cons_ne_nil _ _, nofun⟩

/-- Cells of a parsed tree hold some token and no line break. -/
theorem tokens_of_cell {text : Text} {n : Node} (h : n ∈ (parse text).value.allNodes)
    (cell : n.kind.isCell = true) :
    Tree.leavesOf n.children ≠ [] ∧ ∀ t ∈ Tree.leavesOf n.children, t.kind ≠ .newline := by
  have made := Tree.madeOf_of_mem_nodesIn 0 _ (madeOf_parse text) n h
  obtain ⟨start, kind, children⟩ := n
  cases made with
  | @cell kind ts found =>
    rw [Tree.leavesOf_map_leaf]
    exact (Part.tokens_of_mem_partsOf found).imp_right fun noBreak => noBreak rfl
  | comment found => cases cell
  | frame isFrame inside =>
    have noCell := NodeKind.isCell_of_isFrame isFrame
    simp [noCell] at cell

/-- The trees that a row of a parsed tree is made of hold some token each. -/
theorem leaves_ne_nil_of_row {text : Text} {n : Node} {form : Row → RowForm}
    (h : n ∈ (parse text).value.allNodes) (used : RowForm.InUse form) (row : n.IsRow form) :
    ∀ t ∈ n.children, t.leaves ≠ [] := by
  have made := Tree.madeOf_of_mem_nodesIn 0 _ (madeOf_parse text) n h
  have pieces := row.pieces
  obtain ⟨r, -, tree⟩ := row
  have isRow := used.isRow r
  rw [← (Node.children_of_tree tree).1] at isRow
  obtain ⟨start, kind, children⟩ := n
  intro t ht
  cases made with
  | cell kind found => cases isRow
  | comment found => cases isRow
  | frame isFrame inside =>
    cases inside t ht with
    | leaf t => exact List.cons_ne_nil _ _
    | cell _ found | comment found =>
      rw [Tree.leaves, Tree.leavesOf_map_leaf]
      exact (Part.tokens_of_mem_partsOf found).1
    | frame isFrame _ =>
      cases pieces _ ht with
      | cell | comment => cases isFrame

end RobotAnalysis
