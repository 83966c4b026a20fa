import Mathlib.Data.List.Chain
import RobotAnalysis.Proofs.DefinitionLines
import RobotAnalysis.Proofs.PieceOrigins

/-!
# Gaps between cells

Two cells of a parsed tree never touch. On a line a blank or a line break comes behind a cell, or
the text ends there, and a tree shows the parts of the lines in their order. Only cells without a
role come apart into their tokens.
-/
namespace RobotAnalysis

namespace Tree

mutual

/-- The cells and comments of a tree and the tokens outside of them, in the order of the text. -/
def parts : Tree → List Part
  | .leaf t => [.gap t]
  | .node kind children =>
    if kind.isFrame then partsAll children
    else if kind.isCell then [.cell (leavesOf children)]
    else [.comment (leavesOf children)]

/-- The same for consecutive trees. -/
def partsAll : List Tree → List Part
  | [] => []
  | t :: ts => t.parts ++ partsAll ts

end

theorem partsAll_eq (ts : List Tree) : partsAll ts = ts.flatMap parts := by
  induction ts with
  | nil => rfl
  | cons t ts ih => rw [partsAll, ih, List.flatMap_cons]

@[simp] theorem parts_leaf (t : Token) : (leaf t).parts = [.gap t] := by rw [parts]

@[simp] theorem parts_cell (kind : CellKind) (ts : List Token) :
    (node (.cell kind) (ts.map leaf)).parts = [.cell ts] := by
  rw [parts, leavesOf_map_leaf]
  rfl

@[simp] theorem parts_comment (ts : List Token) :
    (node .comment (ts.map leaf)).parts = [.comment ts] := by
  rw [parts, leavesOf_map_leaf]
  rfl

theorem parts_of_isFrame {kind : NodeKind} (h : kind.isFrame = true) (children : List Tree) :
    (node kind children).parts = children.flatMap parts := by
  rw [parts, if_pos h, partsAll_eq]

theorem flatMap_parts_leaves (ts : List Token) : (ts.map leaf).flatMap parts = ts.map .gap := by
  rw [List.flatMap_map, List.map_eq_flatMap]
  simp only [parts_leaf]

mutual

/-- The parts of a tree spell it. -/
theorem flatMap_tokens_parts : ∀ t : Tree, t.parts.flatMap Part.tokens = t.leaves
  | .leaf t => by simp [leaves, Part.tokens]
  | .node kind children => by
    rw [parts, leaves]
    split
    · exact flatMap_tokens_partsAll children
    · split <;> simp [Part.tokens]

theorem flatMap_tokens_partsAll :
    ∀ ts : List Tree, (partsAll ts).flatMap Part.tokens = leavesOf ts
  | [] => rfl
  | t :: ts => by
    rw [partsAll, List.flatMap_append, flatMap_tokens_parts t, flatMap_tokens_partsAll ts, leavesOf]

end

end Tree

namespace Part

/-- The parts of some lines as trees show them: a cell may have come apart into its tokens. -/
inductive Shown : List Part → List Part → Prop
  | nil : Shown [] []
  | whole (p : Part) {ps qs : List Part} : Shown ps qs → Shown (p :: ps) (p :: qs)
  | inTokens (ts : List Token) {ps qs : List Part} :
      Shown ps qs → Shown (.cell ts :: ps) (ts.map .gap ++ qs)

namespace Shown

variable {ps qs us vs xs ys : List Part}

theorem append (h : Shown ps qs) (h' : Shown us vs) : Shown (ps ++ us) (qs ++ vs) := by
  induction h with
  | nil => exact h'
  | whole p _ ih => exact .whole p ih
  | inTokens ts _ ih =>
    rw [List.append_assoc]
    exact .inTokens ts ih

theorem flatMap {α : Type} {l : List α} {f g : α → List Part}
    (h : ∀ a ∈ l, Shown (f a) (g a)) : Shown (l.flatMap f) (l.flatMap g) := by
  induction l with
  | nil => exact .nil
  | cons a l ih =>
    obtain ⟨first, rest⟩ := List.forall_mem_cons.1 h
    rw [List.flatMap_cons, List.flatMap_cons]
    exact first.append (ih rest)

/-- No token is lost. -/
theorem flatMap_tokens (h : Shown ps qs) : ps.flatMap tokens = qs.flatMap tokens := by
  induction h with
  | nil => rfl
  | whole p _ ih => rw [List.flatMap_cons, List.flatMap_cons, ih]
  | inTokens ts _ ih =>
    have single : (ts.map gap).flatMap tokens = ts := by simp [List.flatMap_map, tokens]
    rw [List.flatMap_cons, List.flatMap_append, ih, single]
    rfl

/-- A cell that is shown as one is a cell of the lines, and what is shown behind it is what stands
behind it. -/
theorem exists_of_cell {cs : List Token} (h : Shown ps (xs ++ .cell cs :: ys)) :
    ∃ front back, ps = front ++ .cell cs :: back ∧ Shown back ys := by
  generalize shown : xs ++ .cell cs :: ys = qs at h
  induction h generalizing xs with
  | nil => simp at shown
  | @whole p ps qs inside ih =>
    cases xs with
    | nil =>
      obtain ⟨rfl, rfl⟩ := List.cons.inj shown
      exact ⟨[], ps, rfl, inside⟩
    | cons x xs =>
      obtain ⟨front, back, rfl, behind⟩ := ih (List.cons.inj shown).2
      exact ⟨p :: front, back, rfl, behind⟩
  | @inTokens ts ps qs inside ih =>
    rcases List.append_eq_append_iff.1 shown with ⟨between, split, rest⟩ | ⟨between, rfl, rest⟩
    · cases between with
      | nil =>
        obtain ⟨front, back, rfl, behind⟩ := @ih [] rest
        exact ⟨.cell ts :: front, back, rfl, behind⟩
      | cons x between =>
        obtain ⟨rfl, -⟩ := List.cons.inj rest
        have gap : Part.cell cs ∈ ts.map .gap := split ▸ List.mem_append_right _ List.mem_cons_self
        simp at gap
    · obtain ⟨front, back, rfl, behind⟩ := ih rest.symm
      exact ⟨.cell ts :: front, back, rfl, behind⟩

theorem bare (p : Part) : Shown [p] (p.bare.flatMap Tree.parts) := by
  cases p with
  | gap t => exact .whole _ .nil
  | cell ts =>
    rw [Part.bare, Tree.flatMap_parts_leaves]
    simpa using Shown.inTokens ts .nil
  | comment ts =>
    rw [Part.bare, List.flatMap_singleton, Tree.parts_comment]
    exact .whole _ .nil

theorem flatMap_bare (ps : List Part) : Shown ps ((ps.flatMap Part.bare).flatMap Tree.parts) := by
  rw [List.flatMap_assoc]
  conv => arg 1; rw [← List.flatMap_singleton' ps]
  exact .flatMap fun p _ => bare p

theorem ofCell (kind? : Option CellKind) (ts : List Token) :
    Shown [.cell ts] ((Part.ofCell kind? ts).flatMap Tree.parts) := by
  cases kind? with
  | none => exact bare (.cell ts)
  | some kind =>
    rw [Part.ofCell, List.flatMap_singleton, Tree.parts_cell]
    exact .whole _ .nil

end Shown

end Part

open RobotAnalysis.Part (Shown)

namespace Roles

theorem shown_assign (r : Roles) (ps : List Part) :
    Shown ps ((r.assign ps).1.flatMap Tree.parts) := by
  induction ps generalizing r with
  | nil => exact .nil
  | cons p ps ih =>
    cases p with
    | gap t => exact .whole _ (ih r)
    | cell ts =>
      simp only [assign, List.flatMap_append]
      exact (Shown.ofCell _ ts).append (ih _)
    | comment ts =>
      simp only [assign, List.flatMap_cons, Tree.parts_comment]
      exact .whole _ (ih r)

theorem shown_assignContinuations (r : Roles) (ls : List Line) :
    Shown (ls.flatMap Line.parts) ((r.assignContinuations ls).flatMap Tree.parts) := by
  induction ls generalizing r with
  | nil => exact .nil
  | cons l ls ih =>
    have line : l.parts = l.splitAfterFirstCell.1 ++ l.splitAfterFirstCell.2 :=
      (List.take_append_drop _ _).symm
    rw [List.flatMap_cons, assignContinuations, List.flatMap_append, List.flatMap_append, line]
    exact ((Shown.flatMap_bare _).append (shown_assign r _)).append (ih _)

end Roles

theorem Row.shown_trees (shape : RowShape) (r : Row) :
    Shown ((r.head :: r.continuations).flatMap Line.parts)
      ((r.trees shape).flatMap Tree.parts) := by
  rw [List.flatMap_cons, Row.trees, List.flatMap_append]
  exact (Roles.shown_assign _ _).append (Roles.shown_assignContinuations _ _)

theorem Line.shown_bare (ls : List Line) :
    Shown (ls.flatMap parts) ((ls.flatMap bare).flatMap Tree.parts) := by
  rw [List.flatMap_assoc]
  exact .flatMap fun l _ => .flatMap_bare l.parts

theorem RowForm.InUse.shown_parse {form : Row → RowForm} (used : InUse form) (r : Row) :
    Shown ((r.head :: r.continuations).flatMap Line.parts) (RowForm.parse form r).value.parts := by
  rw [RowForm.parse, Tree.parts_of_isFrame (NodeKind.isFrame_of_isRow (used.isRow r))]
  exact r.shown_trees _

theorem Item.shown_parseAll {form : Row → RowForm} (used : RowForm.InUse form) (ls : List Line) :
    Shown (ls.flatMap Line.parts) ((parseAll form (ofLines ls)).value.flatMap Tree.parts) := by
  rw [value_parseAll, List.flatMap_assoc]
  conv => arg 1; rw [← flatMap_lines_ofLines ls, List.flatMap_assoc]
  refine .flatMap fun item _ => ?_
  cases item with
  | blank l =>
    rw [lines, List.flatMap_singleton]
    exact .flatMap_bare l.parts
  | row r =>
    rw [Item.parse, List.flatMap_singleton]
    exact used.shown_parse r

namespace Definition

theorem shown_nameLine (l : Line) : Shown l.parts ((nameLine l).flatMap Tree.parts) := by
  rw [nameLine]
  split
  · rename_i name rest split
    rw [split]
    dsimp only
    split
    · rw [List.flatMap_cons, Tree.parts_cell]
      exact .whole _ (.flatMap_bare rest)
    · rename_i first _
      have row : (RowForm.shapeInBody first).1.isFrame = true :=
        NodeKind.isFrame_of_isRow (RowForm.isRow_shapeInBody first)
      rw [List.flatMap_cons, Tree.parts_cell, List.flatMap_append, List.flatMap_singleton,
        Tree.parts_of_isFrame row]
      refine .whole _ ?_
      conv => arg 1; rw [← List.takeWhile_append_dropWhile (p := fun p => !p.isCell) (l := rest)]
      exact (Shown.flatMap_bare _).append (Roles.shown_assign _ _)
  · exact .flatMap_bare l.parts

theorem shown_parse {kind : NodeKind} (isDefinition : kind.isDefinition = true) (d : Definition) :
    Shown (d.lines.flatMap Line.parts) (parse kind d).value.parts := by
  have isFrame : kind.isFrame = true := NodeKind.isFrame_of_isDefinition isDefinition
  rw [parse]
  split
  · rw [Tree.parts_of_isFrame isFrame]
    exact Item.shown_parseAll .ofBody _
  · rw [Tree.parts_of_isFrame isFrame, List.flatMap_append, lines, List.flatMap_cons]
    exact (shown_nameLine d.first).append (Item.shown_parseAll .ofBody d.body)

theorem shown_parseAll {kind : NodeKind} (isDefinition : kind.isDefinition = true)
    (ls : List Line) :
    Shown (ls.flatMap Line.parts) ((parseAll kind ls).value.flatMap Tree.parts) := by
  rw [value_parseAll, List.flatMap_append, List.flatMap_map]
  conv => arg 1; rw [← ofLines_flatten ls, List.flatMap_append, List.flatMap_assoc]
  exact (Line.shown_bare _).append (.flatMap fun d _ => shown_parse isDefinition d)

end Definition

theorem SectionLines.shown_parse (s : SectionLines) :
    Shown (s.lines.flatMap Line.parts) s.parse.value.parts := by
  have body : Shown (s.body.flatMap Line.parts) (s.parseBody.value.flatMap Tree.parts) := by
    rw [parseBody]
    cases s.kind with
    | settings => exact Item.shown_parseAll .ofSetting _
    | variableTable => exact Item.shown_parseAll .ofVariable _
    | testCases | tasks =>
      exact Definition.shown_parseAll (rfl : NodeKind.testCase.isDefinition = true) _
    | keywords =>
      exact Definition.shown_parseAll (rfl : NodeKind.userKeyword.isDefinition = true) _
    | comments | unknown => exact Item.shown_parseAll .plain _
  rw [value_parse, Tree.parts_of_isFrame rfl, List.flatMap_cons, Tree.parts_of_isFrame rfl, lines,
    List.flatMap_cons]
  exact (Shown.flatMap_bare s.heading.parts).append body

/-- A parsed tree shows the parts of the lines of the text. -/
theorem shown_parse (text : Text) : Shown (partsOf text) (parse text).value.parts := by
  have preamble : Shown ((SectionLines.linesBefore text).flatMap Line.parts)
      ((preambleTrees (SectionLines.linesBefore text)).flatMap Tree.parts) := by
    rw [preambleTrees]
    split
    · rename_i empty
      rw [List.isEmpty_iff.1 empty]
      exact .nil
    · rw [List.flatMap_singleton, Tree.parts_of_isFrame rfl]
      exact Line.shown_bare _
  rw [partsOf, ← SectionLines.flatten_ofText, value_parse, Tree.parts_of_isFrame rfl,
    List.flatMap_append, List.flatMap_append, List.flatMap_assoc, List.flatMap_map]
  exact preamble.append (.flatMap fun s _ => s.shown_parse)

namespace Part

/-- Whether a part may come behind another one: behind a cell only a blank or a line break. -/
def MayFollow (p q : Part) : Prop := p.isCell = true → ∃ t, q = .gap t ∧ t.isTrivia = true

theorem mayFollow_of_not_isCell {p q : Part} (h : p.isCell = false) : p.MayFollow q :=
  fun cell => absurd cell (by simp [h])

/-- Behind the tokens of a cell come single blanks only, up to where the cell ends. -/
theorem exists_spaces_append_of_restOfCell (ts : List Token) : ∃ spaces behind,
    (restOfCell ts).2 = spaces ++ behind ∧ (∀ t ∈ spaces, t.kind = .space) ∧
      ∀ t ∈ behind.head?, endsCell t = true := by
  let stays := fun t => !endsCell t
  obtain ⟨spaces, whole, blank⟩ :=
    Sequence.exists_dropTrailing_append Token.isTrivia (ts.takeWhile stays)
  refine ⟨spaces, ts.dropWhile stays, ?_, fun t ht => ?_, fun t first => ?_⟩
  · refine (List.append_right_inj (restOfCell ts).1).1 ?_
    calc (restOfCell ts).1 ++ (restOfCell ts).2
      _ = ts.takeWhile stays ++ ts.dropWhile stays := by
        rw [append_restOfCell, List.takeWhile_append_dropWhile]
      _ = (restOfCell ts).1 ++ (spaces ++ ts.dropWhile stays) := by
        rw [whole, List.append_assoc]
        rfl
  · have trivia := blank t ht
    have taken : t ∈ ts.takeWhile stays := whole ▸ List.mem_append_right _ ht
    have inside : endsCell t = false := by simpa [stays] using List.mem_takeWhile_imp taken
    obtain ⟨kind, text⟩ := t
    cases kind with
    | space => rfl
    | word | stray => cases trivia
    | separator | newline => cases inside
  · have ends := List.head?_dropWhile_not stays ts
    rw [Option.mem_def.1 first] at ends
    simpa [stays] using ends

/-- Behind the tokens of a cell comes a blank or a line break. -/
theorem isTrivia_of_mem_head?_restOfCell {ts : List Token} {t : Token}
    (h : t ∈ (restOfCell ts).2.head?) : t.isTrivia = true := by
  obtain ⟨spaces, behind, rest, blank, ends⟩ := exists_spaces_append_of_restOfCell ts
  rw [rest] at h
  cases spaces with
  | nil => exact isTrivia_of_endsCell (ends t h)
  | cons u spaces =>
    cases h
    rw [Token.isTrivia, blank _ List.mem_cons_self]
    rfl

/-- On a line only a blank or a line break comes behind a cell. -/
theorem isChain_ofTokens (ts : List Token) : (ofTokens ts).IsChain MayFollow := by
  induction ts using ofTokens.induct with
  | case1 =>
    rw [ofTokens]
    exact .nil
  | case2 t ts trivia ih =>
    rw [ofTokens, if_pos trivia]
    exact List.isChain_cons.2 ⟨fun _ _ => mayFollow_of_not_isCell rfl, ih⟩
  | case3 t ts noTrivia opens =>
    rw [ofTokens, if_neg noTrivia, if_pos opens]
    have gaps (us : List Token) : (us.map Part.gap).IsChain MayFollow := by
      refine (List.isChain_map _).2 (List.isChain_iff_forall_rel_of_append_cons_cons.2 ?_)
      exact fun _ _ _ _ _ => mayFollow_of_not_isCell rfl
    exact List.isChain_cons.2 ⟨fun _ _ => mayFollow_of_not_isCell rfl, gaps _⟩
  | case4 t ts noTrivia noComment rest ih =>
    rw [ofTokens, if_neg noTrivia, if_neg noComment]
    refine List.isChain_cons.2 ⟨fun q behind _ => ?_, ih⟩
    cases next : (restOfCell ts).2 with
    | nil =>
      rw [next, ofTokens] at behind
      cases behind
    | cons u us =>
      have blank : u.isTrivia = true := isTrivia_of_mem_head?_restOfCell (by rw [next]; rfl)
      rw [next, ofTokens, if_pos blank] at behind
      exact ⟨u, (Option.some.inj behind).symm, blank⟩

/-- A line that ends with a line break does not end with a cell. -/
theorem isCell_eq_false_of_newline {ts : List Token} {t : Token} {p : Part}
    (h : ts.getLast? = some t) (newline : t.kind = .newline) (last : p ∈ (ofTokens ts).getLast?) :
    p.isCell = false := by
  obtain ⟨before, parts⟩ := List.getLast?_eq_some_iff.1 last
  cases p with
  | gap u => rfl
  | comment us => rfl
  | cell us =>
    obtain ⟨filled, noBreak⟩ := of_cell_mem_ofTokens (List.mem_of_getLast? last)
    have tokens : before.flatMap tokens ++ us = ts := by
      rw [← flatMap_tokens_ofTokens ts, parts, List.flatMap_append, List.flatMap_singleton]
      rfl
    rw [← tokens, List.getLast?_append_of_ne_nil _ filled] at h
    exact absurd newline (noBreak t (List.mem_of_getLast? h))

/-- A cell does not begin with a blank or a line break. -/
theorem isTrivia_of_mem_head?_cell {ts cs : List Token} (h : .cell cs ∈ ofTokens ts) :
    ∀ t ∈ cs.head?, t.isTrivia = false := by
  obtain ⟨t, us, word, rfl⟩ := exists_restOfCell h
  rintro _ ⟨⟩
  exact word

end Part

/-- Whether a line ends with a line break. -/
def EndsInNewline (ts : List Token) : Prop := ∃ t, ts.getLast? = some t ∧ t.kind = .newline

theorem isChain_flatMap_ofTokens {groups : List (List Token)}
    (h : groups.IsChain fun l _ => EndsInNewline l) :
    (groups.flatMap Part.ofTokens).IsChain Part.MayFollow := by
  induction groups with
  | nil => exact .nil
  | cons l ls ih =>
    obtain ⟨ends, rest⟩ := List.isChain_cons.1 h
    rw [List.flatMap_cons]
    refine List.isChain_append.2 ⟨Part.isChain_ofTokens l, ih rest, fun p last q next => ?_⟩
    cases ls with
    | nil => cases next
    | cons m ls =>
      obtain ⟨t, isLast, newline⟩ := ends m rfl
      exact Part.mayFollow_of_not_isCell (Part.isCell_eq_false_of_newline isLast newline last)

theorem partsOf_eq (text : Text) :
    partsOf text = (splitLines (tokenize text)).flatMap Part.ofTokens := by
  have located (offset : Nat) (groups : List (List Token)) :
      (linesOf.locate offset groups).flatMap Line.parts = groups.flatMap Part.ofTokens := by
    induction groups generalizing offset with
    | nil => rfl
    | cons l ls ih => rw [linesOf.locate, List.flatMap_cons, List.flatMap_cons, ih]
  rw [partsOf, linesOf, located]

/-- The parts of the lines of a text spell it. -/
theorem flatMap_tokens_partsOf (text : Text) :
    (partsOf text).flatMap Part.tokens = tokenize text := by
  rw [(shown_parse text).flatMap_tokens, Tree.flatMap_tokens_parts, leaves_parse]

theorem isChain_splitLines (ts : List Token) :
    (splitLines ts).IsChain fun l _ => EndsInNewline l := by
  refine List.isChain_iff_forall_rel_of_append_cons_cons.2 fun l m before behind split => ?_
  exact getLast?_of_splitLines split

/-- Behind a cell of a text comes a blank or a line break, or nothing. -/
theorem isChain_partsOf (text : Text) : (partsOf text).IsChain Part.MayFollow := by
  rw [partsOf_eq]
  exact isChain_flatMap_ofTokens (isChain_splitLines _)

namespace Tree

variable {ps : List Part} {n : Node}

mutual

/-- A cell of a tree is shown by it, behind the bytes that are before it. -/
theorem exists_parts_of_mem_nodesIn (start : Nat) (cell : n.kind.isCell = true) :
    ∀ t : Tree, MadeOf ps t → n ∈ nodesIn start t →
      ∃ xs ys, t.parts = xs ++ .cell (leavesOf n.children) :: ys ∧
        n.start = start + Token.sizeOf (xs.flatMap Part.tokens)
  | .leaf _, _, h => by cases h
  | .node kind children, made, h => by
    rcases List.mem_cons.1 h with rfl | below
    · have noFrame : ¬ kind.isFrame = true := by
        intro isFrame
        simp [NodeKind.isCell_of_isFrame isFrame] at cell
      refine ⟨[], [], ?_, rfl⟩
      rw [parts, if_neg noFrame, if_pos cell]
      rfl
    · have inside : ∀ t ∈ children, MadeOf ps t := by
        cases made with
        | cell _ _ | comment _ =>
          intro t ht
          obtain ⟨token, -, rfl⟩ := List.mem_map.1 ht
          exact .leaf token
        | frame _ inside => exact inside
      have isFrame : kind.isFrame = true := by
        cases made with
        | cell _ _ | comment _ =>
          rw [Node.nodesInAll_eq, nodesFrom_map_leaf] at below
          cases below
        | frame isFrame _ => exact isFrame
      rw [parts_of_isFrame isFrame]
      exact exists_parts_of_mem_nodesInAll start cell children inside below

theorem exists_parts_of_mem_nodesInAll (start : Nat) (cell : n.kind.isCell = true) :
    ∀ ts : List Tree, (∀ t ∈ ts, MadeOf ps t) → n ∈ nodesInAll start ts →
      ∃ xs ys, ts.flatMap parts = xs ++ .cell (leavesOf n.children) :: ys ∧
        n.start = start + Token.sizeOf (xs.flatMap Part.tokens)
  | [], _, h => by cases h
  | t :: ts, made, h => by
    obtain ⟨first, rest⟩ := List.forall_mem_cons.1 made
    rw [List.flatMap_cons]
    rcases List.mem_append.1 h with h | h
    · obtain ⟨xs, ys, shown, place⟩ := exists_parts_of_mem_nodesIn start cell t first h
      exact ⟨xs, ys ++ ts.flatMap parts, by rw [shown, List.append_assoc]; rfl, place⟩
    · obtain ⟨xs, ys, shown, place⟩ :=
        exists_parts_of_mem_nodesInAll (start + t.size) cell ts rest h
      refine ⟨t.parts ++ xs, ys, by rw [shown, List.append_assoc], ?_⟩
      rw [place, List.flatMap_append, flatMap_tokens_parts, Token.sizeOf_append, size,
        Nat.add_assoc]

end

end Tree

namespace Node

variable {text : Text} {n m : Node}

/-- A cell of a parsed tree is a cell of the lines of the text, at the same place. -/
theorem exists_parts_of_cell (h : n ∈ (parse text).value.allNodes) (cell : n.kind.isCell = true) :
    ∃ front back, partsOf text = front ++ .cell (Tree.leavesOf n.children) :: back ∧
      tokenize text =
        front.flatMap Part.tokens ++ (Tree.leavesOf n.children ++ back.flatMap Part.tokens) ∧
      n.start = Token.sizeOf (front.flatMap Part.tokens) := by
  obtain ⟨xs, ys, shown, place⟩ :=
    Tree.exists_parts_of_mem_nodesIn 0 cell _ (madeOf_parse text) h
  have order := shown_parse text
  rw [shown] at order
  obtain ⟨front, back, parts, behind⟩ := order.exists_of_cell
  have same := order.flatMap_tokens
  rw [parts, List.flatMap_append, List.flatMap_append, List.flatMap_cons, List.flatMap_cons,
    behind.flatMap_tokens, List.append_left_inj] at same
  refine ⟨front, back, parts, ?_, by rw [place, Nat.zero_add, same]⟩
  rw [← flatMap_tokens_partsOf, parts, List.flatMap_append, List.flatMap_cons]
  rfl

/-- A cell of a parsed tree is a cell of some line. -/
theorem exists_line_of_cell (h : n ∈ (parse text).value.allNodes) (cell : n.kind.isCell = true) :
    ∃ ts, .cell (Tree.leavesOf n.children) ∈ Part.ofTokens ts := by
  obtain ⟨front, back, parts, -, -⟩ := exists_parts_of_cell h cell
  have mem : Part.cell (Tree.leavesOf n.children) ∈ partsOf text := by
    rw [parts]
    exact List.mem_append_right _ List.mem_cons_self
  rw [partsOf_eq] at mem
  obtain ⟨ts, -, mem⟩ := List.mem_flatMap.1 mem
  exact ⟨ts, mem⟩

/-- In a parsed tree a cell does not begin with a blank or a line break, but what comes behind it
does. -/
theorem exists_split_of_cell (h : n ∈ (parse text).value.allNodes) (cell : n.kind.isCell = true) :
    ∃ before behind, tokenize text = before ++ (Tree.leavesOf n.children ++ behind) ∧
      n.start = Token.sizeOf before ∧ (∀ t ∈ (Tree.leavesOf n.children).head?, t.isTrivia = false) ∧
        ∀ t ∈ behind.head?, t.isTrivia = true := by
  obtain ⟨front, back, parts, tokens, place⟩ := exists_parts_of_cell h cell
  obtain ⟨ts, mem⟩ := exists_line_of_cell h cell
  refine ⟨front.flatMap Part.tokens, back.flatMap Part.tokens, tokens, place,
    Part.isTrivia_of_mem_head?_cell mem, ?_⟩
  have chain := isChain_partsOf text
  cases back with
  | nil => nofun
  | cons p back =>
    rw [parts, List.isChain_append_cons_cons] at chain
    obtain ⟨t, rfl, trivia⟩ := chain.2.1 rfl
    rintro _ ⟨⟩
    exact trivia

theorem stop_ne_start_of_cells (hn : n ∈ (parse text).value.allNodes)
    (cell : n.kind.isCell = true) (hm : m ∈ (parse text).value.allNodes)
    (other : m.kind.isCell = true) : n.span.stop ≠ m.start := by
  intro touch
  obtain ⟨before, behind, tokens, start, -, gap⟩ := exists_split_of_cell hn cell
  obtain ⟨before', behind', tokens', start', word, -⟩ := exists_split_of_cell hm other
  have ends : Token.sizeOf (before ++ Tree.leavesOf n.children) = Token.sizeOf before' := by
    rw [← start', ← touch, Token.sizeOf_append, span_eq, Span.stop, start]
  rw [← List.append_assoc] at tokens
  have filled : ∀ t ∈ tokenize text, t.text ≠ [] := fun t => Token.text_ne_nil_of_mem_tokenize
  have same := Token.eq_of_sizeOf_eq filled ⟨behind, tokens.symm⟩ ⟨_, tokens'.symm⟩ ends
  rw [tokens, same] at tokens'
  -- The token behind the first cell would be the first one of the second cell.
  obtain ⟨t, rest, leaves⟩ := List.exists_cons_of_ne_nil (tokens_of_cell hm other).1
  rw [List.append_cancel_left tokens', leaves] at gap
  rw [leaves] at word
  have blank := gap t rfl
  rw [word t rfl] at blank
  cases blank

theorem isPiece_of_cell (h : n ∈ (parse text).value.allNodes) (cell : n.kind.isCell = true) :
    n.tree.IsPiece := by
  have made := Tree.madeOf_of_mem_nodesIn 0 _ (madeOf_parse text) n h
  obtain ⟨start, kind, children⟩ := n
  cases made with
  | cell kind found => exact .cell kind _
  | comment found => exact .comment _
  | frame isFrame _ => simp [NodeKind.isCell_of_isFrame isFrame] at cell

/-- Of two cells of a parsed tree that are not the same there is something between them. -/
theorem eq_or_apart_of_cells (hn : n ∈ (parse text).value.allNodes)
    (cell : n.kind.isCell = true) (hm : m ∈ (parse text).value.allNodes)
    (other : m.kind.isCell = true) :
    n = m ∨ n.span.stop < m.start ∨ m.span.stop < n.start := by
  cases Tree.apart_of_mem_allNodes hn hm with
  | same h => exact .inl h
  | inside h =>
    rw [below_eq_nil (isPiece_of_cell hm other)] at h
    cases h
  | around h =>
    rw [below_eq_nil (isPiece_of_cell hn cell)] at h
    cases h
  | before h => exact .inr (.inl (Nat.lt_of_le_of_ne h (stop_ne_start_of_cells hn cell hm other)))
  | behind h => exact .inr (.inr (Nat.lt_of_le_of_ne h (stop_ne_start_of_cells hm other hn cell)))

end Node

end RobotAnalysis
