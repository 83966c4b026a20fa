import RobotAnalysis.Parse
import RobotAnalysis.Proofs.BlankRuns
import RobotAnalysis.Proofs.TokenSpelling

/-!
# Parsing what is written plainly

A token is plain if a separator is two spaces and a line break a line feed. Parsing looks at
separators and line breaks to see where they are and never at how they are written, with one
exception: the kind of a section is read off the text from the first cell of its heading to the last
one, separators included. So lines that are made plain are parsed to the same trees, up to the texts
of separators and line breaks, and with the same faults.
-/
namespace RobotAnalysis

namespace Token

instance (text : Text) : Decidable (IsSeparator text) :=
  decidable_of_iff (text.all isGap = true ∧ (2 ≤ text.length ∨ '\t' ∈ text))
    ⟨fun h => ⟨List.all_eq_true.1 h.1, h.2⟩, fun h => ⟨List.all_eq_true.2 h.gaps, h.wide⟩⟩

/-- The token in its plainest writing. -/
def plain (t : Token) : Token :=
  if t.kind = .separator ∧ IsSeparator t.text then ⟨.separator, [' ', ' ']⟩
  else if t.kind = .newline ∧ t.text = ['\r', '\n'] then ⟨.newline, ['\n']⟩
  else t

/-- The token without its text where it only says where a cell or a line ends. -/
def outline (t : Token) : Token := ⟨t.kind, if Part.endsCell t then [] else t.text⟩

@[simp] theorem kind_plain (t : Token) : t.plain.kind = t.kind := by
  unfold plain
  split
  · rename_i h
    exact h.1.symm
  · split
    · rename_i h
      exact h.1.symm
    · rfl

theorem plain_of_not_endsCell {t : Token} (h : Part.endsCell t = false) : t.plain = t := by
  simp only [Part.endsCell, Bool.or_eq_false_iff, beq_eq_false_iff_ne, ne_eq] at h
  rw [plain, if_neg fun sep => h.1 sep.1, if_neg fun brk => h.2 brk.1]

@[simp] theorem isTrivia_plain (t : Token) : t.plain.isTrivia = t.isTrivia := by
  rw [isTrivia, kind_plain, isTrivia]

@[simp] theorem endsCell_plain (t : Token) : Part.endsCell t.plain = Part.endsCell t := by
  rw [Part.endsCell, kind_plain, Part.endsCell]

@[simp] theorem outline_plain (t : Token) : t.plain.outline = t.outline := by
  cases ends : Part.endsCell t with
  | true => rw [outline, outline, endsCell_plain, ends, kind_plain, if_pos rfl, if_pos rfl]
  | false => rw [plain_of_not_endsCell ends]

/-- What is written plainly is blank where the token was. -/
theorem respaced_plain (t : Token) : Text.Respaced t.text t.plain.text := by
  have gap {text : Text} (h : ∀ c ∈ text, isGap c = true) :
      ∀ c ∈ text, CharClass.isBlank c = true := by
    intro c hc
    have here := h c hc
    simp only [isGap, Bool.or_eq_true, beq_iff_eq] at here
    rcases here with rfl | rfl <;> decide
  unfold plain
  split
  · rename_i h
    simpa using Text.Respaced.run h.2.ne_nil (List.cons_ne_nil ' ' [' ']) (gap h.2.gaps)
      (List.all_eq_true.1 rfl) .nil
  · split
    · rename_i h
      rw [h.2]
      exact .run (a := ['\r', '\n']) (b := ['\n']) (by simp) (by simp)
        (List.all_eq_true.1 rfl) (List.all_eq_true.1 rfl) .nil
    · exact .refl _

end Token

namespace Tree

mutual

/-- The tree without the texts of its separators and line breaks. -/
def outline : Tree → Tree
  | .leaf t => .leaf t.outline
  | .node kind children => .node kind (outlineAll children)

/-- Trees without the texts of their separators and line breaks. -/
def outlineAll : List Tree → List Tree
  | [] => []
  | t :: ts => t.outline :: outlineAll ts

end

theorem outlineAll_eq_map (ts : List Tree) : outlineAll ts = ts.map outline := by
  induction ts with
  | nil => rfl
  | cons t ts ih => rw [outlineAll, ih, List.map_cons]

@[simp] theorem outline_node (kind : NodeKind) (ts : List Tree) :
    outline (.node kind ts) = .node kind (ts.map outline) := by
  rw [outline, outlineAll_eq_map]

@[simp] theorem outline_leaf (t : Token) : outline (.leaf t) = .leaf t.outline := by
  rw [outline]

@[simp] theorem map_outline_plain (ts : List Token) :
    ((ts.map Token.plain).map leaf).map outline = (ts.map leaf).map outline := by
  simp only [List.map_map, Function.comp_def, outline_leaf, Token.outline_plain]

end Tree

namespace Part

/-- The part in its plainest writing. A cell has no separators and no line breaks. -/
def plain : Part → Part
  | .gap t => .gap t.plain
  | .cell ts => .cell ts
  | .comment ts => .comment (ts.map Token.plain)

@[simp] theorem cellText?_plain (p : Part) : p.plain.cellText? = p.cellText? := by
  cases p <;> rfl

@[simp] theorem isCell_plain (p : Part) : p.plain.isCell = p.isCell := by
  rw [isCell, cellText?_plain, isCell]

theorem outline_bare_plain (p : Part) :
    p.plain.bare.map Tree.outline = p.bare.map Tree.outline := by
  cases p with
  | gap t => simp [plain, bare]
  | cell ts => rfl
  | comment ts => simp only [plain, bare, List.map_cons, Tree.outline_node, Tree.map_outline_plain]

theorem outline_flatMap_bare_plain (ps : List Part) :
    ((ps.map plain).flatMap bare).map Tree.outline = (ps.flatMap bare).map Tree.outline := by
  rw [List.flatMap_map, List.map_flatMap, List.map_flatMap]
  exact congrArg List.flatten (List.map_congr_left fun p _ => outline_bare_plain p)

/-- The tokens up to the end of a cell are written plainly. -/
theorem map_plain_takeWhile (ts : List Token) :
    ((ts.map Token.plain).takeWhile fun t => !endsCell t) = ts.takeWhile fun t => !endsCell t := by
  induction ts with
  | nil => rfl
  | cons t ts ih =>
    cases ends : endsCell t with
    | true => simp [ends]
    | false => simp [Token.plain_of_not_endsCell ends, ends, ih]

theorem restOfCell_plain (ts : List Token) :
    restOfCell (ts.map Token.plain) = ((restOfCell ts).1, (restOfCell ts).2.map Token.plain) := by
  simp only [restOfCell, map_plain_takeWhile, List.map_drop]

theorem restOfComment_plain (ts : List Token) : restOfComment (ts.map Token.plain) =
    ((restOfComment ts).1.map Token.plain, (restOfComment ts).2.map Token.plain) := by
  have kept : Sequence.dropTrailing Token.isTrivia (ts.map Token.plain) =
      (Sequence.dropTrailing Token.isTrivia ts).map Token.plain :=
    Sequence.dropTrailing_map Token.isTrivia_plain ts
  simp only [restOfComment, kept, List.length_map, List.map_drop]

theorem opensComment_plain {t : Token} (h : t.isTrivia = false) :
    opensComment t.plain = opensComment t := by
  have open_ : endsCell t = false := by
    obtain ⟨kind, text⟩ := t
    cases kind <;> first | rfl | cases h
  rw [Token.plain_of_not_endsCell open_]

theorem ofTokens_plain (ts : List Token) :
    ofTokens (ts.map Token.plain) = (ofTokens ts).map plain := by
  induction ts using ofTokens.induct with
  | case1 => simp [ofTokens]
  | case2 t ts trivia ih =>
    rw [List.map_cons, ofTokens, ofTokens, Token.isTrivia_plain, if_pos trivia, if_pos trivia, ih]
    rfl
  | case3 t ts noTrivia opens =>
    have opens' := (opensComment_plain (Bool.eq_false_iff.2 noTrivia)).trans opens
    rw [List.map_cons, ofTokens, ofTokens, Token.isTrivia_plain, if_neg noTrivia, if_neg noTrivia,
      if_pos opens, if_pos opens', restOfComment_plain]
    simp [plain]
  | case4 t ts noTrivia noComment rest ih =>
    have noTrivia' := Bool.eq_false_iff.2 noTrivia
    have noComment' := (opensComment_plain noTrivia').trans (Bool.eq_false_iff.2 noComment)
    have open_ : t.plain = t := by
      refine Token.plain_of_not_endsCell ?_
      obtain ⟨kind, text⟩ := t
      cases kind <;> first | rfl | cases noTrivia'
    rw [List.map_cons, ofTokens, ofTokens, Token.isTrivia_plain, if_neg noTrivia, if_neg noTrivia,
      if_neg noComment, if_neg (by simp [noComment']), restOfCell_plain, open_]
    exact congrArg (cell (t :: rest.1) :: ·) ih

end Part

theorem splitLines_plain (ts : List Token) :
    splitLines (ts.map Token.plain) = (splitLines ts).map (List.map Token.plain) := by
  induction ts with
  | nil => rfl
  | cons t ts ih =>
    rw [List.map_cons, splitLines, splitLines, Token.kind_plain, ih]
    split
    · rfl
    · cases splitLines ts <;> rfl

namespace Line

def plain (l : Line) : Line := ⟨0, l.parts.map Part.plain⟩

variable (l : Line)

@[simp] theorem parts_plain : l.plain.parts = l.parts.map Part.plain := rfl

@[simp] theorem cells_plain : l.plain.cells = l.cells := by
  simp only [cells, parts_plain, List.filterMap_map, Function.comp_def, Part.cellText?_plain]

@[simp] theorem isBlank_plain : l.plain.isBlank = l.isBlank := by
  rw [isBlank, cells_plain, isBlank]

@[simp] theorem isContinuation_plain : l.plain.isContinuation = l.isContinuation := by
  rw [isContinuation, cells_plain, isContinuation]

@[simp] theorem isIndented_plain : l.plain.isIndented = l.isIndented := by
  rw [isIndented, isIndented, parts_plain]
  cases l.parts with
  | nil => rfl
  | cons p ps => cases p <;> simp [Part.plain]

@[simp] theorem isHeading_plain : l.plain.isHeading = l.isHeading := by
  rw [isHeading, isIndented_plain, cells_plain, isHeading]

theorem outline_bare_plain : l.plain.bare.map Tree.outline = l.bare.map Tree.outline :=
  Part.outline_flatMap_bare_plain l.parts

theorem outline_flatMap_bare_plain (ls : List Line) :
    ((ls.map plain).flatMap bare).map Tree.outline = (ls.flatMap bare).map Tree.outline := by
  rw [List.flatMap_map, List.map_flatMap, List.map_flatMap]
  exact congrArg List.flatten (List.map_congr_left fun l _ => outline_bare_plain l)

theorem splitAfterFirstCell_plain : l.plain.splitAfterFirstCell =
    (l.splitAfterFirstCell.1.map Part.plain, l.splitAfterFirstCell.2.map Part.plain) := by
  have outside : (fun p => !Part.isCell p) ∘ Part.plain = fun p => !p.isCell := by
    funext p
    simp
  simp only [splitAfterFirstCell, parts_plain, List.takeWhile_map, outside, List.length_map,
    List.map_take, List.map_drop]

theorem respaced_tokens_plain (ps : List Part) :
    Text.Respaced (Token.textOf (ps.flatMap Part.tokens))
      (Token.textOf ((ps.map Part.plain).flatMap Part.tokens)) := by
  have tokens (ts : List Token) :
      Text.Respaced (Token.textOf ts) (Token.textOf (ts.map Token.plain)) := by
    induction ts with
    | nil => exact .nil
    | cons t ts ih => exact (Token.respaced_plain t).append ih
  induction ps with
  | nil => exact .nil
  | cons p ps ih =>
    simp only [List.map_cons, List.flatMap_cons, Token.textOf, List.flatMap_append]
    refine Text.Respaced.append ?_ ih
    cases p with
    | gap t => exact tokens [t]
    | cell ts => exact .refl _
    | comment ts => exact tokens ts

theorem respaced_cellsText_plain : Text.Respaced l.cellsText l.plain.cellsText := by
  have outside : (fun p => !Part.isCell p) ∘ Part.plain = fun p => !p.isCell := by
    funext p
    simp
  have inner : Sequence.dropTrailing (fun p => !p.isCell)
        (l.plain.parts.dropWhile fun p => !p.isCell) =
      (Sequence.dropTrailing (fun p => !p.isCell)
        (l.parts.dropWhile fun p => !p.isCell)).map Part.plain := by
    rw [parts_plain, List.dropWhile_map, outside]
    refine Sequence.dropTrailing_map (fun p => ?_) _
    rw [Part.isCell_plain]
  rw [cellsText, cellsText, inner]
  exact respaced_tokens_plain _

end Line

/-- The lines of some tokens in their plainest writing are those of the tokens in theirs. -/
theorem map_plain_linesOf (ts : List Token) : (linesOf ts).map Line.plain =
    (splitLines (ts.map Token.plain)).map fun l => ⟨0, Part.ofTokens l⟩ := by
  have located (offset : Nat) (groups : List (List Token)) :
      (linesOf.locate offset groups).map Line.plain =
        groups.map fun l => ⟨0, Part.ofTokens (l.map Token.plain)⟩ := by
    induction groups generalizing offset with
    | nil => rfl
    | cons l groups ih =>
      rw [linesOf.locate, List.map_cons, List.map_cons, ih, Line.plain, Part.ofTokens_plain]
  rw [linesOf, located, splitLines_plain, List.map_map]
  rfl

namespace Parsed

variable {α β : Type}

/-- What is looked at of a result: a view of its value, and its faults in their order. -/
def outline (view : α → β) (p : Parsed α) : β × List SyntaxFault :=
  (view p.value, p.errors.map SyntaxError.fault)

/-- Consecutive results look alike if each of them does. -/
theorem outline_sequence {γ : Type} {f : γ → Parsed α} {g : γ → γ} {view : α → β}
    (h : ∀ c, (f (g c)).outline view = (f c).outline view) (cs : List γ) :
    (sequence ((cs.map g).map f)).outline (List.map view) =
      (sequence (cs.map f)).outline (List.map view) := by
  induction cs with
  | nil => rfl
  | cons c cs ih =>
    obtain ⟨value, faults⟩ := Prod.mk.inj (h c)
    obtain ⟨values, allFaults⟩ := Prod.mk.inj ih
    simp only [outline, sequence, List.map_cons, List.map_append, value, faults, values, allFaults]

end Parsed

namespace Roles

/-- Roles are given out alike: which trees there are, and how far the roles have been given. -/
theorem assign_plain (r : Roles) (ps : List Part) :
    (r.assign (ps.map Part.plain)).1.map Tree.outline = (r.assign ps).1.map Tree.outline ∧
      (r.assign (ps.map Part.plain)).2 = (r.assign ps).2 := by
  induction ps generalizing r with
  | nil => exact ⟨rfl, rfl⟩
  | cons p ps ih =>
    cases p with
    | gap t =>
      obtain ⟨trees, after⟩ := ih r
      simp [assign, Part.plain, trees, after]
    | cell ts =>
      obtain ⟨trees, after⟩ := ih (r.next (Token.textOf ts)).2
      simp [assign, Part.plain, trees, after]
    | comment ts =>
      obtain ⟨trees, after⟩ := ih r
      have tokens := Tree.map_outline_plain ts
      simp only [assign, Part.plain, List.map_cons, Tree.outline_node, tokens, trees, after,
        and_self]

theorem assignContinuations_plain (r : Roles) (ls : List Line) :
    (r.assignContinuations (ls.map Line.plain)).map Tree.outline =
      (r.assignContinuations ls).map Tree.outline := by
  induction ls generalizing r with
  | nil => rfl
  | cons l ls ih =>
    obtain ⟨trees, after⟩ := r.assign_plain l.splitAfterFirstCell.2
    simp only [List.map_cons, assignContinuations, Line.splitAfterFirstCell_plain, List.map_append,
      Part.outline_flatMap_bare_plain, trees, after, ih]

end Roles

namespace Row

def plain (r : Row) : Row := ⟨r.head.plain, r.continuations.map Line.plain⟩

variable (r : Row)

theorem trees_plain (shape : RowShape) :
    (r.plain.trees shape).map Tree.outline = (r.trees shape).map Tree.outline := by
  obtain ⟨trees, after⟩ := (Roles.start shape).assign_plain r.head.parts
  simp only [Row.trees, plain, Line.parts_plain, List.map_append, trees, after,
    Roles.assignContinuations_plain]

@[simp] theorem name_plain : r.plain.name = r.name := by
  rw [name, plain, Line.cells_plain, name]

@[simp] theorem cellCount_plain : r.plain.cellCount = r.cellCount := by
  simp only [cellCount, plain, List.foldl_map, Line.cells_plain]

@[simp] theorem isContinuation_head_plain :
    r.plain.head.isContinuation = r.head.isContinuation := Line.isContinuation_plain r.head

end Row

namespace RowForm

/-- Whether the form of a row does not depend on how the row is written. -/
def IsUnwritten (form : Row → RowForm) : Prop := ∀ r, form (Row.plain r) = form r

theorem isUnwritten_plain : IsUnwritten fun _ => plain [] := fun _ => rfl

theorem isUnwritten_ofSetting : IsUnwritten ofSetting := by
  intro r
  simp only [ofSetting, Row.name_plain, Row.cellCount_plain, Row.isContinuation_head_plain]

theorem isUnwritten_ofVariable : IsUnwritten ofVariable := by
  intro r
  simp only [ofVariable, Row.name_plain, Row.isContinuation_head_plain]

theorem isUnwritten_ofBody : IsUnwritten ofBody := by
  intro r
  simp only [ofBody, Row.name_plain]

theorem outline_parse_plain {form : Row → RowForm} (h : IsUnwritten form) (r : Row) :
    (parse form r.plain).outline Tree.outline = (parse form r).outline Tree.outline := by
  simp only [Parsed.outline, parse, h r, Tree.outline_node, r.trees_plain, List.map_map]
  rfl

end RowForm

namespace Item

def plain : Item → Item
  | .blank l => .blank l.plain
  | .row r => .row r.plain

theorem ofLines_plain (ls : List Line) :
    ofLines (ls.map Line.plain) = (ofLines ls).map plain := by
  induction ls with
  | nil => rfl
  | cons l ls ih =>
    rw [List.map_cons, ofLines, ofLines, ih, Line.isBlank_plain]
    split
    · rfl
    · cases ofLines ls with
      | nil => rfl
      | cons item items =>
        cases item with
        | blank l' => rfl
        | row r =>
          cases continues : r.head.isContinuation with
          | true => simp [plain, Row.plain, continues]
          | false => simp [plain, Row.plain, continues]

theorem outline_parse_plain {form : Row → RowForm} (h : RowForm.IsUnwritten form) (item : Item) :
    (parse form item.plain).outline (List.map Tree.outline) =
      (parse form item).outline (List.map Tree.outline) := by
  cases item with
  | blank l => exact congrArg (·, []) (Line.outline_bare_plain l)
  | row r =>
    obtain ⟨value, faults⟩ := Prod.mk.inj (RowForm.outline_parse_plain h r)
    simp only [Parsed.outline, plain, parse, List.map_cons, value, faults]

theorem outline_parseAll_plain {form : Row → RowForm} (h : RowForm.IsUnwritten form)
    (ls : List Line) :
    (parseAll form (ofLines (ls.map Line.plain))).outline (List.map Tree.outline) =
      (parseAll form (ofLines ls)).outline (List.map Tree.outline) := by
  obtain ⟨values, faults⟩ :=
    Prod.mk.inj (Parsed.outline_sequence (outline_parse_plain h) (ofLines ls))
  rw [ofLines_plain]
  simp only [Parsed.outline, parseAll, List.map_flatten, values, faults]

end Item

namespace Definition

def plain (d : Definition) : Definition := ⟨d.first.plain, d.body.map Line.plain⟩

theorem ofLines_plain (ls : List Line) :
    ofLines (ls.map Line.plain) = ((ofLines ls).1.map Line.plain, (ofLines ls).2.map plain) := by
  have sameBlank : Line.isBlank ∘ Line.plain = Line.isBlank := funext Line.isBlank_plain
  have sameBegins (l : Line) : begins l.plain = begins l := by simp [begins]
  rw [ofLines, ofLines, List.dropWhile_map, List.takeWhile_map, sameBlank]
  cases ls.dropWhile Line.isBlank with
  | nil => rfl
  | cons first rest =>
    have groups := Sequence.groupAt_map sameBegins rest
    simp only [List.map_cons, groups, List.map_map]
    rfl

theorem outline_nameLine_plain (l : Line) :
    (nameLine l.plain).map Tree.outline = (nameLine l).map Tree.outline := by
  have outside : (fun p => !Part.isCell p) ∘ Part.plain = fun p => !p.isCell := by
    funext p
    simp
  rw [nameLine, nameLine, Line.parts_plain]
  cases l.parts with
  | nil => rfl
  | cons p rest =>
    cases p with
    | gap t => exact Part.outline_flatMap_bare_plain (.gap t :: rest)
    | comment ts => exact Part.outline_flatMap_bare_plain (.comment ts :: rest)
    | cell name =>
      have first (row : List Part) : ((row.map Part.plain).head? >>= Part.cellText?) =
          (row.head? >>= Part.cellText?) := by
        cases row with
        | nil => rfl
        | cons p row => exact Part.cellText?_plain p
      simp only [List.map_cons, Part.plain, List.takeWhile_map, List.dropWhile_map, outside, first]
      cases (rest.dropWhile fun p => !p.isCell).head? >>= Part.cellText? with
      | none => simp only [List.map_cons, Part.outline_flatMap_bare_plain]
      | some cell =>
        obtain ⟨trees, -⟩ := (Roles.start (RowForm.shapeInBody cell).2).assign_plain
          (rest.dropWhile fun p => !p.isCell)
        simp only [List.map_cons, List.map_append, Part.outline_flatMap_bare_plain,
          Tree.outline_node, trees]

theorem outline_parse_plain (kind : NodeKind) (d : Definition) :
    (parse kind d.plain).outline Tree.outline = (parse kind d).outline Tree.outline := by
  have first : d.plain.first = d.first.plain := rfl
  have body : d.plain.body = d.body.map Line.plain := rfl
  rw [parse, parse, first, body, Line.isIndented_plain]
  split
  · obtain ⟨values, faults⟩ :=
      Prod.mk.inj (Item.outline_parseAll_plain RowForm.isUnwritten_ofBody (d.first :: d.body))
    rw [List.map_cons] at values faults
    simp only [Parsed.outline, Tree.outline_node, List.map_cons, values, faults]
  · obtain ⟨values, faults⟩ :=
      Prod.mk.inj (Item.outline_parseAll_plain RowForm.isUnwritten_ofBody d.body)
    simp only [Parsed.outline, Tree.outline_node, List.map_append, outline_nameLine_plain, values,
      faults]

theorem outline_parseAll_plain (kind : NodeKind) (ls : List Line) :
    (parseAll kind (ls.map Line.plain)).outline (List.map Tree.outline) =
      (parseAll kind ls).outline (List.map Tree.outline) := by
  obtain ⟨values, faults⟩ :=
    Prod.mk.inj (Parsed.outline_sequence (outline_parse_plain kind) (ofLines ls).2)
  rw [parseAll, parseAll, ofLines_plain]
  simp only [Parsed.outline, List.map_append, Line.outline_flatMap_bare_plain, values, faults]

end Definition

namespace SectionLines

def plain (s : SectionLines) : SectionLines := ⟨s.heading.plain, s.body.map Line.plain⟩

variable (s : SectionLines)

@[simp] theorem kind_plain : s.plain.kind = s.kind :=
  (HeadingKind.ofText_respaced s.heading.respaced_cellsText_plain).symm

theorem outline_parseBody_plain : s.plain.parseBody.outline (List.map Tree.outline) =
    s.parseBody.outline (List.map Tree.outline) := by
  have body : s.plain.body = s.body.map Line.plain := rfl
  rw [parseBody, parseBody, kind_plain, body]
  cases s.kind with
  | settings => exact Item.outline_parseAll_plain RowForm.isUnwritten_ofSetting _
  | variableTable => exact Item.outline_parseAll_plain RowForm.isUnwritten_ofVariable _
  | testCases | tasks => exact Definition.outline_parseAll_plain .testCase _
  | keywords => exact Definition.outline_parseAll_plain .userKeyword _
  | comments | unknown => exact Item.outline_parseAll_plain RowForm.isUnwritten_plain _

theorem outline_parse_plain :
    s.plain.parse.outline Tree.outline = s.parse.outline Tree.outline := by
  obtain ⟨values, faults⟩ := Prod.mk.inj s.outline_parseBody_plain
  have heading : s.plain.heading = s.heading.plain := rfl
  rw [parse, parse, kind_plain, heading]
  simp only [Parsed.outline, Tree.outline_node, List.map_cons, List.map_append, values, faults,
    Line.outline_bare_plain]
  split <;> rfl

end SectionLines

/-- Lines that are made plain are parsed to the same trees, up to the texts of separators and line
breaks, and with the same faults. -/
theorem outline_parseLines_plain (ls : List Line) :
    (parseLines (ls.map Line.plain)).outline Tree.outline =
      (parseLines ls).outline Tree.outline := by
  have groups := Sequence.groupAt_map Line.isHeading_plain ls
  let section_ (g : Line × List Line) : Parsed Tree := SectionLines.parse ⟨g.1, g.2⟩
  let plain (g : Line × List Line) : Line × List Line := (g.1.plain, g.2.map Line.plain)
  have sections (g : Line × List Line) :
      (section_ (plain g)).outline Tree.outline = (section_ g).outline Tree.outline :=
    SectionLines.outline_parse_plain ⟨g.1, g.2⟩
  have preamble (before : List Line) : (preambleTrees (before.map Line.plain)).map Tree.outline =
      (preambleTrees before).map Tree.outline := by
    cases before with
    | nil => rfl
    | cons l before =>
      have bare := Line.outline_flatMap_bare_plain (l :: before)
      simpa [preambleTrees] using bare
  have all := Parsed.outline_sequence sections (Sequence.groupAt Line.isHeading ls).2
  obtain ⟨values, faults⟩ := Prod.mk.inj all
  simp only [section_, plain] at values faults
  simp only [Parsed.outline, parseLines, groups, Tree.outline_node, List.map_append, preamble,
    values, faults]

end RobotAnalysis
