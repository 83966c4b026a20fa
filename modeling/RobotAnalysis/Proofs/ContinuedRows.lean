import RobotAnalysis.Proofs.CommentedImport
import RobotAnalysis.Proofs.DocumentRows

/-!
# Cells on a line or behind its continuation mark

The cells of a continuation line may as well be written at the end of the line before it: the rows
of the document stay what they are, with the same cells in the same roles. Only a line that names a
definition takes nothing from the line behind it. The row that stands behind the name has the cells
of that line and no others, and what continues it becomes a row without cells.
-/
namespace RobotAnalysis

namespace CellLine

variable {l m l' : CellLine} {rest : List CellLine}

/-- Whether a line has taken over the cells of the continuation line behind it, of which only marks
are left. -/
structure Takes (l m l' : CellLine) (rest : List CellLine) : Prop where
  filled : l.cells ≠ []
  continues : m.isContinuation = true
  cells : l'.cells = l.cells ++ m.cells.tail
  indented : l'.indented = l.indented
  marks : ∀ k ∈ rest, k.cells = [Line.continuationMark]

/-- Cells may be attached all at once or one part after the other. -/
theorem attach_attach {cells : List Text} (h : cells ≠ []) (values : List Text)
    (rows : List (List Text)) :
    attach cells (attach (Line.continuationMark :: values) rows) =
      attach (cells ++ values) rows := by
  by_cases first : ∀ row ∈ rows.head?, row.head? ≠ some Line.continuationMark
  · rw [attach_of_head? first, attach_mark h, attach_of_head? first]
  · push Not at first
    obtain ⟨row, hrow, mark⟩ := first
    obtain ⟨more, rfl⟩ := List.head?_eq_some_iff.1 hrow
    obtain ⟨others, rfl⟩ := List.head?_eq_some_iff.1 mark
    rw [attach_mark (List.cons_ne_nil _ _), List.cons_append, attach_mark h,
      attach_mark (List.append_ne_nil_of_left_ne_nil h _), List.append_assoc]

theorem isContinuation_iff : l.isContinuation = true ↔
    l.cells = Line.continuationMark :: l.cells.tail := by
  rw [isContinuation, beq_iff_eq, List.head?_eq_some_iff]
  constructor
  · rintro ⟨values, cells⟩
    rw [cells, List.tail_cons]
  · exact fun cells => ⟨_, cells⟩

theorem begins_of_isContinuation (h : l.isContinuation = true) : l.begins = false := by
  rw [begins, h, Bool.not_true, Bool.and_false]

theorem isContinuation_of_mark (h : l.cells = [Line.continuationMark]) :
    l.isContinuation = true := isContinuation_iff.2 (by rw [h, List.tail_cons])

namespace Takes

variable (taken : Takes l m l' rest)

include taken

theorem isBlank_eq : l.isBlank = false ∧ l'.isBlank = false := by
  rw [isBlank, isBlank, taken.cells, List.isEmpty_eq_false_iff, List.isEmpty_eq_false_iff]
  exact ⟨taken.filled, List.append_ne_nil_of_left_ne_nil taken.filled _⟩

theorem begins_eq : l'.begins = l.begins := by
  obtain ⟨cell, cells, filled⟩ := List.exists_cons_of_ne_nil taken.filled
  obtain ⟨before, after⟩ := taken.isBlank_eq
  rw [begins, begins, before, after, taken.indented, isContinuation, isContinuation, taken.cells,
    filled]
  rfl

/-- The rows are the same. -/
theorem rows_eq (back : List CellLine) : rows (l :: m :: back) = rows (l' :: (rest ++ back)) := by
  have some := taken.filled
  have mark := isContinuation_iff.1 taken.continues
  have some' : l'.cells ≠ [] := by
    rw [taken.cells]
    exact List.append_ne_nil_of_left_ne_nil some _
  have marks : ∀ {rest : List CellLine}, (∀ k ∈ rest, k.cells = [Line.continuationMark]) →
      attach l'.cells (rows (rest ++ back)) = attach l'.cells (rows back) := by
    intro rest h
    induction rest with
    | nil => rfl
    | cons k rest ih =>
      obtain ⟨first, others⟩ := List.forall_mem_cons.1 h
      rw [List.cons_append, rows_cons, first, attach_attach some', List.append_nil, ih others]
  rw [rows_cons, rows_cons, mark, attach_attach some, rows_cons, marks taken.marks, taken.cells]

theorem rows_append_eq (front back : List CellLine) :
    rows (front ++ l :: m :: back) = rows (front ++ l' :: (rest ++ back)) := by
  induction front with
  | nil => exact taken.rows_eq back
  | cons k front ih => rw [List.cons_append, List.cons_append, rows_cons, rows_cons, ih]

/-- Behind other lines, and where definitions are grouped, too. -/
theorem groupAt_eq (noName : l.begins = false) (front back : List CellLine) :
    rows (Sequence.groupAt begins (front ++ l :: m :: back)).1 =
        rows (Sequence.groupAt begins (front ++ l' :: (rest ++ back))).1 ∧
      groupRows (Sequence.groupAt begins (front ++ l :: m :: back)).2 =
        groupRows (Sequence.groupAt begins (front ++ l' :: (rest ++ back))).2 := by
  induction front with
  | nil =>
    have before : ∀ k ∈ [l, m], k.begins = false := by
      simp [noName, begins_of_isContinuation taken.continues]
    have after : ∀ k ∈ l' :: rest, k.begins = false :=
      List.forall_mem_cons.2 ⟨taken.begins_eq.trans noName, fun k hk =>
        begins_of_isContinuation (isContinuation_of_mark (taken.marks k hk))⟩
    have old := Sequence.groupAt_append_of_outside before back
    have new := Sequence.groupAt_append_of_outside after back
    simp only [List.cons_append, List.nil_append] at old new ⊢
    rw [old, new]
    exact ⟨taken.rows_eq _, rfl⟩
  | cons k front ih =>
    rw [List.cons_append, List.cons_append]
    cases first : k.begins with
    | true =>
      rw [Sequence.groupAt_cons_of_pos first, Sequence.groupAt_cons_of_pos first, groupRows,
        groupRows, List.flatMap_cons, List.flatMap_cons, ih.1]
      exact ⟨rfl, congrArg _ ih.2⟩
    | false =>
      rw [Sequence.groupAt_cons_of_neg first, Sequence.groupAt_cons_of_neg first, rows_cons,
        rows_cons, ih.1]
      exact ⟨rfl, ih.2⟩

end Takes

theorem bodyRows_cons_of_blank (h : l.isBlank = true) (ls : List CellLine) :
    bodyRows (l :: ls) = bodyRows ls := by
  rw [bodyRows, bodyRows, List.dropWhile_cons_of_pos h]

/-- The first line that is not blank begins a definition. -/
theorem bodyRows_cons_of_filled (h : l.isBlank = false) (ls : List CellLine) :
    bodyRows (l :: ls) = definitionRows l (rows (Sequence.groupAt begins ls).1) ++
      groupRows (Sequence.groupAt begins ls).2 := by
  rw [bodyRows, List.dropWhile_cons_of_neg (by simp [h])]

/-- Whether a line behind some others, with which a section begins, names a definition: it is the
first one that is not blank or ends what is in front of it, and it is not indented. -/
def IsName (front : List CellLine) (l : CellLine) : Prop :=
  l.indented = false ∧ (l.begins = true ∨ ∀ k ∈ front, k.isBlank = true)

/-- A line that names no definition can take over the cells of its continuation line. -/
theorem Takes.bodyRows_eq (taken : Takes l m l' rest) {front : List CellLine}
    (noName : ¬ IsName front l) (back : List CellLine) :
    bodyRows (front ++ l :: m :: back) = bodyRows (front ++ l' :: (rest ++ back)) := by
  have inside : l.begins = false := by
    by_contra begins
    rw [Bool.not_eq_false] at begins
    have outside : l.indented = false := by
      rw [CellLine.begins, Bool.and_eq_true, Bool.and_eq_true] at begins
      simpa using begins.1.2
    exact noName ⟨outside, .inl begins⟩
  obtain ⟨filled, filled'⟩ := taken.isBlank_eq
  induction front with
  | nil =>
    have indented : l.indented = true := by
      by_contra outside
      exact noName ⟨Bool.eq_false_iff.2 outside, .inr nofun⟩
    have alone := taken.groupAt_eq inside [] back
    rw [List.nil_append, List.nil_append, Sequence.groupAt_cons_of_neg inside,
      Sequence.groupAt_cons_of_neg (taken.begins_eq.trans inside)] at alone
    rw [List.nil_append, List.nil_append, bodyRows_cons_of_filled filled,
      bodyRows_cons_of_filled filled', definitionRows, definitionRows, taken.indented,
      if_pos indented, if_pos indented, ← rows_cons, ← rows_cons, alone.1, alone.2]
  | cons k front ih =>
    rw [List.cons_append, List.cons_append]
    cases blank : k.isBlank with
    | true =>
      rw [bodyRows_cons_of_blank blank, bodyRows_cons_of_blank blank]
      exact ih fun name => noName ⟨name.1, name.2.imp_right fun all =>
        List.forall_mem_cons.2 ⟨blank, all⟩⟩
    | false =>
      obtain ⟨rows, groups⟩ := taken.groupAt_eq inside front back
      rw [bodyRows_cons_of_filled blank, bodyRows_cons_of_filled blank, rows, groups]

/-- The cells behind a name are a row that does not go on, whatever stands behind their line. -/
theorem IsName.exists_bodyRows {front : List CellLine} (name : IsName front l)
    (filled : l.isBlank = false) (back : List CellLine) :
    ∃ later, bodyRows (front ++ l :: back) = bodyRows front ++ l.cells.tail :: later := by
  have alone (body : List (List Text)) : definitionRows l body = l.cells.tail :: body := by
    rw [definitionRows, name.1, if_neg Bool.false_ne_true]
  induction front with
  | nil =>
    rw [List.nil_append, bodyRows_cons_of_filled filled, alone]
    exact ⟨_, rfl⟩
  | cons k front ih =>
    rw [List.cons_append]
    cases blank : k.isBlank with
    | true =>
      rw [bodyRows_cons_of_blank blank, bodyRows_cons_of_blank blank]
      exact ih ⟨name.1, name.2.imp_right fun all => (List.forall_mem_cons.1 all).2⟩
    | false =>
      have begins : l.begins = true := name.2.resolve_right fun all => by
        rw [(List.forall_mem_cons.1 all).1] at blank
        cases blank
      have first : ∀ b ∈ (l :: back).head?, b.begins = true := by
        rintro _ ⟨⟩
        exact begins
      rw [bodyRows_cons_of_filled blank, bodyRows_cons_of_filled blank,
        Sequence.groupAt_append first, Sequence.groupAt_cons_of_pos begins, groupRows, groupRows,
        List.flatMap_append, List.flatMap_cons, alone, List.cons_append, ← List.append_assoc]
      exact ⟨_, rfl⟩

end CellLine

theorem HeadingKind.form_of_holdsBodies {kind : HeadingKind} (h : kind.holdsBodies = true) :
    kind.form = RowForm.ofBody := by
  cases kind <;> first | rfl | cases h

/-- Whether a line has taken over the cells of the continuation line behind it, of which only marks
are left. -/
structure Line.Takes (l m l' : Line) (rest : List Line) : Prop where
  filled : l.isBlank = false
  continues : m.isContinuation = true
  cells : l'.cells = l.cells ++ m.cells.tail
  indented : l'.isIndented = l.isIndented
  marks : ∀ k ∈ rest, k.cells = [Line.continuationMark]

namespace Line.Takes

variable {l m l' : Line} {rest : List Line} (taken : Takes l m l' rest)

include taken

theorem cellLine : CellLine.Takes l.cellLine m.cellLine l'.cellLine (rest.map Line.cellLine) where
  filled := List.isEmpty_eq_false_iff.1 taken.filled
  continues := taken.continues
  cells := taken.cells
  indented := taken.indented
  marks := by simpa using taken.marks

/-- None of the lines is a heading. -/
theorem isHeading_eq_false (noHeading : l.isHeading = false) :
    (∀ k ∈ [l, m], k.isHeading = false) ∧ ∀ k ∈ l' :: rest, k.isHeading = false := by
  have continued {k : Line} (h : k.isContinuation = true) : k.isHeading = false := by
    by_contra heading
    rw [isContinuation_of_isHeading (by simpa using heading)] at h
    cases h
  obtain ⟨cell, cells, some⟩ := List.exists_cons_of_ne_nil
    (List.isEmpty_eq_false_iff.1 taken.filled)
  have same : l'.isHeading = l.isHeading := by
    rw [isHeading, isHeading, taken.indented, taken.cells, some]
    rfl
  have marks : ∀ k ∈ rest, k.isContinuation = true := by
    intro k hk
    rw [isContinuation, taken.marks k hk]
    rfl
  simpa [noHeading, same, continued taken.continues] using fun k hk => continued (marks k hk)

end Line.Takes

/-- Whether a line is the first one of a definition in the last one of some sections, and not
indented. -/
def IsNameBehind (front : List Line) (l : Line) : Prop :=
  ∃ outer h inner, front = outer ++ h :: inner ∧ h.isHeading = true ∧
    (∀ k ∈ inner, k.isHeading = false) ∧ (HeadingKind.ofText h.cellsText).holdsBodies = true ∧
      CellLine.IsName (inner.map Line.cellLine) l.cellLine

/-- A line that names no definition can take over the cells of its continuation line. -/
theorem rowsOfLines_of_takes {l m l' : Line} {front rest : List Line}
    (taken : Line.Takes l m l' rest) (noHeading : l.isHeading = false)
    (noName : ¬ IsNameBehind front l) (back : List Line) :
    rowsOfLines (front ++ l :: m :: back) = rowsOfLines (front ++ l' :: (rest ++ back)) := by
  obtain ⟨before, after⟩ := taken.isHeading_eq_false noHeading
  have old := Sequence.groupAt_append_of_outside before back
  have new := Sequence.groupAt_append_of_outside after back
  simp only [List.cons_append, List.nil_append] at old new
  rcases Sequence.exists_last_or_forall Line.isHeading front with
    outside | ⟨outer, h, inner, rfl, heading, below⟩
  · rw [rowsOfLines, rowsOfLines, Sequence.groupAt_append_of_outside outside,
      Sequence.groupAt_append_of_outside outside, old, new]
  · have same (back : List Line) : SectionLines.rows ⟨h, inner ++ l :: m :: back⟩ =
        SectionLines.rows ⟨h, inner ++ l' :: (rest ++ back)⟩ := by
      have kind (body : List Line) :
          SectionLines.kind ⟨h, body⟩ = HeadingKind.ofText h.cellsText := rfl
      simp only [SectionLines.rows, SectionLines.cellRows, kind, List.map_append, List.map_cons]
      by_cases bodies : (HeadingKind.ofText h.cellsText).holdsBodies = true
      · have noName : ¬ CellLine.IsName (inner.map Line.cellLine) l.cellLine := fun name =>
          noName ⟨outer, h, inner, rfl, heading, below, bodies, name⟩
        rw [if_pos bodies, if_pos bodies, taken.cellLine.bodyRows_eq noName]
      · rw [if_neg bodies, if_neg bodies, taken.cellLine.rows_append_eq]
    rw [List.append_assoc, List.cons_append, rowsOfLines_append_cons heading below, old, same,
      List.append_assoc, List.cons_append, rowsOfLines_append_cons heading below, new]

/-- The cells behind the name of a definition are a row that does not go on. -/
theorem exists_rowsOfLines_of_isName {inner : List Line} {h l : Line}
    (heading : h.isHeading = true) (below : ∀ k ∈ inner, k.isHeading = false)
    (bodies : (HeadingKind.ofText h.cellsText).holdsBodies = true)
    (name : CellLine.IsName (inner.map Line.cellLine) l.cellLine) (filled : l.isBlank = false)
    (noHeading : l.isHeading = false) (outer back : List Line) :
    ∃ later, rowsOfLines ((outer ++ h :: inner) ++ l :: back) =
      (rowsOfLines outer ++ (CellLine.bodyRows (inner.map Line.cellLine)).flatMap
        (TreeRow.ofCells RowForm.ofBody)) ++
          (TreeRow.ofCells RowForm.ofBody l.cells.tail ++ later) := by
  have rows (back : List Line) : ∃ later, SectionLines.rows ⟨h, inner ++ l :: back⟩ =
      (CellLine.bodyRows (inner.map Line.cellLine)).flatMap (TreeRow.ofCells RowForm.ofBody) ++
        (TreeRow.ofCells RowForm.ofBody l.cells.tail ++ later) := by
    have kind : SectionLines.kind ⟨h, inner ++ l :: back⟩ = HeadingKind.ofText h.cellsText := rfl
    obtain ⟨later, cells⟩ := name.exists_bodyRows filled (back.map Line.cellLine)
    rw [SectionLines.rows, SectionLines.cellRows, kind, if_pos bodies,
      HeadingKind.form_of_holdsBodies bodies, List.map_append, List.map_cons, cells,
      List.flatMap_append, List.flatMap_cons]
    exact ⟨_, rfl⟩
  obtain ⟨later, body⟩ := rows (Sequence.groupAt Line.isHeading back).1
  rw [List.append_assoc, List.cons_append, rowsOfLines_append_cons heading below,
    Sequence.groupAt_cons_of_neg noHeading, body]
  simp only [List.append_assoc]
  exact ⟨_, rfl⟩

/-- Whether a line of a text names a definition: one begins with the line, which is not indented. -/
def NamesDefinition (text : Text) (l : Line) : Prop :=
  l.isIndented = false ∧
    ∃ n ∈ (parse text).value.allNodes, n.kind.isDefinition = true ∧ n.start = l.start

namespace Definition

theorem ofLines_cons_of_blank {l : Line} (h : l.isBlank = true) (ls : List Line) :
    (ofLines (l :: ls)).2 = (ofLines ls).2 := by
  rw [ofLines, ofLines, List.dropWhile_cons_of_pos h]
  cases ls.dropWhile Line.isBlank <;> rfl

theorem ofLines_cons_of_filled {l : Line} (h : l.isBlank = false) (ls : List Line) :
    (ofLines (l :: ls)).2 = ⟨l, (Sequence.groupAt begins ls).1⟩ ::
      (Sequence.groupAt begins ls).2.map fun d => ⟨d.1, d.2⟩ := by
  rw [ofLines, List.dropWhile_cons_of_neg (by simp [h])]

/-- A name begins a definition. -/
theorem exists_mem_ofLines_of_isName {front : List Line} {l : Line}
    (name : CellLine.IsName (front.map Line.cellLine) l.cellLine) (filled : l.isBlank = false)
    (back : List Line) : ∃ d ∈ (ofLines (front ++ l :: back)).2, d.first = l := by
  induction front with
  | nil =>
    rw [List.nil_append, ofLines_cons_of_filled filled]
    exact ⟨_, List.mem_cons_self, rfl⟩
  | cons k front ih =>
    rw [List.cons_append]
    cases blank : k.isBlank with
    | true =>
      rw [ofLines_cons_of_blank blank]
      exact ih ⟨name.1, name.2.imp_right fun all => (List.forall_mem_cons.1 all).2⟩
    | false =>
      have begins : begins l = true := name.2.resolve_right fun all => by
        have first : k.isBlank = true := (List.forall_mem_cons.1 all).1
        rw [blank] at first
        cases first
      have first : ∀ b ∈ (l :: back).head?, Definition.begins b = true := by
        rintro _ ⟨⟩
        exact begins
      rw [ofLines_cons_of_filled blank, Sequence.groupAt_append first,
        Sequence.groupAt_cons_of_pos begins]
      exact ⟨⟨l, (Sequence.groupAt Definition.begins back).1⟩, by simp, rfl⟩

end Definition

namespace Node

variable {text : Text} {s : SectionLines} {d : Definition}

/-- Every definition of a section has a node in the tree, which begins where its first line does. -/
theorem exists_of_mem_definitions (hs : s ∈ SectionLines.ofText text)
    (bodies : s.kind.holdsBodies = true) (hd : d ∈ (Definition.ofLines s.body).2) :
    ∃ n ∈ (parse text).value.allNodes, n.kind.isDefinition = true ∧ n.start = d.first.start := by
  obtain ⟨earlier, later, sections⟩ := List.append_of_mem hs
  obtain ⟨before, behind, definitions⟩ := List.append_of_mem hd
  obtain ⟨kind, isDefinition, body⟩ := value_parseBody_of_holdsBodies bodies
  obtain ⟨children, tree, -⟩ := Definition.exists_parse kind d
  let outer := SectionLines.linesBefore text ++ earlier.flatMap SectionLines.lines
  let inner := s.heading :: ((Definition.ofLines s.body).1 ++ before.flatMap Definition.lines)
  let front := Tree.node .heading s.heading.bare ::
    ((Definition.ofLines s.body).1.flatMap Line.bare ++
      before.map fun d => (Definition.parse kind d).value)
  let sec := ofSectionLines (Token.sizeOf (outer.flatMap Line.tokens)) s
  have isSection : sec ∈ (parse text).value.root.sections := by
    rw [sections_root sections rfl]
    exact List.mem_append_right _ List.mem_cons_self
  let n : Node := ⟨sec.start + Token.sizeOf (Tree.leavesOf front), kind, children⟩
  have inSection : n ∈ sec.nodes := by
    have split : sec.children = front ++ .node kind children ::
        behind.map fun d => (Definition.parse kind d).value := by
      simp only [sec, ofSectionLines, body, definitions, List.map_append, List.map_cons, tree,
        front, List.cons_append, List.append_assoc]
    rw [nodes, split, Tree.nodesFrom_append, Tree.nodesFrom]
    exact List.mem_append_right _ List.mem_cons_self
  refine ⟨n, mem_allNodes_of_mem_nodes (mem_allNodes_of_mem_sections isSection) inSection,
    isDefinition, ?_⟩
  have whole : linesOf (tokenize text) = (outer ++ inner) ++
      d.first :: (d.body ++ behind.flatMap Definition.lines ++
        later.flatMap SectionLines.lines) := by
    rw [← SectionLines.flatten_ofText, sections]
    simp only [List.flatMap_append, List.flatMap_cons, SectionLines.lines]
    rw [← Definition.ofLines_flatten s.body, definitions]
    simp [outer, inner, Definition.lines]
  have size : Token.sizeOf (Tree.leavesOf front) = Token.sizeOf (inner.flatMap Line.tokens) := by
    simp only [front, inner, Tree.leavesOf, Tree.leaves, Line.leavesOf_bare, Tree.leavesOf_append,
      Line.leavesOf_flatMap_bare, Tree.leavesOf_map (Definition.leaves_parse kind),
      List.flatMap_cons, List.flatMap_append, List.flatMap_assoc]
  rw [start_of_linesOf whole, List.flatMap_append, Token.sizeOf_append, ← size]
  rfl

end Node

namespace Roles

theorem shape_next (r : Roles) (cell : Text) : (r.next cell).2.shape = r.shape := by
  obtain ⟨shape, index, called, inLoopVariables⟩ := r
  cases shape with
  | bracket fixture arguments =>
    cases arguments with
    | true => rfl
    | false =>
      simp only [next, afterName]
      split_ifs <;> rfl
  | setting | call | control =>
    simp only [next, afterName, ofCall, ofControl]
    split_ifs <;> rfl
  | importing | variableRow | other => rfl

theorem shape_after (r : Roles) (cells : List Text) : (r.after cells).shape = r.shape := by
  induction cells generalizing r with
  | nil => rfl
  | cons cell cells ih => exact (ih _).trans (r.shape_next cell)

/-- Where a row is interpreted, its cells play roles. -/
theorem exists_role_next {r : Roles} (h : r.shape ≠ .other) (cell : Text) :
    ∃ kind, (r.next cell).1 = some kind := by
  obtain ⟨shape, index, called, inLoopVariables⟩ := r
  cases shape with
  | other => exact absurd rfl h
  | bracket fixture arguments => cases arguments <;> exact ⟨_, rfl⟩
  | setting | importing | variableRow | call | control => exact ⟨_, rfl⟩

theorem map_snd_given {r : Roles} (h : r.shape ≠ .other) (cells : List Text) :
    (r.given cells).map Prod.snd = cells := by
  induction cells generalizing r with
  | nil => rfl
  | cons cell cells ih =>
    obtain ⟨kind, role⟩ := exists_role_next h cell
    rw [given, role, List.map_append, ih ((r.shape_next cell).trans_ne h)]
    rfl

end Roles

namespace NamesDefinition

variable {text : Text} {front back : List Line} {l : Line}

/-- The first line of a definition of a section stands behind blank lines, or begins a definition
wherever it stands. -/
theorem isName_of_mem {s : SectionLines} (hs : s ∈ SectionLines.ofText text) {d : Definition}
    (hd : d ∈ (Definition.ofLines s.body).2) {outer inner : List Line}
    (lines : linesOf (tokenize text) = (outer ++ s.heading :: inner) ++ d.first :: back)
    {behind : List Line} (own : linesOf (tokenize text) = outer ++ (s.lines ++ behind))
    (outside : d.first.isIndented = false) :
    CellLine.IsName (inner.map Line.cellLine) d.first.cellLine := by
  obtain ⟨blanks, -, begins⟩ :=
    Definition.ofLines_spec (SectionLines.isHeading_of_mem_ofText hs).2
  refine ⟨outside, ?_⟩
  have whole := Definition.ofLines_flatten s.body
  generalize (Definition.ofLines s.body).1 = front at blanks whole
  cases definitions : (Definition.ofLines s.body).2 with
  | nil =>
    rw [definitions] at hd
    cases hd
  | cons first more =>
    rw [definitions] at hd begins whole
    rcases List.mem_cons.1 hd with rfl | later
    · -- The first definition stands where the blank lines end.
      have lines' : linesOf (tokenize text) =
          (outer ++ s.heading :: front) ++ d.first ::
            (d.body ++ more.flatMap Definition.lines ++ behind) := by
        rw [own, SectionLines.lines, ← whole]
        simp [Definition.lines]
      have inner_eq : inner = front := by simpa using (eq_of_start_eq lines lines' rfl).1
      refine .inr (List.forall_mem_map.2 fun k hk => ?_)
      exact blanks k (inner_eq ▸ hk)
    · exact .inl (begins d later)

/-- Which lines name definitions can be told from the lines in front of them. -/
theorem iff_isNameBehind (lines : linesOf (tokenize text) = front ++ l :: back)
    (filled : l.isBlank = false) (noHeading : l.isHeading = false) :
    NamesDefinition text l ↔ IsNameBehind front l := by
  constructor
  · rintro ⟨outside, n, hn, isDefinition, start⟩
    obtain ⟨-, -, sec, hsec, -, below⟩ := Node.exists_section_above hn (.inr (.inl isDefinition))
    obtain ⟨outer, s, hs, behind, own, tree, before⟩ := Node.exists_lines_before_section hsec
    obtain ⟨done, d, hd, rest, split, some, -, place⟩ :=
      Node.exists_lines_before_definition tree below isDefinition
    obtain ⟨first, inner, rfl⟩ := List.exists_cons_of_ne_nil some
    obtain ⟨rfl, body⟩ := List.cons.inj split
    have whole : linesOf (tokenize text) = (outer ++ s.heading :: inner) ++
        d.first :: (d.body ++ rest ++ behind) := by
      simp only [own, split, Definition.lines, List.append_assoc, List.cons_append]
    have here : l.start = d.first.start := by
      rw [start_of_linesOf whole, ← start, place, before, List.flatMap_append, Token.sizeOf_append]
    obtain ⟨rfl, rfl⟩ := eq_of_start_eq lines whole here
    obtain ⟨heading, inside⟩ := SectionLines.isHeading_of_mem_ofText hs
    refine ⟨outer, s.heading, inner, rfl, heading, fun k hk => inside k ?_,
      (Node.mem_nodes_of_isDefinition tree below isDefinition).1, ?_⟩
    · rw [body]
      exact List.mem_append_left _ hk
    · exact isName_of_mem hs hd lines own outside
  · rintro ⟨outer, h, inner, rfl, heading, below, bodies, name⟩
    let s : SectionLines := ⟨h, inner ++ l :: (Sequence.groupAt Line.isHeading back).1⟩
    have hs : s ∈ SectionLines.ofText text := by
      rw [SectionLines.ofText, lines, List.append_assoc, List.cons_append,
        Sequence.groupAt_append_cons heading below, Sequence.groupAt_cons_of_neg noHeading]
      simp [s]
    obtain ⟨d, hd, rfl⟩ := Definition.exists_mem_ofLines_of_isName name filled
      (Sequence.groupAt Line.isHeading back).1
    exact ⟨name.1, Node.exists_of_mem_definitions hs bodies hd⟩

end NamesDefinition

/-- Whether the cells of a continuation line have been moved to the end of the line before it, and
the other lines are what they were. Of the continuation line its mark may be left. -/
def MovesCells (text text' : Text) (l m : Line) : Prop :=
  ∃ front back l' rest, linesOf (tokenize text) = front ++ l :: m :: back ∧
    (linesOf (tokenize text')).map Line.parts =
      (front ++ l' :: (rest ++ back)).map Line.parts ∧ l.Takes m l' rest

/-- Cells that are moved from a continuation line to the line before it leave the rows of a document
as they are, unless that line names a definition. In that case the row behind the name gets them
only now: on the continuation line they belonged to no row. -/
theorem rows_of_movesCells {text text' : Text} {l m : Line} (moved : MovesCells text text' l m)
    (noHeading : l.isHeading = false) :
    (¬ NamesDefinition text l → (parse text').value.rows = (parse text).value.rows) ∧
      (NamesDefinition text l → ∀ {name call : Text} {values : List Text},
        l.cells = name :: call :: values → call ≠ Line.continuationMark →
          ∃ earlier later later' kind cells others,
            (parse text).value.rows = earlier ++ ⟨kind, cells⟩ :: later ∧
              (parse text').value.rows = earlier ++ ⟨kind, cells ++ others⟩ :: later' ∧
              cells.map Prod.snd = call :: values ∧ others.map Prod.snd = m.cells.tail) := by
  obtain ⟨front, back, l', rest, lines, lines', taken⟩ := moved
  have names := NamesDefinition.iff_isNameBehind lines taken.filled noHeading
  rw [rows_parse, rows_parse, lines, rowsOfLines_congr lines', names]
  refine ⟨fun noName => (rowsOfLines_of_takes taken noHeading noName back).symm, ?_⟩
  rintro ⟨outer, h, inner, rfl, heading, below, bodies, isName⟩ name call values cells noMark
  obtain ⟨-, after⟩ := taken.isHeading_eq_false noHeading
  obtain ⟨-, filled'⟩ := taken.cellLine.isBlank_eq
  have isName' : CellLine.IsName (inner.map Line.cellLine) l'.cellLine := by
    refine ⟨taken.indented.trans isName.1, isName.2.imp_left fun begins => ?_⟩
    rw [taken.cellLine.begins_eq, begins]
  obtain ⟨later, old⟩ := exists_rowsOfLines_of_isName heading below bodies isName taken.filled
    noHeading outer (m :: back)
  obtain ⟨later', new⟩ := exists_rowsOfLines_of_isName heading below bodies isName' filled'
    (after l' List.mem_cons_self) outer (rest ++ back)
  have interpreted : (RowForm.shapeInBody call).2 ≠ .other := by
    rw [RowForm.shapeInBody, if_neg noMark]
    split_ifs <;> simp
  let roles := Roles.start (RowForm.shapeInBody call).2
  have split : roles.given (call :: (values ++ m.cells.tail)) =
      roles.given (call :: values) ++ (roles.after (call :: values)).given m.cells.tail :=
    roles.given_append (call :: values) m.cells.tail
  rw [cells, List.tail_cons, TreeRow.ofCells_ofBody] at old
  rw [taken.cells, cells, List.cons_append, List.tail_cons, List.cons_append,
    TreeRow.ofCells_ofBody, split] at new
  exact ⟨_, _, _, _, _, _, old, new, Roles.map_snd_given interpreted _,
    Roles.map_snd_given ((roles.shape_after _).trans_ne interpreted) _⟩

/-- A second argument behind a mark, in the body of a test case and below its name. Only in the body
does it belong to the call. -/
theorem rows_of_movesCells_argument :
    let gap : Part := .gap ⟨.separator, "    ".toList⟩
    let word (text : String) : Part := .cell [⟨.word, text.toList⟩]
    let newline : Part := .gap ⟨.newline, ['\n']⟩
    let inBody : Text := "*** Tasks ***\nT\n    Log    a\n    ...    b\n".toList
    let inBody' : Text := "*** Tasks ***\nT\n    Log    a    b\n".toList
    let below : Text := "*** Tasks ***\nT    Log    a\n    ...    b\n".toList
    let below' : Text := "*** Tasks ***\nT    Log    a    b\n".toList
    let l : Line := ⟨16, [gap, word "Log", gap, word "a", newline]⟩
    let m : Line := ⟨29, [gap, word "...", gap, word "b", newline]⟩
    let k : Line := ⟨14, [word "T", gap, word "Log", gap, word "a", newline]⟩
    let n : Line := ⟨28, [gap, word "...", gap, word "b", newline]⟩
    (MovesCells inBody inBody' l m ∧ l.isHeading = false ∧ ¬ NamesDefinition inBody l ∧
        (parse inBody').value.rows = (parse inBody).value.rows) ∧
      MovesCells below below' k n ∧ k.isHeading = false ∧ NamesDefinition below k ∧
        ∃ earlier later later' kind cells others,
          (parse below).value.rows = earlier ++ ⟨kind, cells⟩ :: later ∧
            (parse below').value.rows = earlier ++ ⟨kind, cells ++ others⟩ :: later' ∧
            cells.map Prod.snd = ["Log".toList, "a".toList] ∧
            others.map Prod.snd = ["b".toList] := by
  intro gap word newline inBody inBody' below below' l m k n
  have moved : MovesCells inBody inBody' l m :=
    ⟨(linesOf (tokenize inBody)).take 2, [],
      ⟨16, [gap, word "Log", gap, word "a", gap, word "b", newline]⟩, [], by decide +kernel,
      by decide +kernel, by decide +kernel, by decide +kernel, by decide +kernel, by decide +kernel,
      nofun⟩
  have moved' : MovesCells below below' k n :=
    ⟨(linesOf (tokenize below)).take 1, [],
      ⟨14, [word "T", gap, word "Log", gap, word "a", gap, word "b", newline]⟩, [],
      by decide +kernel, by decide +kernel, by decide +kernel, by decide +kernel, by decide +kernel,
      by decide +kernel, nofun⟩
  have noName : ¬ NamesDefinition inBody l := fun name => absurd name.1 (by decide)
  have name : NamesDefinition below k := by
    have found : ((parse below).value.allNodes.any fun n => n.kind.isDefinition && n.start == 14) =
        true := by decide +kernel
    obtain ⟨n, hn, both⟩ := List.any_eq_true.1 found
    rw [Bool.and_eq_true, beq_iff_eq] at both
    exact ⟨by decide, n, hn, both⟩
  have noHeading : l.isHeading = false ∧ k.isHeading = false := by decide
  exact ⟨⟨moved, noHeading.1, noName, (rows_of_movesCells moved noHeading.1).1 noName⟩, moved',
    noHeading.2, name, (rows_of_movesCells moved' noHeading.2).2 name rfl (by decide)⟩

end RobotAnalysis
