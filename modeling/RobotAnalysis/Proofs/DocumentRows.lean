import RobotAnalysis.Proofs.DocumentGrammar

/-!
# The rows of a document

What is left of a tree when only its rows are looked at: the kind of each, and its cells with their
roles. These follow from very little of the lines of a document. In a section it is enough to know
of each line whether it is indented and which cells it has: the cells of a row are put together from
its lines, and then decide what the row is and which roles they play.
-/
namespace RobotAnalysis

/-- A row of a tree: its kind, and its cells with their roles. -/
structure TreeRow where
  kind : NodeKind
  cells : List (CellKind × Text)
  deriving DecidableEq, Repr

namespace Tree

mutual

/-- The rows of a tree from left to right. -/
def rows : Tree → List TreeRow
  | .leaf _ => []
  | .node kind children =>
    (if kind.isRow then [⟨kind, cellTexts children⟩] else []) ++ rowsAmong children

/-- The rows of some trees from left to right. -/
def rowsAmong : List Tree → List TreeRow
  | [] => []
  | t :: ts => t.rows ++ rowsAmong ts

end

@[simp] theorem rowsAmong_append (ts us : List Tree) :
    rowsAmong (ts ++ us) = rowsAmong ts ++ rowsAmong us := by
  induction ts with
  | nil => rfl
  | cons t ts ih => rw [List.cons_append, rowsAmong, ih, rowsAmong, List.append_assoc]

theorem rowsAmong_eq_flatMap (ts : List Tree) : rowsAmong ts = ts.flatMap rows := by
  induction ts with
  | nil => rfl
  | cons t ts ih => rw [rowsAmong, ih, List.flatMap_cons]

theorem rowsAmong_map_leaf (ts : List Token) : rowsAmong (ts.map .leaf) = [] := by
  rw [rowsAmong_eq_flatMap, List.flatMap_map]
  exact List.flatMap_eq_nil_iff.2 fun _ _ => rfl

/-- No row stands inside a piece of a row. -/
theorem IsPiece.rows_eq_nil {t : Tree} (h : t.IsPiece) : t.rows = [] := by
  cases h with
  | leaf t => rfl
  | cell kind ts => exact rowsAmong_map_leaf ts
  | comment ts => exact rowsAmong_map_leaf ts

theorem rowsAmong_of_pieces {ts : List Tree} (h : ∀ t ∈ ts, t.IsPiece) : rowsAmong ts = [] := by
  rw [rowsAmong_eq_flatMap]
  exact List.flatMap_eq_nil_iff.2 fun t ht => (h t ht).rows_eq_nil

theorem rowsAmong_of_gaps {ts : List Tree} (h : ∀ t ∈ ts, t.IsGap) : rowsAmong ts = [] :=
  rowsAmong_of_pieces fun t ht => (h t ht).isPiece

end Tree

/-- What rows and definitions are read from: whether a line is indented, and its cells. -/
structure CellLine where
  indented : Bool
  cells : List Text
  deriving DecidableEq, Repr

namespace CellLine

def isBlank (l : CellLine) : Bool := l.cells.isEmpty

def isContinuation (l : CellLine) : Bool := l.cells.head? == some Line.continuationMark

def begins (l : CellLine) : Bool := !l.isBlank && !l.indented && !l.isContinuation

/-- Rows with a line in front of them, which takes the cells of the first row if that continues. -/
def attach (cells : List Text) (rows : List (List Text)) : List (List Text) :=
  match rows with
  | (mark :: values) :: rest =>
    if cells ≠ [] ∧ mark = Line.continuationMark then (cells ++ values) :: rest else cells :: rows
  | _ => cells :: rows

@[simp] theorem attach_nil (rows : List (List Text)) : attach [] rows = [] :: rows := by
  rw [attach.eq_def]
  split
  · exact if_neg fun h => h.1 rfl
  · rfl

theorem attach_mark {cells : List Text} (h : cells ≠ []) (values : List Text)
    (rest : List (List Text)) :
    attach cells ((Line.continuationMark :: values) :: rest) = (cells ++ values) :: rest :=
  if_pos ⟨h, rfl⟩

theorem attach_of_head? {rows : List (List Text)}
    (h : ∀ row ∈ rows.head?, row.head? ≠ some Line.continuationMark) (cells : List Text) :
    attach cells rows = cells :: rows := by
  rw [attach.eq_def]
  split
  · exact if_neg fun continues => h _ rfl (congrArg some continues.2)
  · rfl

/-- The cells of the rows of some lines. A blank line counts as a row without cells. -/
def rows (ls : List CellLine) : List (List Text) := (ls.map cells).foldr attach []

@[simp] theorem rows_cons (l : CellLine) (ls : List CellLine) :
    rows (l :: ls) = attach l.cells (rows ls) := rfl

/-- The rows of a definition whose body has some rows: where the first line is not indented, its
first cell is the name, and the other cells are a row of their own. -/
def definitionRows (first : CellLine) (body : List (List Text)) : List (List Text) :=
  if first.indented then attach first.cells body else first.cells.tail :: body

/-- The rows of definitions, of which the lines have been grouped. -/
def groupRows (groups : List (CellLine × List CellLine)) : List (List Text) :=
  groups.flatMap fun g => definitionRows g.1 (rows g.2)

/-- The rows of a section that holds definitions. -/
def bodyRows (ls : List CellLine) : List (List Text) :=
  match ls.dropWhile isBlank with
  | [] => []
  | first :: rest =>
    let (body, more) := Sequence.groupAt begins rest
    definitionRows first (rows body) ++ groupRows more

end CellLine

namespace Line

/-- What rows and definitions are read from. -/
def cellLine (l : Line) : CellLine := ⟨l.isIndented, l.cells⟩

@[simp] theorem cells_cellLine (l : Line) : l.cellLine.cells = l.cells := rfl

end Line

namespace Row

/-- A row of a single line with some cells. -/
def alone (cells : List Text) : Row := ⟨⟨0, cells.map fun text => .cell [⟨.word, text⟩]⟩, []⟩

theorem cells_head_alone (cells : List Text) : (alone cells).head.cells = cells := by
  have text : Part.cellText? ∘ (fun text => Part.cell [⟨.word, text⟩]) = some :=
    funext fun text => congrArg some (List.append_nil text)
  rw [alone, Line.cells, List.filterMap_map, text, List.filterMap_some]

theorem cells_alone (cells : List Text) : (alone cells).cells = cells := by
  rw [Row.cells, cells_head_alone]
  exact List.append_nil cells

end Row

namespace RowForm

/-- The name of a row is its first cell, also where the row goes on. -/
theorem name_eq_of_cells {r r' : Row} (filled : r.head.isBlank = false)
    (filled' : r'.head.isBlank = false) (h : r.cells = r'.cells) :
    r.name = r'.name ∧ r.head.isContinuation = r'.head.isContinuation := by
  have mark {r : Row} (filled : r.head.isBlank = false) :
      r.head.isContinuation = (r.name == Line.continuationMark) := by
    rw [Line.isContinuation, Row.name]
    cases cells : r.head.cells with
    | nil => simp [Line.isBlank, cells] at filled
    | cons c cs => rfl
  obtain ⟨rest, cells⟩ := Row.cells_eq_cons filled
  obtain ⟨rest', cells'⟩ := Row.cells_eq_cons filled'
  rw [cells, cells'] at h
  have name := (List.cons.inj h).1
  rw [mark filled, mark filled', name]
  exact ⟨rfl, rfl⟩

/-- What a row is depends on its cells alone. -/
theorem InUse.eq_of_cells {form : Row → RowForm} (used : InUse form) {r r' : Row}
    (filled : r.head.isBlank = false) (filled' : r'.head.isBlank = false) (h : r.cells = r'.cells) :
    (form r).kind = (form r').kind ∧ (form r).shape = (form r').shape := by
  obtain ⟨name, mark⟩ := name_eq_of_cells filled filled' h
  cases used with
  | ofSetting =>
    rw [RowForm.ofSetting, RowForm.ofSetting, name, mark]
    split_ifs <;> exact ⟨rfl, rfl⟩
  | ofVariable =>
    rw [RowForm.ofVariable, RowForm.ofVariable, mark]
    split_ifs <;> exact ⟨rfl, rfl⟩
  | ofBody =>
    rw [RowForm.ofBody, RowForm.ofBody, name]
    exact ⟨rfl, rfl⟩
  | plain => exact ⟨rfl, rfl⟩

end RowForm

namespace TreeRow

/-- The row that some cells become. -/
def ofCells (form : Row → RowForm) (cells : List Text) : List TreeRow :=
  if cells = [] then []
  else
    let f := form (.alone cells)
    [⟨f.kind, (Roles.start f.shape).given cells⟩]

/-- The row that cells of a body become. -/
theorem ofCells_ofBody (first : Text) (values : List Text) :
    ofCells RowForm.ofBody (first :: values) =
      [⟨(RowForm.shapeInBody first).1,
        (Roles.start (RowForm.shapeInBody first).2).given (first :: values)⟩] := by
  have name : (Row.alone (first :: values)).name = first := by
    rw [Row.name, Row.cells_head_alone]
    rfl
  rw [ofCells, if_neg (List.cons_ne_nil _ _), RowForm.ofBody, name]

/-- A row becomes what its cells become. -/
theorem rows_parse {form : Row → RowForm} (used : RowForm.InUse form) {r : Row}
    (filled : r.head.isBlank = false) :
    (RowForm.parse form r).value.rows = ofCells form r.cells := by
  obtain ⟨rest, cells⟩ := Row.cells_eq_cons filled
  have some : r.cells ≠ [] := cells ▸ List.cons_ne_nil _ _
  have filled' : (Row.alone r.cells).head.isBlank = false := by
    rw [Line.isBlank, Row.cells_head_alone]
    exact List.isEmpty_eq_false_iff.2 some
  obtain ⟨kind, shape⟩ := used.eq_of_cells filled filled' (Row.cells_alone _).symm
  have isRow : (form r).kind.isRow = true := used.isRow r
  rw [RowForm.parse, Tree.rows, if_pos isRow, ofCells, if_neg some, Row.cellTexts_trees,
    Tree.rowsAmong_of_pieces fun t ht => Row.isPiece_of_mem_trees ht, kind, shape]
  rfl

end TreeRow

namespace Item

def cells : Item → List Text
  | .blank _ => []
  | .row r => r.cells

/-- The cells of rows are put together from those of their lines. -/
theorem map_cells_ofLines (ls : List Line) :
    (ofLines ls).map cells = CellLine.rows (ls.map Line.cellLine) := by
  have head? {r : Row} (filled : r.head.isBlank = false) : r.cells.head? = r.head.cells.head? := by
    rw [Row.cells]
    cases cells : r.head.cells with
    | nil => simp [Line.isBlank, cells] at filled
    | cons c cs => rfl
  induction ls using ofLines.induct with
  | case1 => rfl
  | case2 l ls blank ih =>
    have none : l.cellLine.cells = [] := List.isEmpty_iff.1 blank
    rw [ofLines, if_pos blank, List.map_cons, ih, List.map_cons, CellLine.rows_cons, none,
      CellLine.attach_nil]
    rfl
  | case3 l ls filled next items found continues ih =>
    have some : l.cells ≠ [] := fun none => filled (List.isEmpty_iff.2 none)
    obtain ⟨values, mark⟩ : ∃ values, next.head.cells = Line.continuationMark :: values :=
      List.head?_eq_some_iff.1 (beq_iff_eq.1 continues)
    have cells : next.cells =
        Line.continuationMark :: (values ++ next.continuations.flatMap fun l => l.cells.tail) := by
      rw [Row.cells, mark, List.cons_append]
    rw [List.map_cons, CellLine.rows_cons, ← ih, ofLines, if_neg filled, found]
    simp only [continues, if_true, List.map_cons, Item.cells, cells]
    rw [Line.cells_cellLine, CellLine.attach_mark some, Row.cells, List.flatMap_cons, mark]
    rfl
  | case4 l ls filled next items found begins ih =>
    have first : next.head.isBlank = false :=
      isBlank_head_of_mem_ofLines (found ▸ List.mem_cons_self)
    rw [List.map_cons, CellLine.rows_cons, ← ih, CellLine.attach_of_head?, ofLines, if_neg filled,
      found]
    · simp [begins, Item.cells, Row.cells]
    · rw [found]
      rintro _ ⟨⟩ mark
      rw [Item.cells, head? first] at mark
      exact begins (beq_iff_eq.2 mark)
  | case5 l ls filled noRow ih =>
    rw [List.map_cons, CellLine.rows_cons, ← ih, CellLine.attach_of_head?,
      ofLines_cons_of_noRow filled noRow]
    · simp [Item.cells, Row.cells]
    · intro row first mark
      obtain ⟨item, hitem, rfl⟩ := Option.map_eq_some_iff.1 (List.head?_map ▸ first)
      cases item with
      | blank l => cases mark
      | row r =>
        obtain ⟨items, found⟩ := List.head?_eq_some_iff.1 hitem
        exact absurd found (noRow _ _)

/-- Lines that are read row by row. -/
theorem rowsAmong_parseAll {form : Row → RowForm} (used : RowForm.InUse form) (ls : List Line) :
    Tree.rowsAmong (parseAll form (ofLines ls)).value =
      (CellLine.rows (ls.map Line.cellLine)).flatMap (TreeRow.ofCells form) := by
  have each : ∀ item ∈ ofLines ls, ((parse form item).value.flatMap Tree.rows) =
      TreeRow.ofCells form item.cells := by
    intro item hitem
    cases item with
    | blank l =>
      rw [parse, ← Tree.rowsAmong_eq_flatMap]
      exact Tree.rowsAmong_of_gaps fun t ht => Line.isGap_of_mem_bare ht
    | row r =>
      rw [parse, List.flatMap_singleton]
      exact TreeRow.rows_parse used (isBlank_head_of_mem_ofLines hitem)
  rw [value_parseAll, Tree.rowsAmong_eq_flatMap, List.flatMap_assoc, List.flatMap_congr each,
    ← map_cells_ofLines, List.flatMap_map]

end Item

namespace Definition

/-- The cells behind the name of a definition are a row of their own. -/
theorem rowsAmong_nameLine {l : Line} (made : l.IsMade) (filled : l.isBlank = false)
    (outside : l.isIndented = false) :
    Tree.rowsAmong (nameLine l) = TreeRow.ofCells RowForm.ofBody l.cells.tail := by
  obtain ⟨name, rest, parts⟩ := made.ordered.begins filled outside
  have tail : l.cells.tail = rest.filterMap Part.cellText? := by
    rw [Line.cells, parts]
    rfl
  have noRow : (nameTree name).rows = [] := (Tree.IsPiece.cell .definitionName name).rows_eq_nil
  have gaps (ps : List Part) : Tree.rowsAmong (ps.flatMap Part.bare) = [] := by
    refine Tree.rowsAmong_of_gaps fun t ht => ?_
    obtain ⟨p, -, ht⟩ := List.mem_flatMap.1 ht
    exact Part.isGap_of_mem_bare ht
  cases more : (rest.filterMap Part.cellText?).isEmpty with
  | true =>
    have none := List.isEmpty_iff.1 more
    have noCell : ∀ p ∈ rest, p.isCell = false := by
      intro p hp
      rw [Part.isCell, List.filterMap_eq_nil_iff.1 none p hp]
      rfl
    rw [nameLine_of_noCell parts noCell, Tree.rowsAmong, noRow, gaps, tail, none]
    rfl
  | false =>
    obtain ⟨front, first, row, -, rfl, noCell⟩ := Part.exists_first_cell more
    have outsideCells : front.filterMap Part.cellText? = [] :=
      List.filterMap_eq_nil_iff.2 fun p hp => Option.not_isSome_iff_eq_none.1 (by
        rw [← Part.isCell, noCell p hp]
        exact Bool.false_ne_true)
    have cells : l.cells.tail = Token.textOf first :: row.filterMap Part.cellText? := by
      rw [tail, List.filterMap_append, outsideCells]
      rfl
    have isRow : (RowForm.shapeInBody (Token.textOf first)).1.isRow = true := by
      rw [RowForm.shapeInBody]
      split_ifs <;> rfl
    rw [nameLine_of_cell parts noCell, Tree.rowsAmong, noRow, Tree.rowsAmong_append, gaps,
      Tree.rowsAmong, Tree.rows, if_pos isRow, Roles.cellTexts_assign, cells,
      TreeRow.ofCells_ofBody, Tree.rowsAmong_of_pieces fun t ht => Roles.isPiece_of_mem_assign ht]
    rfl

/-- A definition has the rows of its lines. -/
theorem rows_parse {kind : NodeKind} (isDefinition : kind.isDefinition = true) {d : Definition}
    (made : d.first.IsMade) (filled : d.first.isBlank = false) :
    (parse kind d).value.rows =
      (CellLine.definitionRows d.first.cellLine (CellLine.rows (d.body.map Line.cellLine))).flatMap
        (TreeRow.ofCells RowForm.ofBody) := by
  have noRow : kind.isRow = false := by cases kind <;> first | rfl | cases isDefinition
  have indentation : d.first.cellLine.indented = d.first.isIndented := rfl
  rw [parse, CellLine.definitionRows, indentation]
  cases indented : d.first.isIndented with
  | true =>
    rw [if_pos rfl, if_pos rfl, Tree.rows, noRow, if_neg Bool.false_ne_true, List.nil_append,
      Item.rowsAmong_parseAll .ofBody, List.map_cons, CellLine.rows_cons]
  | false =>
    rw [if_neg Bool.false_ne_true, if_neg Bool.false_ne_true, Tree.rows, noRow,
      if_neg Bool.false_ne_true, List.nil_append, Tree.rowsAmong_append,
      rowsAmong_nameLine made filled indented, Item.rowsAmong_parseAll .ofBody, List.flatMap_cons,
      Line.cells_cellLine]

/-- How lines are grouped into definitions shows in what is read of them. -/
theorem bodyRows_eq (ls : List Line) : CellLine.bodyRows (ls.map Line.cellLine) =
    (ofLines ls).2.flatMap fun d =>
      CellLine.definitionRows d.first.cellLine (CellLine.rows (d.body.map Line.cellLine)) := by
  have blank : CellLine.isBlank ∘ Line.cellLine = Line.isBlank := rfl
  rw [CellLine.bodyRows, ofLines, List.dropWhile_map, blank]
  cases ls.dropWhile Line.isBlank with
  | nil => rfl
  | cons first rest =>
    have groups := Sequence.groupAt_map (f := Line.cellLine) (p := begins) (q := CellLine.begins)
      (fun _ => rfl) rest
    simp only [List.map_cons, groups, CellLine.groupRows, List.flatMap_cons, List.flatMap_map]

/-- Lines that are read definition by definition. -/
theorem rowsAmong_parseAll {kind : NodeKind} (isDefinition : kind.isDefinition = true)
    {ls : List Line} (made : ∀ d ∈ (ofLines ls).2, d.first.IsMade ∧ d.first.isBlank = false) :
    Tree.rowsAmong (parseAll kind ls).value =
      (CellLine.bodyRows (ls.map Line.cellLine)).flatMap (TreeRow.ofCells RowForm.ofBody) := by
  have blanks : Tree.rowsAmong ((ofLines ls).1.flatMap Line.bare) = [] := by
    refine Tree.rowsAmong_of_gaps fun t ht => ?_
    obtain ⟨l, -, ht⟩ := List.mem_flatMap.1 ht
    exact Line.isGap_of_mem_bare ht
  have each : ∀ d ∈ (ofLines ls).2, (parse kind d).value.rows =
      (CellLine.definitionRows d.first.cellLine
        (CellLine.rows (d.body.map Line.cellLine))).flatMap (TreeRow.ofCells RowForm.ofBody) :=
    fun d hd => rows_parse isDefinition (made d hd).1 (made d hd).2
  rw [value_parseAll, Tree.rowsAmong_append, blanks, List.nil_append, Tree.rowsAmong_eq_flatMap,
    List.flatMap_map, List.flatMap_congr each, bodyRows_eq, List.flatMap_assoc]

end Definition

/-- How the rows of a section of some kind are read. -/
def HeadingKind.form : HeadingKind → Row → RowForm
  | .settings => RowForm.ofSetting
  | .variableTable => RowForm.ofVariable
  | .testCases | .tasks | .keywords => RowForm.ofBody
  | .comments | .unknown => fun _ => RowForm.plain []

namespace SectionLines

/-- The cells of the rows of a section. -/
def cellRows (s : SectionLines) : List (List Text) :=
  if s.kind.holdsBodies then CellLine.bodyRows (s.body.map Line.cellLine)
  else CellLine.rows (s.body.map Line.cellLine)

/-- The rows of a section, read from the cells of its lines. -/
def rows (s : SectionLines) : List TreeRow := s.cellRows.flatMap (TreeRow.ofCells s.kind.form)

theorem rows_parse {text : Text} {s : SectionLines} (h : s ∈ ofText text) :
    s.parse.value.rows = s.rows := by
  have heading : (Tree.node .heading s.heading.bare).rows = [] :=
    Tree.rowsAmong_of_gaps fun t ht => Line.isGap_of_mem_bare ht
  have children : s.parse.value.rows = Tree.rowsAmong s.parseBody.value := by
    rw [value_parse, Tree.rows, Tree.rowsAmong, heading]
    rfl
  have made : ∀ d ∈ (Definition.ofLines s.body).2, d.first.IsMade ∧ d.first.isBlank = false :=
    fun d hd => ⟨(of_mem_definitions h hd).1 _ List.mem_cons_self, (of_mem_definitions h hd).2⟩
  rw [children, rows, cellRows, parseBody]
  cases s.kind with
  | settings => exact Item.rowsAmong_parseAll .ofSetting s.body
  | variableTable => exact Item.rowsAmong_parseAll .ofVariable s.body
  | testCases | tasks | keywords => exact Definition.rowsAmong_parseAll rfl made
  | comments | unknown => exact Item.rowsAmong_parseAll .plain s.body

end SectionLines

/-- The rows of the sections of some lines. -/
def rowsOfLines (ls : List Line) : List TreeRow :=
  (Sequence.groupAt Line.isHeading ls).2.flatMap fun g => SectionLines.rows ⟨g.1, g.2⟩

/-- The rows of a section behind some lines, and what is behind it. -/
theorem rowsOfLines_append_cons {h : Line} {inner : List Line} (heading : h.isHeading = true)
    (below : ∀ l ∈ inner, l.isHeading = false) (outer back : List Line) :
    rowsOfLines (outer ++ h :: (inner ++ back)) =
      rowsOfLines outer ++
        (SectionLines.rows ⟨h, inner ++ (Sequence.groupAt Line.isHeading back).1⟩ ++
          (Sequence.groupAt Line.isHeading back).2.flatMap fun g =>
            SectionLines.rows ⟨g.1, g.2⟩) := by
  rw [rowsOfLines, Sequence.groupAt_append_cons heading below, List.flatMap_append,
    List.flatMap_cons]
  rfl

/-- The rows of a text are those that are read from its lines. -/
theorem rows_parse (text : Text) :
    (parse text).value.rows = rowsOfLines (linesOf (tokenize text)) := by
  have preamble : Tree.rowsAmong (preambleTrees (SectionLines.linesBefore text)) = [] := by
    rw [Tree.rowsAmong_eq_flatMap]
    refine List.flatMap_eq_nil_iff.2 fun t ht => ?_
    cases isPreamble_of_mem ht with
    | mk plain => exact Tree.rowsAmong_of_gaps plain
  have sections : rowsOfLines (linesOf (tokenize text)) =
      (SectionLines.ofText text).flatMap SectionLines.rows := by
    rw [rowsOfLines, SectionLines.ofText, List.flatMap_map]
  rw [value_parse, Tree.rows, sections, Tree.rowsAmong_append, preamble, Tree.rowsAmong_eq_flatMap,
    List.flatMap_map, List.flatMap_congr fun s hs => SectionLines.rows_parse hs]
  rfl

/-- Where lines begin does not matter for their rows. -/
theorem rowsOfLines_congr {ls ms : List Line} (h : ls.map Line.parts = ms.map Line.parts) :
    rowsOfLines ls = rowsOfLines ms := by
  let placeless : Line → Line := fun l => ⟨0, l.parts⟩
  have same (ls : List Line) : rowsOfLines ls = rowsOfLines (ls.map placeless) := by
    rw [rowsOfLines, rowsOfLines,
      Sequence.groupAt_map (f := placeless) (p := Line.isHeading) (q := Line.isHeading)
        fun _ => rfl, List.flatMap_map]
    refine List.flatMap_congr fun g _ => ?_
    rw [SectionLines.rows, SectionLines.rows, SectionLines.cellRows, SectionLines.cellRows,
      List.map_map]
    rfl
  have parts (ls : List Line) : ls.map placeless = (ls.map Line.parts).map (Line.mk 0) := by
    rw [List.map_map]
    rfl
  rw [same, parts, h, ← parts, ← same]

end RobotAnalysis
