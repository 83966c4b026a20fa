import RobotAnalysis.Parse
import RobotAnalysis.Proofs.RowRoles

/-!
# The shape of a parsed tree

What stands inside the nodes of a parsed tree, level by level: sections in a document, rows or
definitions in a section, a name and rows in a definition, pieces in a row. Blank lines leave gaps
everywhere. Each level is described by the rows and lines that its trees come from, so that what is
known about the cells of a row can be used of every row in the tree.
-/
namespace RobotAnalysis

namespace Parsed

theorem value_sequence {α : Type} (ps : List (Parsed α)) :
    (sequence ps).value = ps.map Parsed.value := by
  induction ps with
  | nil => rfl
  | cons p ps ih => rw [sequence, List.map_cons, ih]

end Parsed

namespace Item

/-- A line is a row by itself where none begins behind it. -/
theorem ofLines_cons_of_noRow {l : Line} {ls : List Line} (filled : ¬ l.isBlank = true)
    (noRow : ∀ r items, ofLines ls ≠ .row r :: items) :
    ofLines (l :: ls) = .row ⟨l, []⟩ :: ofLines ls := by
  rw [ofLines, if_neg filled]
  split
  · rename_i found
    exact absurd found (noRow _ _)
  · rfl

/-- Whether an item is a blank line, or a row that begins with another one. -/
def IsGrouped : Item → Prop
  | .blank l => l.isBlank = true
  | .row r => r.head.isBlank = false

theorem isGrouped_of_mem_ofLines {ls : List Line} : ∀ item ∈ ofLines ls, item.IsGrouped := by
  induction ls using ofLines.induct with
  | case1 => simp [ofLines]
  | case2 l ls blank ih =>
    rw [ofLines, if_pos blank]
    exact List.forall_mem_cons.2 ⟨blank, ih⟩
  | case3 l ls filled next items found continues ih =>
    rw [ofLines, if_neg filled, found]
    simp only [continues, if_true]
    rw [found] at ih
    have here : l.isBlank = false := by simpa using filled
    exact List.forall_mem_cons.2 ⟨here, (List.forall_mem_cons.1 ih).2⟩
  | case4 l ls filled next items found begins ih =>
    rw [ofLines, if_neg filled, found]
    simp only [begins, Bool.false_eq_true, if_false]
    rw [found] at ih
    have here : l.isBlank = false := by simpa using filled
    exact List.forall_mem_cons.2 ⟨here, ih⟩
  | case5 l ls filled noRow ih =>
    rw [ofLines_cons_of_noRow filled noRow]
    have here : l.isBlank = false := by simpa using filled
    exact List.forall_mem_cons.2 ⟨here, ih⟩

/-- No row begins with a blank line. -/
theorem isBlank_head_of_mem_ofLines {ls : List Line} {r : Row} (h : .row r ∈ ofLines ls) :
    r.head.isBlank = false := isGrouped_of_mem_ofLines _ h

theorem value_parseAll (form : Row → RowForm) (items : List Item) :
    (parseAll form items).value = items.flatMap fun item => (parse form item).value := by
  rw [parseAll, Parsed.value_sequence, List.map_map, List.flatMap_def]
  rfl

/-- Lines that are read row by row become gaps and the nodes of rows. -/
theorem mem_value_parseAll {form : Row → RowForm} {ls : List Line} {t : Tree}
    (h : t ∈ (parseAll form (ofLines ls)).value) :
    t.IsGap ∨ ∃ r : Row, r.head.isBlank = false ∧ t = (RowForm.parse form r).value := by
  rw [value_parseAll] at h
  obtain ⟨item, mem, ht⟩ := List.mem_flatMap.1 h
  cases item with
  | blank l => exact .inl (Line.isGap_of_mem_bare ht)
  | row r => exact .inr ⟨r, isBlank_head_of_mem_ofLines mem, List.mem_singleton.1 ht⟩

end Item

/-- Parts that begin with a cell are a line whose first cell it is. -/
theorem Line.head?_cells_of_head? {ps : List Part} {first : Text}
    (h : ps.head? >>= Part.cellText? = some first) : (Line.mk 0 ps).cells.head? = some first := by
  cases ps with
  | nil => cases h
  | cons p ps =>
    have text : p.cellText? = some first := h
    rw [Line.cells, List.filterMap_cons, text]
    rfl

namespace Definition

/-- What a definition holds: gaps, the cell of its name, and the rows of its body. -/
inductive Holds : Tree → Prop
  | gap {t : Tree} (h : t.IsGap) : Holds t
  | name (ts : List Token) : Holds (.node (.cell .definitionName) (ts.map .leaf))
  | row (r : Row) (filled : r.head.isBlank = false) :
      Holds (RowForm.parse RowForm.ofBody r).value

theorem holds_of_mem_body {ls : List Line} {t : Tree}
    (h : t ∈ (Item.parseAll RowForm.ofBody (Item.ofLines ls)).value) : Holds t := by
  rcases Item.mem_value_parseAll h with gap | ⟨r, filled, rfl⟩
  · exact .gap gap
  · exact .row r filled

theorem holds_of_mem_bare {ps : List Part} {t : Tree} (h : t ∈ ps.flatMap Part.bare) : Holds t := by
  obtain ⟨p, -, ht⟩ := List.mem_flatMap.1 h
  exact .gap (Part.isGap_of_mem_bare ht)

/-- The row after the name of a definition is like a row of a line that holds nothing else. -/
theorem holds_inline {ps : List Part} {first : Text}
    (h : ps.head? >>= Part.cellText? = some first) :
    Holds (.node (RowForm.shapeInBody first).1
      ((Roles.start (RowForm.shapeInBody first).2).assign ps).1) := by
  let r : Row := ⟨⟨0, ps⟩, []⟩
  have cells : r.head.cells.head? = some first := Line.head?_cells_of_head? h
  have filled : r.head.isBlank = false := by
    rw [Line.isBlank]
    cases all : r.head.cells with
    | nil => simp [all] at cells
    | cons c cs => rfl
  have name : r.name = first := by
    rw [Row.name, List.headD_eq_head?_getD, cells]
    rfl
  have row : Holds (RowForm.parse RowForm.ofBody r).value := .row r filled
  simp only [RowForm.parse, RowForm.ofBody, name, Row.trees, r, Roles.assignContinuations,
    List.append_nil] at row
  exact row

theorem holds_of_mem_nameLine {l : Line} {t : Tree} (h : t ∈ nameLine l) : Holds t := by
  rw [nameLine] at h
  split at h
  · rename_i name rest parts
    dsimp only at h
    split at h
    · rcases List.mem_cons.1 h with rfl | h
      · exact .name name
      · exact holds_of_mem_bare h
    · rename_i first found
      rcases List.mem_cons.1 h with rfl | h
      · exact .name name
      · rcases List.mem_append.1 h with h | h
        · exact holds_of_mem_bare h
        · rw [List.mem_singleton.1 h]
          exact holds_inline found
  · exact holds_of_mem_bare h

/-- A definition becomes a node of its kind. -/
theorem exists_parse (kind : NodeKind) (d : Definition) :
    ∃ children, (parse kind d).value = .node kind children ∧ ∀ t ∈ children, Holds t := by
  rw [parse]
  split
  · exact ⟨_, rfl, fun t ht => holds_of_mem_body ht⟩
  · refine ⟨_, rfl, fun t ht => ?_⟩
    rcases List.mem_append.1 ht with ht | ht
    · exact holds_of_mem_nameLine ht
    · exact holds_of_mem_body ht

/-- Lines that are read definition by definition become the trees of the blank lines at their start
and the nodes of definitions. -/
theorem value_parseAll (kind : NodeKind) (ls : List Line) :
    (parseAll kind ls).value =
      (ofLines ls).1.flatMap Line.bare ++ (ofLines ls).2.map fun d => (parse kind d).value := by
  dsimp only [parseAll]
  rw [Parsed.value_sequence, List.map_map]
  rfl

theorem mem_value_parseAll {kind : NodeKind} {ls : List Line} {t : Tree}
    (h : t ∈ (parseAll kind ls).value) : t.IsGap ∨ ∃ d, t = (parse kind d).value := by
  rw [value_parseAll] at h
  rcases List.mem_append.1 h with h | h
  · obtain ⟨l, -, ht⟩ := List.mem_flatMap.1 h
    exact .inl (Line.isGap_of_mem_bare ht)
  · obtain ⟨d, -, rfl⟩ := List.mem_map.1 h
    exact .inr ⟨d, rfl⟩

end Definition

namespace SectionLines

/-- The sections of a text. -/
def ofText (text : Text) : List SectionLines :=
  (Sequence.groupAt Line.isHeading (linesOf (tokenize text))).2.map fun g => ⟨g.1, g.2⟩

/-- The lines of a text before its first heading. -/
def linesBefore (text : Text) : List Line :=
  (Sequence.groupAt Line.isHeading (linesOf (tokenize text))).1

theorem value_parse (s : SectionLines) :
    s.parse.value = .node .headed (.node .heading s.heading.bare :: s.parseBody.value) := rfl

theorem heading_mem_linesOf {text : Text} {s : SectionLines} (h : s ∈ ofText text) :
    s.heading ∈ linesOf (tokenize text) := by
  obtain ⟨g, hg, rfl⟩ := List.mem_map.1 h
  rw [← Sequence.groupAt_flatten Line.isHeading (linesOf (tokenize text))]
  exact List.mem_append_right _ (List.mem_flatMap.2 ⟨g, hg, List.mem_cons_self⟩)

end SectionLines

/-- A document becomes the node of the lines before its sections, if there are any, and the nodes of
its sections. -/
theorem value_parse (text : Text) :
    (parse text).value = .node .document
      (preambleTrees (SectionLines.linesBefore text) ++
        (SectionLines.ofText text).map fun s => s.parse.value) := by
  simp only [parse, parseLines, Parsed.value_sequence, SectionLines.ofText, List.map_map,
    SectionLines.linesBefore]
  rfl

namespace RowForm

/-- The ways in which rows are read. -/
inductive InUse : (Row → RowForm) → Prop
  | ofSetting : InUse ofSetting
  | ofVariable : InUse ofVariable
  | ofBody : InUse ofBody
  | plain : InUse fun _ => RowForm.plain []

end RowForm

namespace SectionLines

/-- What the body of a section of some kind holds: gaps, and rows or definitions as its kind
demands. -/
inductive Holds : HeadingKind → Tree → Prop
  | gap {kind : HeadingKind} {t : Tree} (h : t.IsGap) : Holds kind t
  | setting (r : Row) (filled : r.head.isBlank = false) :
      Holds .settings (RowForm.parse RowForm.ofSetting r).value
  | variableRow (r : Row) (filled : r.head.isBlank = false) :
      Holds .variableTable (RowForm.parse RowForm.ofVariable r).value
  | testCase {kind : HeadingKind} (h : kind.holdsTestCases = true) (d : Definition) :
      Holds kind (Definition.parse .testCase d).value
  | keyword (d : Definition) : Holds .keywords (Definition.parse .userKeyword d).value
  | other {kind : HeadingKind} (h : kind = .comments ∨ kind = .unknown) (r : Row)
      (filled : r.head.isBlank = false) :
      Holds kind (RowForm.parse (fun _ => RowForm.plain []) r).value

theorem holds_of_mem_parseBody {s : SectionLines} {t : Tree} (h : t ∈ s.parseBody.value) :
    Holds s.kind t := by
  rw [parseBody] at h
  cases kind : s.kind with
  | settings =>
    rw [kind] at h
    rcases Item.mem_value_parseAll h with gap | ⟨r, filled, rfl⟩
    · exact .gap gap
    · exact .setting r filled
  | variableTable =>
    rw [kind] at h
    rcases Item.mem_value_parseAll h with gap | ⟨r, filled, rfl⟩
    · exact .gap gap
    · exact .variableRow r filled
  | testCases | tasks =>
    rw [kind] at h
    rcases Definition.mem_value_parseAll h with gap | ⟨d, rfl⟩
    · exact .gap gap
    · exact .testCase rfl d
  | keywords =>
    rw [kind] at h
    rcases Definition.mem_value_parseAll h with gap | ⟨d, rfl⟩
    · exact .gap gap
    · exact .keyword d
  | comments =>
    rw [kind] at h
    rcases Item.mem_value_parseAll h with gap | ⟨r, filled, rfl⟩
    · exact .gap gap
    · exact .other (.inl rfl) r filled
  | unknown =>
    rw [kind] at h
    rcases Item.mem_value_parseAll h with gap | ⟨r, filled, rfl⟩
    · exact .gap gap
    · exact .other (.inr rfl) r filled

end SectionLines

namespace Node

/-- Whether a node is a row that has been read in some way. -/
def IsRow (form : Row → RowForm) (n : Node) : Prop :=
  ∃ r : Row, r.head.isBlank = false ∧ n.tree = (RowForm.parse form r).value

/-- The forms of the nodes of a parsed tree. -/
inductive Form (n : Node) : Prop
  /-- The document, the lines before its sections, a section or the line of its heading. -/
  | frame (h : n.kind = .document ∨ n.kind = .preamble ∨ n.kind = .headed ∨ n.kind = .heading)
  | definition (kind : NodeKind) (d : Definition) (isDefinition : kind.isDefinition = true)
      (h : n.tree = (Definition.parse kind d).value)
  | row (form : Row → RowForm) (used : RowForm.InUse form) (h : n.IsRow form)
  | piece (h : n.tree.IsPiece)

theorem mem_below_iff {n m : Node} : m ∈ n.below ↔ ∃ k ∈ n.nodes, m = k ∨ m ∈ k.below := by
  rw [below_eq]
  simp only [List.mem_flatMap, List.mem_cons]

theorem children_of_tree {n : Node} {kind : NodeKind} {children : List Tree}
    (h : n.tree = .node kind children) : n.kind = kind ∧ n.children = children := by
  simpa [tree] using h

theorem form_below_of_pieces {n m : Node} (h : ∀ t ∈ n.children, t.IsPiece) (hm : m ∈ n.below) :
    m.Form := by
  rw [below_eq_nodes h] at hm
  exact .piece (h _ (tree_mem_of_mem_nodes hm))

theorem form_below_of_gaps {n m : Node} (h : ∀ t ∈ n.children, t.IsGap) (hm : m ∈ n.below) :
    m.Form :=
  form_below_of_pieces (fun t ht => (h t ht).isPiece) hm

theorem IsRow.pieces {form : Row → RowForm} {n : Node} (h : n.IsRow form) :
    ∀ t ∈ n.children, t.IsPiece := by
  obtain ⟨r, -, tree⟩ := h
  rw [(children_of_tree tree).2]
  exact fun t ht => Row.isPiece_of_mem_trees ht

theorem form_below_of_piece {n m : Node} (h : n.tree.IsPiece) (hm : m ∈ n.below) : m.Form := by
  rw [below_eq_nil h] at hm
  cases hm

theorem form_below_of_definition {n m : Node} {kind : NodeKind} {d : Definition}
    (h : n.tree = (Definition.parse kind d).value) (hm : m ∈ n.below) : m.Form := by
  obtain ⟨children, tree, holds⟩ := Definition.exists_parse kind d
  obtain ⟨-, rfl⟩ := children_of_tree (h.trans tree)
  obtain ⟨k, hk, hm⟩ := mem_below_iff.1 hm
  have inside := holds _ (tree_mem_of_mem_nodes hk)
  generalize same : k.tree = t at inside
  cases inside with
  | gap gap =>
    have piece : k.tree.IsPiece := same ▸ gap.isPiece
    rcases hm with rfl | hm
    · exact .piece piece
    · exact form_below_of_piece piece hm
  | name ts =>
    have piece : k.tree.IsPiece := same ▸ .cell _ ts
    rcases hm with rfl | hm
    · exact .piece piece
    · exact form_below_of_piece piece hm
  | row r filled =>
    have row : k.IsRow RowForm.ofBody := ⟨r, filled, same⟩
    rcases hm with rfl | hm
    · exact .row _ .ofBody row
    · exact form_below_of_pieces row.pieces hm

theorem form_below_of_section {n m : Node} {s : SectionLines} (h : n.tree = s.parse.value)
    (hm : m ∈ n.below) : m.Form := by
  obtain ⟨-, children⟩ := children_of_tree (h.trans s.value_parse)
  obtain ⟨k, hk, hm⟩ := mem_below_iff.1 hm
  have inside := tree_mem_of_mem_nodes hk
  rw [children] at inside
  rcases List.mem_cons.1 inside with heading | inside
  · obtain ⟨kind, gaps⟩ := children_of_tree heading
    rcases hm with rfl | hm
    · exact .frame (.inr (.inr (.inr kind)))
    · exact form_below_of_gaps (gaps ▸ fun t ht => Line.isGap_of_mem_bare ht) hm
  · have row {form : Row → RowForm} (used : RowForm.InUse form) (row : k.IsRow form) : m.Form := by
      rcases hm with rfl | hm
      · exact .row form used row
      · exact form_below_of_pieces row.pieces hm
    have definition {kind : NodeKind} (isDefinition : kind.isDefinition = true) {d : Definition}
        (tree : k.tree = (Definition.parse kind d).value) : m.Form := by
      rcases hm with rfl | hm
      · exact .definition kind d isDefinition tree
      · exact form_below_of_definition tree hm
    have body := SectionLines.holds_of_mem_parseBody inside
    generalize s.kind = kind at body
    generalize same : k.tree = t at body
    cases body with
    | gap gap =>
      rcases hm with rfl | hm
      · exact .piece (same ▸ gap.isPiece)
      · exact form_below_of_piece (same ▸ gap.isPiece) hm
    | setting r filled => exact row .ofSetting ⟨r, filled, same⟩
    | variableRow r filled => exact row .ofVariable ⟨r, filled, same⟩
    | testCase _ d => exact definition rfl same
    | keyword d => exact definition rfl same
    | other _ r filled => exact row .plain ⟨r, filled, same⟩

end Node

theorem allNodes_eq (t : Tree) (h : t.isNode = true) : t.allNodes = t.root :: t.root.below := by
  cases t with
  | leaf token => cases h
  | node kind children => rfl

/-- The nodes of a parsed text are the document and what stands below it. -/
theorem allNodes_parse (text : Text) : (parse text).value.allNodes =
    (parse text).value.root :: (parse text).value.root.below :=
  allNodes_eq _ (by rw [value_parse]; rfl)

theorem root_mem_allNodes (text : Text) :
    (parse text).value.root ∈ (parse text).value.allNodes := by
  rw [allNodes_parse]
  exact List.mem_cons_self

/-- A child of a document: the lines before the sections, or a section. -/
theorem mem_nodes_root {text : Text} {n : Node} (h : n ∈ (parse text).value.root.nodes) :
    (n.kind = .preamble ∧ ∀ t ∈ n.children, t.IsGap) ∨
      ∃ s ∈ SectionLines.ofText text, n.tree = s.parse.value := by
  have inside := Node.tree_mem_of_mem_nodes h
  rw [value_parse, Tree.root, List.mem_append] at inside
  rcases inside with inside | inside
  · rw [preambleTrees] at inside
    split at inside
    · cases inside
    · obtain ⟨kind, gaps⟩ := Node.children_of_tree (List.mem_singleton.1 inside)
      refine .inl ⟨kind, ?_⟩
      rw [gaps]
      intro t ht
      obtain ⟨l, -, ht⟩ := List.mem_flatMap.1 ht
      exact Line.isGap_of_mem_bare ht
  · obtain ⟨s, hs, tree⟩ := List.mem_map.1 inside
    exact .inr ⟨s, hs, tree.symm⟩

/-- Every node of a parsed tree has one of the known forms. -/
theorem form_of_mem_allNodes {text : Text} {n : Node} (h : n ∈ (parse text).value.allNodes) :
    n.Form := by
  rw [allNodes_parse] at h
  rcases List.mem_cons.1 h with rfl | h
  · rw [value_parse]
    exact .frame (.inl rfl)
  · obtain ⟨k, hk, h⟩ := Node.mem_below_iff.1 h
    rcases mem_nodes_root hk with ⟨kind, gaps⟩ | ⟨s, -, tree⟩
    · rcases h with rfl | h
      · exact .frame (.inr (.inl kind))
      · exact Node.form_below_of_gaps gaps h
    · rcases h with rfl | h
      · exact .frame (.inr (.inr (.inl (Node.children_of_tree tree).1)))
      · exact Node.form_below_of_section tree h

end RobotAnalysis
