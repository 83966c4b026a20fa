import RobotAnalysis.Proofs.PieceOrigins
import RobotAnalysis.Proofs.SymbolReading

/-!
# What stands in a section

Every node of a parsed tree that is a cell or a definition, or that has cells, stands below a
section. Below a section there are the line of its heading, the rows or definitions that its kind
demands, the rows of these definitions, and pieces.
-/
namespace RobotAnalysis

namespace Node

variable {n m sec : Node} {s : SectionLines}

/-- What a node below a section is. -/
inductive InSection (n sec : Node) (s : SectionLines) : Prop
  | heading (kind : n.kind = .heading) (gaps : ∀ t ∈ n.children, t.IsGap)
  | piece (h : n.tree.IsPiece)
  | setting (kind : s.kind = .settings) (mem : n ∈ sec.nodes) (row : n.IsRow RowForm.ofSetting)
  | variableRow (kind : s.kind = .variableTable) (mem : n ∈ sec.nodes)
      (row : n.IsRow RowForm.ofVariable)
  | definition (bodies : s.kind.holdsBodies = true) (mem : n ∈ sec.nodes) (kind : NodeKind)
      (d : Definition) (isDefinition : kind.isDefinition = true)
      (tree : n.tree = (Definition.parse kind d).value)
  | bodyRow (bodies : s.kind.holdsBodies = true) (around : Node) (around_mem : around ∈ sec.nodes)
      (isDefinition : around.kind.isDefinition = true) (mem : n ∈ around.nodes)
      (row : n.IsRow RowForm.ofBody)
  | other (mem : n ∈ sec.nodes) (row : n.IsRow fun _ => RowForm.plain [])

theorem IsRow.isRow {form : Row → RowForm} (row : n.IsRow form) (used : RowForm.InUse form) :
    n.kind.isRow = true := by
  obtain ⟨r, -, tree⟩ := row
  rw [(children_of_tree tree).1]
  exact used.isRow r

theorem IsRow.isDefinition_eq_false {form : Row → RowForm} (row : n.IsRow form)
    (used : RowForm.InUse form) : n.kind.isDefinition = false := by
  have isRow := row.isRow used
  cases kind : n.kind <;> first | rfl | (rw [kind] at isRow; cases isRow)

theorem isDefinition_of_isPiece (h : n.tree.IsPiece) : n.kind.isDefinition = false := by
  rcases kind_of_isPiece h with kind | ⟨role, kind⟩ <;> rw [kind] <;> rfl

theorem isPiece_of_mem_below (h : ∀ t ∈ m.children, t.IsPiece) (hn : n ∈ m.below) :
    n.tree.IsPiece := by
  rw [below_eq_nodes h] at hn
  exact h _ (tree_mem_of_mem_nodes hn)

/-- A row below a section, and what is inside the row. -/
theorem inSection_of_row {form : Row → RowForm} (row : m.IsRow form)
    (itself : m.InSection sec s) (hn : n = m ∨ n ∈ m.below) : n.InSection sec s := by
  rcases hn with rfl | hn
  · exact itself
  · exact .piece (isPiece_of_mem_below row.pieces hn)

theorem inSection_of_piece (piece : m.tree.IsPiece) (hn : n = m ∨ n ∈ m.below) :
    n.InSection sec s := by
  rcases hn with rfl | hn
  · exact .piece piece
  · rw [below_eq_nil piece] at hn
    cases hn

theorem inSection_of_definition {kind : NodeKind} {d : Definition}
    (bodies : s.kind.holdsBodies = true) (mem : m ∈ sec.nodes)
    (isDefinition : kind.isDefinition = true) (tree : m.tree = (Definition.parse kind d).value)
    (hn : n = m ∨ n ∈ m.below) : n.InSection sec s := by
  rcases hn with rfl | hn
  · exact .definition bodies mem kind d isDefinition tree
  obtain ⟨children, node, holds⟩ := Definition.exists_parse kind d
  obtain ⟨sameKind, sameChildren⟩ := children_of_tree (tree.trans node)
  obtain ⟨k, hk, hn⟩ := mem_below_iff.1 hn
  have inside := holds _ (sameChildren ▸ tree_mem_of_mem_nodes hk)
  generalize same : k.tree = t at inside
  cases inside with
  | gap gap => exact inSection_of_piece (same ▸ gap.isPiece) hn
  | name ts => exact inSection_of_piece (same ▸ .cell _ ts) hn
  | row r filled =>
    have row : k.IsRow RowForm.ofBody := ⟨r, filled, same⟩
    exact inSection_of_row row (.bodyRow bodies m mem (sameKind ▸ isDefinition) hk row) hn

/-- The nodes below a section. -/
theorem inSection_of_mem_below (h : sec.tree = s.parse.value) (hn : n ∈ sec.below) :
    n.InSection sec s := by
  obtain ⟨-, children⟩ := children_of_tree (h.trans s.value_parse)
  obtain ⟨m, hm, hn⟩ := mem_below_iff.1 hn
  have inside := tree_mem_of_mem_nodes hm
  rw [children] at inside
  rcases List.mem_cons.1 inside with heading | inside
  · obtain ⟨kind, gaps⟩ := children_of_tree heading
    have gaps : ∀ t ∈ m.children, t.IsGap := gaps ▸ fun t ht => Line.isGap_of_mem_bare ht
    rcases hn with rfl | hn
    · exact .heading kind gaps
    · exact .piece (isPiece_of_mem_below (fun t ht => (gaps t ht).isPiece) hn)
  have body := SectionLines.holds_of_mem_parseBody inside
  generalize kind : s.kind = kind at body
  generalize same : m.tree = t at body
  cases body with
  | gap gap => exact inSection_of_piece (same ▸ gap.isPiece) hn
  | setting r filled =>
    have row : m.IsRow RowForm.ofSetting := ⟨r, filled, same⟩
    exact inSection_of_row row (.setting kind hm row) hn
  | variableRow r filled =>
    have row : m.IsRow RowForm.ofVariable := ⟨r, filled, same⟩
    exact inSection_of_row row (.variableRow kind hm row) hn
  | testCase holds d =>
    refine inSection_of_definition ?_ hm rfl same hn
    rw [kind, HeadingKind.holdsBodies, holds, Bool.true_or]
  | keyword d => exact inSection_of_definition (by rw [kind]; rfl) hm rfl same hn
  | other _ r filled =>
    have row : m.IsRow fun _ => RowForm.plain [] := ⟨r, filled, same⟩
    exact inSection_of_row row (.other hm row) hn

theorem cells_of_gaps (gaps : ∀ t ∈ n.children, t.IsGap) : n.cells = [] := by
  have texts := n.cells_texts
  rwa [Tree.cellTexts_of_isGap gaps, List.map_eq_nil_iff] at texts

theorem cells_eq_nil (h : ∀ m ∈ n.nodes, m.kind.isCell = false) : n.cells = [] := by
  refine List.filterMap_eq_nil_iff.2 fun m hm => ?_
  have noCell := h m hm
  rw [cell?]
  split
  · rename_i kind
    rw [kind] at noCell
    cases noCell
  · rfl

/-- In a section cells stand inside other nodes only. -/
theorem isCell_eq_false_of_holds {kind : HeadingKind} (h : SectionLines.Holds kind n.tree) :
    n.kind.isCell = false := by
  have noRow {form : Row → RowForm} (used : RowForm.InUse form) (row : n.IsRow form) :
      n.kind.isCell = false :=
    NodeKind.isCell_of_isFrame (NodeKind.isFrame_of_isRow (row.isRow used))
  have noDefinition {kind : NodeKind} (isDefinition : kind.isDefinition = true) {d : Definition}
      (same : n.tree = (Definition.parse kind d).value) : n.kind.isCell = false := by
    obtain ⟨_, node, -⟩ := Definition.exists_parse kind d
    rw [(children_of_tree (same.trans node)).1]
    exact NodeKind.isCell_of_isFrame (NodeKind.isFrame_of_isDefinition isDefinition)
  generalize same : n.tree = t at h
  cases h with
  | gap gap =>
    rw [kind_of_isGap (same ▸ gap)]
    rfl
  | setting r filled => exact noRow .ofSetting ⟨r, filled, same⟩
  | variableRow r filled => exact noRow .ofVariable ⟨r, filled, same⟩
  | testCase holds d => exact noDefinition rfl same
  | keyword d => exact noDefinition rfl same
  | other _ r filled => exact noRow .plain ⟨r, filled, same⟩

/-- Cells, definitions and what has cells stand below some section. -/
theorem exists_section_above {text : Text} (h : n ∈ (parse text).value.allNodes)
    (inner : n.kind.isCell = true ∨ n.kind.isDefinition = true ∨ n.cells ≠ []) :
    ∃ s ∈ SectionLines.ofText text, ∃ sec ∈ (parse text).value.root.sections,
      sec.tree = s.parse.value ∧ n ∈ sec.below := by
  have outer {kind : NodeKind} (same : n.kind = kind) (noCell : kind.isCell = false)
      (noDefinition : kind.isDefinition = false) (noCells : n.cells = []) : False := by
    simp [same, noCell, noDefinition, noCells] at inner
  rw [allNodes_parse] at h
  rcases List.mem_cons.1 h with rfl | h
  · have document : (parse text).value.root.kind = .document := by
      rw [value_parse]
      rfl
    refine (outer document rfl rfl (cells_eq_nil fun m hm => ?_)).elim
    rcases mem_nodes_root hm with ⟨kind, -⟩ | ⟨s, -, tree⟩
    · rw [kind]
      rfl
    · rw [(children_of_tree (tree.trans s.value_parse)).1]
      rfl
  obtain ⟨sec, hsec, h⟩ := mem_below_iff.1 h
  rcases mem_nodes_root hsec with ⟨kind, gaps⟩ | ⟨s, hs, tree⟩
  · rcases h with rfl | h
    · exact (outer kind rfl rfl (cells_of_gaps gaps)).elim
    · rw [below_eq_nodes fun t ht => (gaps t ht).isPiece] at h
      have gap := gaps _ (tree_mem_of_mem_nodes h)
      exact (outer (kind_of_isGap gap) rfl rfl (cells_of_gaps (gaps_of_isPiece gap.isPiece))).elim
  obtain ⟨headed, children⟩ := children_of_tree (tree.trans s.value_parse)
  rcases h with rfl | h
  · refine (outer headed rfl rfl (cells_eq_nil fun m hm => ?_)).elim
    have inside := tree_mem_of_mem_nodes hm
    rw [children] at inside
    rcases List.mem_cons.1 inside with heading | inside
    · rw [(children_of_tree heading).1]
      rfl
    · exact isCell_eq_false_of_holds (SectionLines.holds_of_mem_parseBody inside)
  · exact ⟨s, hs, sec, List.mem_filter.2 ⟨hsec, beq_iff_eq.2 headed⟩, tree, h⟩

end Node

end RobotAnalysis
