import RobotAnalysis.Proofs.CompleteReading
import RobotAnalysis.Proofs.NodeExtents
import RobotAnalysis.Proofs.SectionContents

/-!
# Which uses are counted

Of the variables in a document the symbol model counts as used those that stand in values, and not
inside other variables, and those in the default values of declared arguments. It counts all of
these, and all keyword calls, in every section whose kind it reads as parsing did.
-/
namespace RobotAnalysis

namespace Node

variable {n m sec : Node} {s : SectionLines} {c : Cell} {u : Mention}

/-- The uses of variables in a cell of a row that are counted. -/
def countedIn (row : Node) (cell : Cell) : List Mention :=
  match cell.kind with
  | .argument => Findings.usagesIn cell.span.start cell.text
  | .assignment => if row.declaresArguments then Findings.defaultUsages cell else []
  | _ => []

/-- Values are counted, and in rows that declare arguments the cells that do so. -/
theorem kind_of_mem_countedIn (h : u ∈ n.countedIn c) :
    (c.kind = .argument ∧ u ∈ Findings.usagesIn c.span.start c.text) ∨
      (c.kind = .assignment ∧ n.declaresArguments = true ∧ u ∈ Findings.defaultUsages c) := by
  rw [countedIn] at h
  split at h
  · exact .inl ⟨‹_›, h⟩
  · split at h
    · exact .inr ⟨‹_›, ‹_›, h⟩
    · cases h
  · cases h

theorem kind_of_declaresArguments (h : n.declaresArguments = true) : n.kind = .bracketRow := by
  rw [declaresArguments, Bool.and_eq_true, beq_iff_eq] at h
  exact h.1

/-- Outside of bodies only values are counted. -/
theorem mem_usagesOf_of_mem_countedIn (hc : c ∈ n.cells) (hu : u ∈ n.countedIn c)
    (noBracket : n.kind ≠ .bracketRow) :
    u ∈ (Findings.usagesOf (n.cellsOf .argument)).usages := by
  rcases kind_of_mem_countedIn hu with ⟨argument, hu⟩ | ⟨-, declares, -⟩
  · exact List.mem_flatMap.2 ⟨c, List.mem_filter.2 ⟨hc, beq_iff_eq.2 argument⟩, hu⟩
  · exact absurd (kind_of_declaresArguments declares) noBracket

/-- Rows of bodies count what is counted in their cells. -/
theorem mem_usages_ofBodyRow (file : FileId) (scope : VariableScope) (body : Span)
    (hc : c ∈ n.cells) (hu : u ∈ n.countedIn c) :
    u ∈ (Findings.ofBodyRow file scope body n).usages := by
  rcases kind_of_mem_countedIn hu with ⟨argument, hu⟩ | ⟨assignment, declares, hu⟩
  · refine List.mem_append_left _ (List.mem_append_right _ ?_)
    exact List.mem_flatMap.2 ⟨c, List.mem_filter.2 ⟨hc, beq_iff_eq.2 argument⟩, hu⟩
  · refine List.mem_append_right _ ?_
    rw [if_pos declares]
    exact List.mem_flatMap.2 ⟨c, List.mem_filter.2 ⟨hc, beq_iff_eq.2 assignment⟩, hu⟩

theorem mem_usages_ofImport (hu : u ∈ (Findings.usagesOf (n.cellsOf .argument)).usages) :
    u ∈ (Findings.ofImport n).usages := by
  rw [Findings.ofImport]
  split <;> exact hu

end Node

theorem Findings.mem_usages_concat_map {α : Type} {l : List α} {f : α → Findings} {a : α}
    {u : Mention} (ha : a ∈ l) (hu : u ∈ (f a).usages) : u ∈ (concat (l.map f)).usages := by
  rw [part_concat_map usages rfl (fun _ _ => rfl)]
  exact List.mem_flatMap.2 ⟨a, ha, hu⟩

/-- Rows of which nothing is known are not interpreted. -/
theorem RowForm.InUse.shape_of_otherRow {form : Row → RowForm} (h : InUse form) {r : Row}
    (other : (form r).kind = .otherRow) : (form r).shape = .other := by
  cases h with
  | ofSetting =>
    unfold RowForm.ofSetting at other ⊢
    split_ifs at other ⊢
    rfl
  | ofVariable =>
    unfold RowForm.ofVariable at other ⊢
    split_ifs at other ⊢
    rfl
  | ofBody =>
    unfold RowForm.ofBody shapeInBody at other ⊢
    split_ifs at other ⊢ <;> rfl
  | plain => rfl

namespace Node

variable {n m sec : Node} {s : SectionLines} {c : Cell} {u : Mention}

/-- The cells of a row that is not interpreted play no role. -/
theorem cells_of_otherRow {form : Row → RowForm} {r : Row}
    (tree : n.tree = (RowForm.parse form r).value) (other : (form r).shape = .other) :
    n.cells = [] := by
  have texts := n.cells_texts
  rwa [(children_of_tree tree).2, Row.cellTexts_trees, other, Roles.given_of_other rfl,
    List.map_eq_nil_iff] at texts

theorem kind_ne_otherRow {form : Row → RowForm} (used : RowForm.InUse form) (row : n.IsRow form)
    (hc : c ∈ n.cells) : n.kind ≠ .otherRow := by
  obtain ⟨r, -, tree⟩ := row
  intro other
  rw [(children_of_tree tree).1] at other
  rw [cells_of_otherRow tree (used.shape_of_otherRow other)] at hc
  cases hc

/-- Among the cells of a definition is only its name. -/
theorem kind_of_mem_cells_definition {kind : NodeKind} {d : Definition}
    (tree : n.tree = (Definition.parse kind d).value) (hc : c ∈ n.cells) :
    c.kind = .definitionName := by
  obtain ⟨children, node, holds⟩ := Definition.exists_parse kind d
  obtain ⟨-, sameChildren⟩ := children_of_tree (tree.trans node)
  obtain ⟨m, hm, cell⟩ := List.mem_filterMap.1 hc
  have inside := holds _ (sameChildren ▸ tree_mem_of_mem_nodes hm)
  have isCell := kind_of_cell? cell
  generalize same : m.tree = t at inside
  cases inside with
  | gap gap =>
    have comment := kind_of_isGap (same ▸ gap)
    simp [comment] at isCell
  | name ts =>
    have name := (children_of_tree same).1
    exact NodeKind.cell.inj (isCell.symm.trans name)
  | row r filled =>
    have row : m.IsRow RowForm.ofBody := ⟨r, filled, same⟩
    have isRow := row.isRow .ofBody
    rw [isCell] at isRow
    cases isRow

/-- What is counted stands in rows of settings, in rows of variables or in rows of bodies. -/
theorem InSection.row_of_counted (h : n.InSection sec s) (hc : c ∈ n.cells)
    (hu : u ∈ n.countedIn c) :
    (s.kind = .settings ∧ n ∈ sec.nodes ∧ n.IsRow RowForm.ofSetting) ∨
      (s.kind = .variableTable ∧ n ∈ sec.nodes ∧ n.IsRow RowForm.ofVariable) ∨
      (s.kind.holdsBodies = true ∧ n.IsRow RowForm.ofBody ∧
        ∃ around ∈ sec.nodes, around.kind.isDefinition = true ∧ n ∈ around.nodes) := by
  have noCells (none : n.cells = []) : False := by
    rw [none] at hc
    cases hc
  cases h with
  | heading _ gaps => exact (noCells (cells_of_gaps gaps)).elim
  | piece h => exact (noCells (cells_of_gaps (gaps_of_isPiece h))).elim
  | setting kind mem row => exact .inl ⟨kind, mem, row⟩
  | variableRow kind mem row => exact .inr (.inl ⟨kind, mem, row⟩)
  | definition bodies mem _ d _ tree =>
    have named := kind_of_mem_cells_definition tree hc
    rw [countedIn, named] at hu
    cases hu
  | bodyRow bodies around around_mem isDefinition mem row =>
    exact .inr (.inr ⟨bodies, row, around, around_mem, isDefinition, mem⟩)
  | other mem row =>
    obtain ⟨r, -, tree⟩ := row
    exact (noCells (cells_of_otherRow tree rfl)).elim

/-- A settings section counts what is counted in its imports and other settings. -/
theorem mem_usages_of_settingRow (mem : n ∈ sec.nodes) (row : n.IsRow RowForm.ofSetting)
    (hc : c ∈ n.cells) (hu : u ∈ n.countedIn c) :
    u ∈ (Findings.concat ((sec.nodesOf .importing).map Findings.ofImport) ++
      Findings.concat ((sec.nodesOf .setting).map Findings.ofSetting)).usages := by
  have interpreted := kind_ne_otherRow .ofSetting row hc
  obtain ⟨r, -, tree⟩ := row
  have kind := (children_of_tree tree).1
  rcases RowForm.ofSetting_cases r with ⟨importing, -⟩ | setting | ⟨other, -⟩
  · have importing : n.kind = .importing := kind.trans importing
    have found := mem_usagesOf_of_mem_countedIn hc hu (by simp [importing])
    have listed : n ∈ sec.nodesOf .importing := List.mem_filter.2 ⟨mem, beq_iff_eq.2 importing⟩
    apply List.mem_append_left
    exact Findings.mem_usages_concat_map listed (mem_usages_ofImport found)
  · have setting : n.kind = .setting := kind.trans setting
    have found := mem_usagesOf_of_mem_countedIn hc hu (by simp [setting])
    have listed : n ∈ sec.nodesOf .setting := List.mem_filter.2 ⟨mem, beq_iff_eq.2 setting⟩
    apply List.mem_append_right
    exact Findings.mem_usages_concat_map listed found
  · exact absurd (kind.trans other) interpreted

/-- A variables section counts what is counted in its rows. -/
theorem mem_usages_of_variableRow (file : FileId) (mem : n ∈ sec.nodes)
    (row : n.IsRow RowForm.ofVariable) (hc : c ∈ n.cells) (hu : u ∈ n.countedIn c) :
    u ∈ (Findings.concat
      ((sec.nodesOf .variableRow).map (Findings.ofVariableRow file))).usages := by
  have interpreted := kind_ne_otherRow .ofVariable row hc
  obtain ⟨r, -, tree⟩ := row
  have kind : n.kind = .variableRow := by
    have formed := (children_of_tree tree).1
    rcases (RowForm.ofVariable_cases r).1 with variable_ | other
    · exact formed.trans variable_
    · exact absurd (formed.trans other) interpreted
  have found := mem_usagesOf_of_mem_countedIn hc hu (by simp [kind])
  have listed : n ∈ sec.nodesOf .variableRow := List.mem_filter.2 ⟨mem, beq_iff_eq.2 kind⟩
  exact Findings.mem_usages_concat_map listed found

/-- A section of definitions counts what is counted in the rows of their bodies. -/
theorem mem_usages_of_bodyRow (file : FileId) (around_mem : m ∈ sec.nodes)
    (isDefinition : m.kind.isDefinition = true) (mem : n ∈ m.nodes)
    (row : n.IsRow RowForm.ofBody) (hc : c ∈ n.cells) (hu : u ∈ n.countedIn c) :
    u ∈ (Findings.concat (sec.definitions.map (Findings.ofDefinition file))).usages := by
  have interpreted := kind_ne_otherRow .ofBody row hc
  obtain ⟨r, -, tree⟩ := row
  have isBodyRow : n.kind.isBodyRow = true := by
    have formed := (children_of_tree tree).1
    rcases RowForm.ofBody_cases r with ⟨other, -⟩ | body
    · exact absurd (formed.trans other) interpreted
    · rw [formed, body]
  have listed : n ∈ m.bodyRows := List.mem_filter.2 ⟨mem, isBodyRow⟩
  have definition : m ∈ sec.definitions := List.mem_filter.2 ⟨around_mem, isDefinition⟩
  have found : u ∈ (Findings.ofDefinition file m).usages := by
    apply List.mem_append_right
    exact Findings.mem_usages_concat_map listed (mem_usages_ofBodyRow file _ _ hc hu)
  exact Findings.mem_usages_concat_map definition found

/-- In a section whose kind is read as parsing did everything is counted. -/
theorem mem_usages_ofSection (file : FileId) (tree : sec.tree = s.parse.value)
    (kind : sec.headingKind = s.kind) (below : n ∈ sec.below) (hc : c ∈ n.cells)
    (hu : u ∈ n.countedIn c) : u ∈ (Findings.ofSection file sec).usages := by
  rw [Findings.ofSection, kind]
  rcases (inSection_of_mem_below tree below).row_of_counted hc hu with
    ⟨settings, mem, row⟩ | ⟨table, mem, row⟩ | ⟨bodies, row, around, around_mem, isDefinition, mem⟩
  · rw [settings]
    exact mem_usages_of_settingRow mem row hc hu
  · rw [table]
    exact mem_usages_of_variableRow file mem row hc hu
  · have found := mem_usages_of_bodyRow file around_mem isDefinition mem row hc hu
    cases kind : s.kind with
    | testCases | tasks | keywords => exact found
    | settings | variableTable | comments | unknown =>
      rw [kind] at bodies
      cases bodies

/-- In a section whose kind is read as parsing did every keyword call is found. -/
theorem mem_calls_ofSection (file : FileId) (tree : sec.tree = s.parse.value)
    (kind : sec.headingKind = s.kind) (below : n ∈ sec.below) (cell : n.cell? = some c)
    (call : c.kind = .keywordCall) : ⟨c.text, c.span⟩ ∈ (Findings.ofSection file sec).calls := by
  have reported : (n.reported file).calls = [⟨n.text, n.span⟩] := by
    rw [Node.reported, kind_of_cell? cell, call]
  have all : (sec.reports file).calls =
      (sec :: sec.below).flatMap fun n => (n.reported file).calls :=
    Findings.part_concat_map Findings.calls rfl (fun _ _ => rfl) _ _
  have found : ⟨n.text, n.span⟩ ∈ (sec.reports file).calls := by
    rw [all]
    refine List.mem_flatMap.2 ⟨n, List.mem_cons_of_mem _ below, ?_⟩
    rw [reported]
    exact List.mem_cons_self
  obtain ⟨-, text, span⟩ := of_cell? cell
  rwa [reports_of_section tree kind, ← text, ← span] at found

end Node

end RobotAnalysis
