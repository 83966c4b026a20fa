import Mathlib.Data.List.Forall2
import RobotAnalysis.Proofs.FoundSymbols
import RobotAnalysis.Proofs.HeadingKinds
import RobotAnalysis.Proofs.TreeGrammar

/-!
# The symbol model as a reading of the tree

Reading a document section by section, as its symbol model does, is compared with reading its tree
node by node. Every node reports at most one thing itself: a call, an import, a test case or a
keyword; what a section finds has to be what its nodes report, in their order. This holds of every
section whose kind the model reads as the parser did, and a section for which it does not is one
with a comment on its heading.
-/
namespace RobotAnalysis

/-- A row of a body is skipped, or its kind is one that is read. -/
theorem RowForm.ofBody_cases (r : Row) :
    ((ofBody r).kind = .otherRow ∧ (ofBody r).shape = .other) ∨
      (ofBody r).kind.isBodyRow = true := by
  simp only [ofBody, shapeInBody]
  split_ifs
  · exact .inl ⟨rfl, rfl⟩
  · exact .inr rfl
  · exact .inr rfl
  · exact .inr rfl

/-- A row of a settings section is an import, another setting, or not interpreted. -/
theorem RowForm.ofSetting_cases (r : Row) :
    ((ofSetting r).kind = .importing ∧ (ofSetting r).shape = .importing ∧
        Reserved.isImportSetting r.name = true) ∨
      (ofSetting r).kind = .setting ∨
      ((ofSetting r).kind = .otherRow ∧ (ofSetting r).shape = .other) := by
  unfold ofSetting
  by_cases alone : r.head.isContinuation = true
  · rw [if_pos alone]
    exact .inr (.inr ⟨rfl, rfl⟩)
  · rw [if_neg alone]
    by_cases importing : Reserved.isImportSetting r.name = true
    · rw [if_pos importing]
      exact .inl ⟨rfl, rfl, importing⟩
    · rw [if_neg importing]
      exact .inr (.inl rfl)

/-- A row of a variables section has no call to give. -/
theorem RowForm.ofVariable_cases (r : Row) :
    ((ofVariable r).kind = .variableRow ∨ (ofVariable r).kind = .otherRow) ∧
      (ofVariable r).shape.mayCall = false := by
  unfold ofVariable
  by_cases alone : r.head.isContinuation = true
  · rw [if_pos alone]
    exact ⟨.inr rfl, rfl⟩
  · rw [if_neg alone]
    exact ⟨.inl rfl, rfl⟩

namespace Node

/-- What a node reports itself: a cell its call, an import what it imports, a definition the symbol
that its name declares. -/
def reported (file : FileId) (n : Node) : Findings :=
  match n.kind with
  | .cell .keywordCall => { Findings.none with calls := [⟨n.text, n.span⟩] }
  | .importing => { Findings.none with imports := (Findings.ofImport n).imports }
  | .testCase | .userKeyword =>
    .concat ((n.firstCell? .definitionName).toList.map (Findings.ofName file n))
  | _ => .none

/-- What a node and the nodes inside it report, in the order of the text. -/
def reports (file : FileId) (n : Node) : Findings := .concat ((n :: n.below).map (reported file))

variable {file : FileId} {n m : Node}

theorem reports_eq (n : Node) :
    n.reports file = n.reported file ++ .concat (n.nodes.map (reports file)) := by
  rw [reports, List.map_cons, Findings.concat_cons, below_eq, List.map_flatMap,
    Findings.concat_flatMap]
  rfl

/-- Cells and comments report the calls among the cells. -/
theorem concat_reports_of_pieces {l : List Node} (h : ∀ m ∈ l, m.tree.IsPiece) :
    Findings.concat (l.map (reports file)) = { Findings.none with
      calls := ((l.filterMap cell?).filter fun c => c.kind == .keywordCall).map
        fun c => ⟨c.text, c.span⟩ } := by
  induction l with
  | nil => rfl
  | cons m l ih =>
    obtain ⟨piece, rest⟩ := List.forall_mem_cons.1 h
    have alone : m.reports file = m.reported file := by
      rw [reports, below_eq_nil piece]
      exact Findings.append_none _
    rw [List.map_cons, Findings.concat_cons, ih rest, alone, List.filterMap_cons]
    rcases kind_of_isPiece piece with kind | ⟨role, kind⟩
    · simp only [reported, kind, cell?, Findings.none_append]
    · simp only [reported, kind, cell?]
      by_cases call : role = .keywordCall
      · subst call
        rfl
      · rw [List.filter_cons_of_neg (by simpa using call)]
        cases role <;> first | rfl | exact absurd rfl call

theorem firstCell?_toList {kind : CellKind} (h : (n.cellsOf kind).length ≤ 1) :
    (n.firstCell? kind).toList = n.cellsOf kind := by
  rw [firstCell?]
  match n.cellsOf kind, h with
  | [], _ => rfl
  | [c], _ => rfl

/-- A node made of pieces with at most one call among them reports itself and that call. -/
theorem reports_of_pieces (pieces : ∀ t ∈ n.children, t.IsPiece)
    (atMostOne : (n.cellsOf .keywordCall).length ≤ 1) :
    n.reports file = n.reported file ++ Findings.callOf (n.firstCell? .keywordCall) := by
  rw [reports_eq, concat_reports_of_pieces fun m hm => pieces _ (tree_mem_of_mem_nodes hm),
    Findings.callOf, firstCell?_toList atMostOne]
  rfl

theorem firstCell?_eq_none {kind : CellKind} (h : (n.cellsOf kind).length = 0) :
    n.firstCell? kind = none := by
  rw [firstCell?, List.length_eq_zero_iff.1 h]
  rfl

theorem length_cellsOf_of_gaps (gaps : ∀ t ∈ n.children, t.IsGap) (kind : CellKind) :
    (n.cellsOf kind).length = 0 := by
  rw [length_cellsOf, Tree.cellTexts_of_isGap gaps]
  rfl

theorem reports_of_gaps (gaps : ∀ t ∈ n.children, t.IsGap) (nothing : n.reported file = .none) :
    n.reports file = .none := by
  have noCall := length_cellsOf_of_gaps gaps .keywordCall
  rw [reports_of_pieces (fun t ht => (gaps t ht).isPiece) (by omega), nothing,
    firstCell?_eq_none noCall]
  rfl

/-- Cells and comments are made of tokens. -/
theorem gaps_of_isPiece (h : m.tree.IsPiece) : ∀ t ∈ m.children, t.IsGap := by
  obtain ⟨start, kind, children⟩ := m
  cases h with
  | cell _ ts | comment ts =>
    intro t ht
    obtain ⟨token, -, rfl⟩ := List.mem_map.1 ht
    exact .leaf token

theorem reports_of_isGap (h : m.tree.IsGap) : m.reports file = .none := by
  refine reports_of_gaps (gaps_of_isPiece h.isPiece) ?_
  simp only [reported, kind_of_isGap h]

/-- A row reports itself and its call, and has no call where its shape has none to give. -/
theorem reports_of_row {kind : NodeKind} {shape : RowShape} {r : Row}
    (h : m.tree = .node kind (r.trees shape)) :
    m.reports file = m.reported file ++ Findings.callOf (m.firstCell? .keywordCall) ∧
      (shape.mayCall = false → m.firstCell? .keywordCall = none) := by
  obtain ⟨-, children⟩ := children_of_tree h
  have bound := r.length_calls_le shape
  rw [← children, ← length_cellsOf] at bound
  constructor
  · refine reports_of_pieces ?_ (Nat.le_trans bound (by split <;> omega))
    rw [children]
    exact fun t ht => Row.isPiece_of_mem_trees ht
  · intro mute
    rw [mute] at bound
    exact firstCell?_eq_none (by simpa using bound)

/-- Rows of a body report nothing themselves. -/
theorem reported_of_bodyRow (h : n.kind = .otherRow ∨ n.kind.isBodyRow = true) :
    n.reported file = .none := by
  rw [reported]
  rcases h with other | body
  · rw [other]
  · cases kind : n.kind <;> first | rfl | (rw [kind] at body; cases body)

/-- A row of a body reports its call, and none is left out with the rows that a reader skips. -/
theorem reports_of_bodyRow {r : Row} (h : m.tree = (RowForm.parse RowForm.ofBody r).value) :
    m.reports file = Findings.callOf (m.firstCell? .keywordCall) ∧
      (m.kind.isBodyRow = false → m.firstCell? .keywordCall = none) := by
  obtain ⟨kind, -⟩ := children_of_tree h
  obtain ⟨reports, mute⟩ : m.reports file = _ ∧ _ := reports_of_row h
  rcases RowForm.ofBody_cases r with ⟨other, shape⟩ | body
  · have skipped : m.kind = .otherRow := kind.trans other
    rw [reports, reported_of_bodyRow (.inl skipped), Findings.none_append]
    refine ⟨rfl, fun _ => mute ?_⟩
    rw [shape]
    rfl
  · have read : m.kind.isBodyRow = true := kind ▸ body
    rw [reports, reported_of_bodyRow (.inr read), Findings.none_append]
    exact ⟨rfl, fun skipped => absurd read (by simp [skipped])⟩

/-- A definition reports its name and then the calls of the rows of its body. -/
theorem reports_of_definition {kind : NodeKind} (isDefinition : kind.isDefinition = true)
    {d : Definition} (h : n.tree = (Definition.parse kind d).value) :
    n.reports file = (Findings.ofDefinition file n).symbols := by
  obtain ⟨children, tree, holds⟩ := Definition.exists_parse kind d
  obtain ⟨sameKind, sameChildren⟩ := children_of_tree (h.trans tree)
  have itself : n.reported file =
      .concat ((n.firstCell? .definitionName).toList.map (Findings.ofName file n)) := by
    rw [reported, sameKind]
    cases kind <;> first | rfl | cases isDefinition
  have inside : ∀ m ∈ n.nodes,
      (m.kind.isBodyRow = false → m.reports file = .none) ∧
        (m.kind.isBodyRow = true →
          m.reports file = Findings.callOf (m.firstCell? .keywordCall)) := by
    intro m hm
    have held := holds _ (sameChildren ▸ tree_mem_of_mem_nodes hm)
    generalize same : m.tree = t at held
    cases held with
    | gap gap =>
      have gap : m.tree.IsGap := same ▸ gap
      exact ⟨fun _ => reports_of_isGap gap, by simp [kind_of_isGap gap, NodeKind.isBodyRow]⟩
    | name ts =>
      have piece : m.tree.IsPiece := same ▸ .cell _ ts
      obtain ⟨cell, -⟩ := children_of_tree same
      refine ⟨fun _ => ?_, by simp [cell, NodeKind.isBodyRow]⟩
      rw [reports, below_eq_nil piece]
      simp only [List.map_cons, List.map_nil, Findings.concat_cons, reported, cell]
      rfl
    | row r filled =>
      obtain ⟨reports, mute⟩ : m.reports file = _ ∧ _ := reports_of_bodyRow same
      refine ⟨fun skipped => ?_, fun _ => reports⟩
      rw [reports, mute skipped]
      rfl
  rw [reports_eq, itself, Findings.ofDefinition, Findings.symbols_append,
    Findings.symbols_concat_map, Findings.symbols_concat_map]
  congr 1
  · refine congrArg _ (List.map_congr_left fun name _ => ?_)
    exact (Findings.symbols_ofName file n name).symm
  · rw [Findings.concat_map_filter fun m hm => (inside m hm).1]
    refine congrArg _ (List.map_congr_left fun m hm => ?_)
    obtain ⟨mem, body⟩ := List.mem_filter.1 hm
    rw [(inside m mem).2 body]
    exact (Findings.symbols_ofBodyRow file _ _ m).symm

theorem reports_of_muteRow {kind : NodeKind} {shape : RowShape} {r : Row}
    (h : m.tree = .node kind (r.trees shape)) (mute : shape.mayCall = false)
    (nothing : m.reported file = .none) : m.reports file = .none := by
  obtain ⟨reports, noCall⟩ : m.reports file = _ ∧ _ := reports_of_row h
  rw [reports, nothing, noCall mute]
  rfl

/-- A row of a settings section reports its import or its call. -/
theorem reports_of_settingRow {r : Row}
    (h : m.tree = (RowForm.parse RowForm.ofSetting r).value) :
    (m.kind = .importing ∧ m.reports file = (Findings.ofImport m).symbols) ∨
      (m.kind = .setting ∧ m.reports file = Findings.callOf (m.firstCell? .keywordCall)) ∨
      (m.kind = .otherRow ∧ m.reports file = .none) := by
  obtain ⟨kind, -⟩ := children_of_tree h
  obtain ⟨reports, noCall⟩ : m.reports file = _ ∧ _ := reports_of_row h
  rcases RowForm.ofSetting_cases r with ⟨importing, shape, -⟩ | setting | ⟨other, shape⟩
  · rw [importing] at kind
    refine .inl ⟨kind, ?_⟩
    rw [reports, noCall (by rw [shape]; rfl), reported, kind, Findings.symbols_ofImport]
    exact Findings.append_none _
  · rw [setting] at kind
    refine .inr (.inl ⟨kind, ?_⟩)
    rw [reports, reported, kind, Findings.none_append]
  · rw [other] at kind
    refine .inr (.inr ⟨kind, reports_of_muteRow h (by rw [shape]; rfl) ?_⟩)
    rw [reported, kind]

/-- The children of a section are its heading and what the kind of the section demands. -/
theorem children_of_section {s : SectionLines} (h : n.tree = s.parse.value) (hm : m ∈ n.nodes) :
    (m.reports file = .none ∧ m.kind = .heading) ∨ SectionLines.Holds s.kind m.tree := by
  obtain ⟨-, children⟩ := children_of_tree (h.trans s.value_parse)
  have inside := tree_mem_of_mem_nodes hm
  rw [children] at inside
  rcases List.mem_cons.1 inside with heading | inside
  · obtain ⟨kind, gaps⟩ := children_of_tree heading
    refine .inl ⟨reports_of_gaps ?_ ?_, kind⟩
    · exact gaps ▸ fun t ht => Line.isGap_of_mem_bare ht
    · rw [reported, kind]
  · exact .inr (SectionLines.holds_of_mem_parseBody inside)

/-- The rows of a settings section report what is read of imports and of other settings. -/
theorem reports_in_settings (h : SectionLines.Holds .settings m.tree) :
    (m.kind = .importing ∧ m.reports file = (Findings.ofImport m).symbols) ∨
      (m.kind = .setting ∧ m.reports file = Findings.callOf (m.firstCell? .keywordCall)) ∨
      (m.kind ≠ .importing ∧ m.kind ≠ .setting ∧ m.reports file = .none) := by
  generalize same : m.tree = t at h
  cases h with
  | gap gap =>
    have gap : m.tree.IsGap := same ▸ gap
    exact .inr (.inr ⟨by simp [kind_of_isGap gap], by simp [kind_of_isGap gap],
      reports_of_isGap gap⟩)
  | setting r filled =>
    rcases reports_of_settingRow (m := m) same with importing | setting | ⟨other, reports⟩
    · exact .inl importing
    · exact .inr (.inl setting)
    · exact .inr (.inr ⟨by simp [other], by simp [other], reports⟩)
  | testCase holds d => cases holds
  | other kind r filled => rcases kind with kind | kind <;> cases kind

/-- Definitions report what is read of them, and nothing else in their sections reports anything. -/
theorem reports_in_definitions {kind : HeadingKind} (holdsBodies : kind.holdsBodies = true)
    (h : SectionLines.Holds kind m.tree) :
    (m.kind.isDefinition = false ∧ m.reports file = .none) ∨
      (m.kind.isDefinition = true ∧ m.reports file = (Findings.ofDefinition file m).symbols) := by
  have definition {nodeKind : NodeKind} (isDefinition : nodeKind.isDefinition = true)
      {d : Definition} (same : m.tree = (Definition.parse nodeKind d).value) :
      m.kind.isDefinition = true ∧ m.reports file = (Findings.ofDefinition file m).symbols := by
    obtain ⟨children, tree, -⟩ := Definition.exists_parse nodeKind d
    refine ⟨?_, reports_of_definition isDefinition same⟩
    rw [(children_of_tree (same.trans tree)).1, isDefinition]
  generalize same : m.tree = t at h
  cases h with
  | gap gap =>
    have gap : m.tree.IsGap := same ▸ gap
    exact .inl ⟨by rw [kind_of_isGap gap]; rfl, reports_of_isGap gap⟩
  | setting r filled => cases holdsBodies
  | variableRow r filled => cases holdsBodies
  | testCase holds d => exact .inr (definition rfl same)
  | keyword d => exact .inr (definition rfl same)
  | other kind r filled => rcases kind with rfl | rfl <;> cases holdsBodies

/-- Nothing reports anything in sections of the other kinds. -/
theorem reports_in_others {kind : HeadingKind} (noSettings : kind ≠ .settings)
    (noBodies : kind.holdsBodies = false) (h : SectionLines.Holds kind m.tree) :
    m.reports file = .none := by
  generalize same : m.tree = t at h
  cases h with
  | gap gap =>
    have gap : m.tree.IsGap := same ▸ gap
    exact reports_of_isGap gap
  | setting r filled => exact absurd rfl noSettings
  | variableRow r filled =>
    obtain ⟨kinds, mute⟩ := RowForm.ofVariable_cases r
    obtain ⟨kind, -⟩ := children_of_tree same
    refine reports_of_muteRow same mute ?_
    rw [reported, kind]
    rcases kinds with row | other
    · rw [row]
    · rw [other]
  | testCase holds d => simp [HeadingKind.holdsBodies, holds] at noBodies
  | keyword d => cases noBodies
  | other kind r filled =>
    obtain ⟨other, -⟩ := children_of_tree same
    refine reports_of_muteRow same rfl ?_
    rw [reported, other]
    rfl

/-- A settings section reports its imports and then the calls of its other settings. -/
theorem concat_reports_in_settings
    (h : ∀ m ∈ n.nodes, m.reports file = .none ∧ m.kind = .heading ∨
      SectionLines.Holds .settings m.tree) :
    .concat (n.nodes.map (reports file)) =
      Findings.concat ((n.nodesOf .importing).map fun m => (Findings.ofImport m).symbols) ++
        Findings.concat ((n.nodesOf .setting).map fun m =>
          Findings.callOf (m.firstCell? .keywordCall)) := by
  have child : ∀ m ∈ n.nodes,
      (m.kind = .importing ∧ m.reports file = (Findings.ofImport m).symbols) ∨
        (m.kind = .setting ∧ m.reports file = Findings.callOf (m.firstCell? .keywordCall)) ∨
        (m.kind ≠ .importing ∧ m.kind ≠ .setting ∧ m.reports file = .none) := by
    intro m hm
    rcases h m hm with ⟨nothing, heading⟩ | holds
    · exact .inr (.inr ⟨by simp [heading], by simp [heading], nothing⟩)
    · exact reports_in_settings holds
  refine Findings.concat_map_eq_append ?_ ?_ ?_ ?_ ?_
  · intro m hm importing
    have kind : m.kind = .importing := beq_iff_eq.1 importing
    rcases child m hm with ⟨-, reports⟩ | ⟨setting, -⟩ | ⟨other, -⟩
    · exact reports
    · simp [setting] at kind
    · exact absurd kind other
  · intro m hm setting
    have kind : m.kind = .setting := beq_iff_eq.1 setting
    rcases child m hm with ⟨importing, -⟩ | ⟨-, reports⟩ | ⟨-, other, -⟩
    · simp [importing] at kind
    · exact reports
    · exact absurd kind other
  · intro m hm noImport noSetting
    rcases child m hm with ⟨importing, -⟩ | ⟨setting, -⟩ | ⟨-, -, reports⟩
    · simp [importing] at noImport
    · simp [setting] at noSetting
    · exact reports
  · intro m importing
    simp [beq_iff_eq.1 importing]
  · exact fun a b => Findings.symbols_ofImport_append_callOf a _

/-- A section of definitions reports what its definitions do. -/
theorem concat_reports_in_definitions {kind : HeadingKind} (holdsBodies : kind.holdsBodies = true)
    (h : ∀ m ∈ n.nodes, m.reports file = .none ∧ m.kind = .heading ∨
      SectionLines.Holds kind m.tree) :
    .concat (n.nodes.map (reports file)) =
      Findings.concat (n.definitions.map fun m => (Findings.ofDefinition file m).symbols) := by
  have child : ∀ m ∈ n.nodes, (m.kind.isDefinition = false ∧ m.reports file = .none) ∨
      (m.kind.isDefinition = true ∧ m.reports file = (Findings.ofDefinition file m).symbols) := by
    intro m hm
    rcases h m hm with ⟨nothing, heading⟩ | holds
    · exact .inl ⟨by rw [heading]; rfl, nothing⟩
    · exact reports_in_definitions holdsBodies holds
  have silent : ∀ m ∈ n.nodes, m.kind.isDefinition = false → m.reports file = .none := by
    intro m hm no
    rcases child m hm with ⟨-, reports⟩ | ⟨yes, -⟩
    · exact reports
    · simp [no] at yes
  rw [Findings.concat_map_filter silent]
  refine congrArg _ (List.map_congr_left fun m hm => ?_)
  obtain ⟨mem, yes⟩ := List.mem_filter.1 hm
  rcases child m mem with ⟨no, -⟩ | ⟨-, reports⟩
  · simp [no] at yes
  · exact reports

/-- A section reports what the model finds in it, once the model reads its kind as parsing did. -/
theorem reports_of_section {s : SectionLines} (h : n.tree = s.parse.value)
    (kind : n.headingKind = s.kind) : n.reports file = (Findings.ofSection file n).symbols := by
  have itself : n.reported file = .none := by
    rw [reported, (children_of_tree (h.trans s.value_parse)).1]
  have inside : ∀ m ∈ n.nodes, m.reports file = .none ∧ m.kind = .heading ∨
      SectionLines.Holds s.kind m.tree := fun m hm => children_of_section h hm
  have silent (noSettings : s.kind ≠ .settings) (noBodies : s.kind.holdsBodies = false) :
      Findings.concat (n.nodes.map (reports file)) = .none := by
    refine Findings.concat_map_eq_none fun m hm => ?_
    rcases inside m hm with ⟨nothing, -⟩ | holds
    · exact nothing
    · exact reports_in_others noSettings noBodies holds
  have bodies (holdsBodies : s.kind.holdsBodies = true) :
      Findings.concat (n.nodes.map (reports file)) =
        (Findings.concat (n.definitions.map (Findings.ofDefinition file))).symbols := by
    rw [concat_reports_in_definitions holdsBodies inside, Findings.symbols_concat_map]
  rw [reports_eq, itself, Findings.none_append, Findings.ofSection, kind]
  cases same : s.kind with
  | settings =>
    rw [same] at inside
    simp only [concat_reports_in_settings inside, Findings.symbols_append,
      Findings.symbols_concat_map, Findings.symbols_ofSetting]
  | variableTable =>
    rw [silent (by simp [same]) (by rw [same]; rfl), Findings.symbols_concat_map,
      Findings.concat_map_eq_none fun m _ => Findings.symbols_ofVariableRow file m]
  | testCases => exact bodies (by rw [same]; rfl)
  | tasks => exact bodies (by rw [same]; rfl)
  | keywords => exact bodies (by rw [same]; rfl)
  | comments => exact silent (by simp [same]) (by rw [same]; rfl)
  | unknown => exact silent (by simp [same]) (by rw [same]; rfl)

end Node

end RobotAnalysis
