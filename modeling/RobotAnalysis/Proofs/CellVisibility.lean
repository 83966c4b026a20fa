import RobotAnalysis.Proofs.CountedUses
import RobotAnalysis.Proofs.DefinitionLines
import RobotAnalysis.Proofs.SymbolPlaces

/-!
# Visibility over a cell

A usage is resolved at the offset where it begins and a cursor at the offset where it stands, so the
two have to see the same variables. A variable confined to a definition is visible from the start of
the definition to the offset just after it. A cell that is counted is not at the start of its row,
and no definition begins where a cell ends, so over such a cell the variable is visible at every
offset or at none.
-/
namespace RobotAnalysis

namespace Roles

variable {shape : RowShape} {cell : Text}

/-- The role of a first cell is never that of a value, and that of an assignment only where a
keyword is called. -/
theorem role_of_first {kind : CellKind} (h : ((start shape).next cell).1 = some kind) :
    kind ≠ .argument ∧ (kind = .assignment → shape = .call) := by
  cases shape with
  | other => cases h
  | call =>
    have role : (if VariableToken.isWholeCell cell then .assignment else .keywordCall) = kind := by
      by_cases whole : VariableToken.isWholeCell cell = true <;>
        simpa [next, ofCall, start, whole] using h
    refine ⟨?_, fun _ => rfl⟩
    rw [← role]
    split <;> simp
  | bracket fixture arguments => cases arguments <;> cases h <;> simp [start]
  | setting | importing | variableRow | control =>
    cases h
    simp [start]

/-- The first cell of a row gets a role unless no cell of the row gets any. -/
theorem head?_given_start (cells : List Text) :
    ((start shape).given (cell :: cells)).head? = ((start shape).next cell).1.map (·, cell) := by
  cases shape with
  | other => rw [given_of_other rfl]; rfl
  | call =>
    by_cases whole : VariableToken.isWholeCell cell = true <;>
      simp [given, next, ofCall, start, whole]
  | bracket fixture arguments => cases arguments <;> rfl
  | setting | importing | variableRow | control => rfl

end Roles

theorem RowForm.InUse.kind_of_call {form : Row → RowForm} (h : InUse form) {r : Row}
    (call : (form r).shape = .call) : (form r).kind = .callRow := by
  cases h with
  | ofSetting =>
    unfold RowForm.ofSetting at call ⊢
    split_ifs at call ⊢
    cases call
  | ofVariable =>
    unfold RowForm.ofVariable at call ⊢
    split_ifs at call ⊢
    cases call
  | ofBody =>
    unfold RowForm.ofBody shapeInBody at call ⊢
    split_ifs at call ⊢ <;> rfl
  | plain => cases call

namespace Node

variable {text : Text} {n m sec : Node} {s : SectionLines} {c : Cell} {u : Mention}

/-- What is counted stands in a row. -/
theorem exists_row_of_counted (h : n ∈ (parse text).value.allNodes) (hc : c ∈ n.cells)
    (hu : u ∈ n.countedIn c) : ∃ form, RowForm.InUse form ∧ n.IsRow form := by
  obtain ⟨s, -, sec, -, tree, below⟩ :=
    exists_section_above h (.inr (.inr (List.ne_nil_of_mem hc)))
  rcases (inSection_of_mem_below tree below).row_of_counted hc hu with
    ⟨-, -, row⟩ | ⟨-, -, row⟩ | ⟨-, row, -⟩
  · exact ⟨_, .ofSetting, row⟩
  · exact ⟨_, .ofVariable, row⟩
  · exact ⟨_, .ofBody, row⟩

/-- A cell that is counted is not the first one of its row. -/
theorem head?_ne_of_counted {form : Row → RowForm} (used : RowForm.InUse form)
    (row : n.IsRow form) (hu : u ∈ n.countedIn c) :
    (Tree.cellTexts n.children).head? ≠ some (c.kind, c.text) := by
  obtain ⟨r, filled, tree⟩ := row
  obtain ⟨kind, children⟩ := children_of_tree tree
  intro first
  rw [children] at first
  obtain ⟨rest, cells⟩ := Row.cells_eq_cons filled
  rw [Row.cellTexts_trees, cells, Roles.head?_given_start, Option.map_eq_some_iff] at first
  obtain ⟨role, first, same⟩ := first
  obtain rfl : role = c.kind := congrArg Prod.fst same
  obtain ⟨noArgument, ofCall⟩ := Roles.role_of_first first
  rcases kind_of_mem_countedIn hu with ⟨argument, -⟩ | ⟨assignment, declares, -⟩
  · exact noArgument argument
  · have callRow := used.kind_of_call (ofCall assignment)
    rw [← kind, kind_of_declaresArguments declares] at callRow
    cases callRow

theorem mem_tokenize_of_mem_leavesOf (h : n ∈ (parse text).value.allNodes) {t : Token}
    (ht : t ∈ Tree.leavesOf n.children) : t ∈ tokenize text := by
  obtain ⟨before, behind, leaves, -⟩ := Tree.exists_split_of_mem_nodesIn 0 _ n h
  rw [leaves_parse] at leaves
  rw [leaves]
  exact List.mem_append_right _ (List.mem_append_left _ ht)

/-- A cell that is counted begins after its row. -/
theorem start_lt_of_counted (h : n ∈ (parse text).value.allNodes) (hc : c ∈ n.cells)
    (hu : u ∈ n.countedIn c) : n.start < c.span.start := by
  obtain ⟨form, used, row⟩ := exists_row_of_counted h hc hu
  obtain ⟨m, hm, cell⟩ := List.mem_filterMap.1 hc
  obtain ⟨before, behind, children, place⟩ := Tree.exists_split_of_mem_nodesFrom hm
  have start : c.span.start = n.start + Token.sizeOf (Tree.leavesOf before) := by
    rw [span_of_cell? cell, ← place]
    rfl
  have some : Tree.leavesOf before ≠ [] := by
    cases before with
    | nil =>
      refine absurd ?_ (head?_ne_of_counted used row hu)
      obtain ⟨kind, text, -⟩ := of_cell? cell
      rw [children, List.nil_append, Tree.cellTexts, tree, kind, text]
      rfl
    | cons t ts =>
      have filled := leaves_ne_nil_of_row h used row t (children ▸ List.mem_cons_self)
      exact fun none => filled (List.append_eq_nil_iff.1 none).1
  have filled : ∀ t ∈ Tree.leavesOf before, t.text ≠ [] := fun t ht => by
    refine Token.text_ne_nil_of_mem_tokenize (mem_tokenize_of_mem_leavesOf h ?_)
    rw [children, Tree.leavesOf_append]
    exact List.mem_append_left _ ht
  have := Token.sizeOf_pos filled some
  omega

/-- No definition begins where a cell ends. -/
theorem stop_ne_start_of_isDefinition (hm : m ∈ (parse text).value.allNodes)
    (cell : m.kind.isCell = true) (hn : n ∈ (parse text).value.allNodes)
    (isDefinition : n.kind.isDefinition = true) : m.span.stop ≠ n.start := by
  obtain ⟨some, noBreak⟩ := tokens_of_cell hm cell
  obtain ⟨before, behind, leaves, start⟩ := Tree.exists_split_of_mem_nodesIn 0 _ m hm
  obtain ⟨lines, t, isBefore, place, isLast, newline⟩ := exists_newline_before hn isDefinition
  intro same
  -- The same tokens would come before the definition and end with the cell.
  have ends : Token.sizeOf (before ++ Tree.leavesOf m.children) = Token.sizeOf lines := by
    rw [← place, ← same, Token.sizeOf_append, span_eq, Span.stop, start, Nat.zero_add]
  rw [leaves_parse, ← List.append_assoc] at leaves
  have filled : ∀ t ∈ tokenize text, t.text ≠ [] := fun t => Token.text_ne_nil_of_mem_tokenize
  have tokens := Token.eq_of_sizeOf_eq filled ⟨behind, leaves.symm⟩ isBefore ends
  rw [← tokens, List.getLast?_append_of_ne_nil _ some] at isLast
  exact noBreak t (List.mem_of_getLast? isLast) newline

/-- Over a cell that is counted a definition is everywhere or nowhere. -/
theorem touches_eq_of_counted (hm : m ∈ (parse text).value.allNodes)
    (isDefinition : m.kind.isDefinition = true) (hn : n ∈ (parse text).value.allNodes)
    (hc : c ∈ n.cells) (hu : u ∈ n.countedIn c) {x y : Nat} (hx : c.span.touches x = true)
    (hy : c.span.touches y = true) : m.span.touches x = m.span.touches y := by
  obtain ⟨form, used, row⟩ := exists_row_of_counted hn hc hu
  obtain ⟨k, hk, cell⟩ := List.mem_filterMap.1 hc
  obtain ⟨first, last⟩ := isWithin_of_mem_below (mem_below_of_mem_nodes hk)
  have later := start_lt_of_counted hn hc hu
  rw [span_of_cell? cell, start_span] at later
  rw [span_of_cell? cell, Span.touches_iff, start_span] at hx hy
  rw [Bool.eq_iff_iff, Span.touches_iff, Span.touches_iff, start_span]
  cases Tree.apart_of_mem_allNodes hm hn with
  | same h =>
    rw [h, row.isDefinition_eq_false used] at isDefinition
    cases isDefinition
  | inside h =>
    rw [isDefinition_of_isPiece (isPiece_of_mem_below row.pieces h)] at isDefinition
    cases isDefinition
  | around h =>
    obtain ⟨lower, upper⟩ := isWithin_of_mem_below h
    omega
  | before h =>
    -- The definition touches the start of the row, but the cell begins after it.
    have ended : m.span.stop ≤ n.start := h
    omega
  | behind h =>
    -- The cell may reach up to the end of the row, but a line break comes before the definition.
    have begins : n.span.stop ≤ m.start := h
    have isCell : k.kind.isCell = true := by
      rw [kind_of_cell? cell]
      rfl
    have apart := stop_ne_start_of_isDefinition (mem_allNodes_of_mem_nodes hn hk) isCell hm
      isDefinition
    omega

end Node

namespace Findings

variable {file : FileId} {v : Variable}

theorem exists_of_mem_vars_concat_map {α : Type} {l : List α} {f : α → Findings}
    (h : v ∈ (concat (l.map f)).vars) : ∃ a ∈ l, v ∈ (f a).vars := by
  rw [part_concat_map vars rfl (fun _ _ => rfl)] at h
  exact List.mem_flatMap.1 h

theorem visibility_of_mem_declaredBy {scope : VariableScope} {cell : Cell}
    (h : v ∈ declaredBy file scope cell) : v.visibility = .everywhere := by
  rw [declaredBy] at h
  split at h
  · rw [List.mem_singleton.1 h]
    rfl
  · cases h

theorem visibility_of_mem_setBy {row : Node} (h : v ∈ setBy file row) :
    v.visibility = .everywhere := by
  rw [setBy] at h
  split at h
  · split at h
    · exact visibility_of_mem_declaredBy h
    · cases h
  · cases h

/-- Rows of a body confine variables to the body or to nothing. -/
theorem visibility_of_mem_ofBodyRow {scope : VariableScope} {body : Span} {row : Node}
    (h : v ∈ (ofBodyRow file scope body row).vars) :
    v.visibility = .everywhere ∨ v.visibility = .within file body := by
  have declared : (ofBodyRow file scope body row).vars =
      (row.cellsOf .assignment).flatMap (assignedBy file scope body) ++ setBy file row ++
        [] ++ [] ++ [] := rfl
  simp only [declared, List.append_nil] at h
  rcases List.mem_append.1 h with assigned | set
  · obtain ⟨cell, -, assigned⟩ := List.mem_flatMap.1 assigned
    obtain ⟨token, -, rfl⟩ := List.mem_map.1 assigned
    exact .inr rfl
  · exact .inl (visibility_of_mem_setBy set)

/-- A definition confines variables to itself or to nothing. -/
theorem visibility_of_mem_ofDefinition {body : Node} (h : v ∈ (ofDefinition file body).vars) :
    v.visibility = .everywhere ∨ v.visibility = .within file body.span := by
  rcases List.mem_append.1 h with h | h
  · obtain ⟨name, -, h⟩ := exists_of_mem_vars_concat_map h
    rw [ofName] at h
    split at h <;> cases h
  · obtain ⟨row, -, h⟩ := exists_of_mem_vars_concat_map h
    exact visibility_of_mem_ofBodyRow h

/-- In a section variables are confined to its definitions or to nothing. -/
theorem visibility_of_mem_ofSection {sec : Node} (h : v ∈ (ofSection file sec).vars) :
    v.visibility = .everywhere ∨
      ∃ body ∈ sec.definitions, v.visibility = .within file body.span := by
  have ofDefinitions (h : v ∈ (concat (sec.definitions.map (ofDefinition file))).vars) :
      v.visibility = .everywhere ∨
        ∃ body ∈ sec.definitions, v.visibility = .within file body.span := by
    obtain ⟨body, mem, h⟩ := exists_of_mem_vars_concat_map h
    exact (visibility_of_mem_ofDefinition h).imp_right fun confined => ⟨body, mem, confined⟩
  rw [ofSection] at h
  split at h
  · rcases List.mem_append.1 h with h | h
    · obtain ⟨row, -, h⟩ := exists_of_mem_vars_concat_map h
      rw [ofImport] at h
      split at h <;> cases h
    · obtain ⟨row, -, h⟩ := exists_of_mem_vars_concat_map h
      cases h
  · obtain ⟨row, -, h⟩ := exists_of_mem_vars_concat_map h
    obtain ⟨cell, -, declared⟩ := List.mem_flatMap.1 h
    exact .inl (visibility_of_mem_declaredBy declared)
  iterate 3 exact ofDefinitions h
  iterate 2 cases h

end Findings

/-- The definitions of a section are nodes of the tree. -/
theorem Node.mem_allNodes_of_mem_definitions {text : Text} {sec body : Node}
    (hsec : sec ∈ (parse text).value.root.sections) (h : body ∈ sec.definitions) :
    body ∈ (parse text).value.allNodes ∧ body.kind.isDefinition = true := by
  obtain ⟨mem, isDefinition⟩ := List.mem_filter.1 h
  exact ⟨mem_allNodes_of_mem_nodes (mem_allNodes_of_mem_sections hsec) mem, isDefinition⟩

namespace Variable

variable {v : Variable} {file owner : FileId} {span : Span} {offset : Nat}

theorem isVisibleAt_of_everywhere (h : v.visibility = .everywhere) :
    v.isVisibleAt file offset = true := by
  rw [isVisibleAt, h]

theorem isVisibleAt_of_within (h : v.visibility = .within owner span) :
    v.isVisibleAt file offset = (owner == file && span.touches offset) := by
  rw [isVisibleAt, h]

end Variable

/-- A document confines variables to its definitions or to nothing. -/
theorem Document.visibility_of_mem_vars {d : Document} {v : Variable} (h : v ∈ d.vars) :
    v.visibility = .everywhere ∨ ∃ sec ∈ d.source.tree.root.sections, ∃ body ∈ sec.definitions,
      v.visibility = .within d.id body.span := by
  obtain ⟨s, hs, hv⟩ := List.mem_flatMap.1 (Sequence.mem_of_mem_distinctBy h)
  obtain ⟨sec, hsec, rfl⟩ := List.mem_map.1 hs
  exact (Findings.visibility_of_mem_ofSection hv).imp_right fun confined => ⟨sec, hsec, confined⟩

namespace Workspace

variable {ws : Workspace} {d : Document} {text : Text} {v : Variable}

/-- A variable in sight is one of the document itself or of another one, or confined to nothing. -/
theorem visibility_of_mem_visibleVariables (h : v ∈ ws.visibleVariables d) :
    v.visibility = .everywhere ∨ v ∈ d.vars ∨ ∃ e, ws.document? e.id = some e ∧ v ∈ e.vars := by
  rcases List.mem_append.1 (Sequence.mem_of_mem_distinctBy h) with h | h
  · refine (List.mem_append.1 h).imp (fun h => ?_) .inl
    rw [builtInVariables, BuiltIn.vars] at h
    split at h
    · obtain ⟨entry, -, rfl⟩ := List.mem_map.1 h
      rfl
    · cases h
  · obtain ⟨target, -, h⟩ := List.mem_flatMap.1 h
    cases target with
    | document file =>
      rw [variablesOfTarget] at h
      cases found : ws.document? file with
      | none => simp [found] at h
      | some e =>
        rw [found] at h
        exact .inr (.inr ⟨e, by rw [id_of_document? found, found], h⟩)
    | library _ _ => cases h
    | module m =>
      obtain ⟨name, -, rfl⟩ := List.mem_map.1 h
      exact .inl rfl

/-- Over a cell that is counted a variable is visible everywhere or nowhere. -/
theorem isVisibleAt_eq_of_counted (known : ws.document? d.id = some d)
    (parsed : d.source.tree = (parse text).value) (hv : v ∈ ws.visibleVariables d) {n : Node}
    {c : Cell} {u : Mention} (hn : n ∈ (parse text).value.allNodes) (hc : c ∈ n.cells)
    (hu : u ∈ n.countedIn c) {x y : Nat} (hx : c.span.touches x = true)
    (hy : c.span.touches y = true) : v.isVisibleAt d.id x = v.isVisibleAt d.id y := by
  have own (h : v ∈ d.vars) : v.isVisibleAt d.id x = v.isVisibleAt d.id y := by
    rcases d.visibility_of_mem_vars h with everywhere | ⟨sec, hsec, body, mem, confined⟩
    · simp only [Variable.isVisibleAt_of_everywhere everywhere]
    · rw [parsed] at hsec
      obtain ⟨mem, isDefinition⟩ := Node.mem_allNodes_of_mem_definitions hsec mem
      rw [Variable.isVisibleAt_of_within confined, Variable.isVisibleAt_of_within confined,
        Node.touches_eq_of_counted mem isDefinition hn hc hu hx hy]
  rcases visibility_of_mem_visibleVariables hv with everywhere | h | ⟨e, found, h⟩
  · simp only [Variable.isVisibleAt_of_everywhere everywhere]
  · exact own h
  · by_cases same : e.id = d.id
    -- A document may import itself.
    · rw [same, known] at found
      exact own (Option.some.inj found ▸ h)
    rcases e.visibility_of_mem_vars h with everywhere | ⟨sec, -, body, -, confined⟩
    · simp only [Variable.isVisibleAt_of_everywhere everywhere]
    · rw [Variable.isVisibleAt_of_within confined, Variable.isVisibleAt_of_within confined,
        beq_eq_false_iff_ne.2 same, Bool.false_and, Bool.false_and]

/-- A usage is resolved alike at all offsets of the counted cell that it stands in. -/
theorem resolveVariable?_eq_of_counted (known : ws.document? d.id = some d)
    (parsed : d.source.tree = (parse text).value) {n : Node} {c : Cell} {u : Mention}
    (hn : n ∈ (parse text).value.allNodes) (hc : c ∈ n.cells) (hu : u ∈ n.countedIn c) {x y : Nat}
    (hx : c.span.touches x = true) (hy : c.span.touches y = true) (usage : Text) :
    (Scope.ofDocument ws d).resolveVariable? usage x =
      (Scope.ofDocument ws d).resolveVariable? usage y := by
  have visible : (Scope.ofDocument ws d).variablesAt x = (Scope.ofDocument ws d).variablesAt y :=
    List.filter_congr fun v hv => isVisibleAt_eq_of_counted known parsed hv hn hc hu hx hy
  rw [Scope.resolveVariable?, Scope.resolveVariable?, visible]

end Workspace

end RobotAnalysis
