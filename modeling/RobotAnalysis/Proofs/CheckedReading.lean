import RobotAnalysis.Checked.Reading
import RobotAnalysis.Proofs.CheckedVariables
import RobotAnalysis.Proofs.FaithfulFindings

/-!
# Sections are read with checks

Every cell of a document stands where its text is shown, so what is found in a cell stays a word
when it is moved to where the cell stands. Reading a section with checks then has the answer of the
reading without, one lemma for each kind of row.
-/
namespace RobotAnalysis.Checked

section mapM

variable {α β γ : Type}

theorem mapM_map_eq {l : List α} {f : α → β} {q : β → Checked γ} {g : α → γ}
    (h : ∀ a ∈ l, q (f a) = some (g a)) : (l.map f).mapM q = some (l.map g) := by
  induction l with
  | nil => rfl
  | cons a l ih =>
    rw [List.map_cons, List.mapM_cons, h a List.mem_cons_self,
      ih fun a ha => h a (List.mem_cons_of_mem _ ha)]
    rfl

theorem mapM_eq {l : List α} {q : α → Checked γ} {g : α → γ} (h : ∀ a ∈ l, q a = some (g a)) :
    l.mapM q = some (l.map g) := by
  simpa using mapM_map_eq (f := id) h

end mapM

variable {text : Text} {row : Node} {c : Cell} {file : FileId}

/-- Whether the end of a cell is a word. -/
def CellFits (c : Cell) : Prop := c.span.start + c.text.byteSize < UInt32.size

theorem CellFits.text_lt (h : CellFits c) : c.text.byteSize < UInt32.size :=
  Nat.lt_of_le_of_lt (Nat.le_add_left _ _) h

/-- The cells of a short text end at words. -/
theorem cellFits_of_mem (short : text.byteSize < UInt32.size)
    (h : row ∈ (RobotAnalysis.parse text).value.allNodes) (hc : c ∈ row.cells) : CellFits c := by
  obtain ⟨m, hm, cell, -⟩ := Node.exists_of_mem_cells h hc
  have shown := Node.shows_of_cell? hm cell
  have stop := shown.stop_le
  rw [Span.stop, shown.size_eq] at stop
  exact Nat.lt_of_le_of_lt stop short

theorem usagesIn_eq {start : Nat} {t : Text} (fits : start + t.byteSize < UInt32.size) :
    usagesIn start t = some (Findings.usagesIn start t) := by
  have short : t.byteSize < UInt32.size := by omega
  have found := VariableToken.spans_eq (VariableToken.fitWords_of_byteSize short)
  rw [usagesIn, found]
  refine mapM_map_eq fun v hv => ?_
  have shown := VariableToken.shows_of_mem_all hv
  have stop := shown.stop_le
  rw [cut_of_shows shown, shift_eq (by omega)]
  rfl

theorem usagesOf_eq {cells : List Cell} (fits : ∀ c ∈ cells, CellFits c) :
    usagesOf cells = some (Findings.usagesOf cells) := by
  have each := mapM_eq (q := fun c : Cell => usagesIn c.span.start c.text)
    fun c hc => usagesIn_eq (fits c hc)
  rw [usagesOf, each, Findings.usagesOf, List.flatMap_def]
  rfl

/-! ## Rows -/

theorem declaredBy_eq (scope : VariableScope) (fits : CellFits c) :
    declaredBy file scope c = some (Findings.declaredBy file scope c) := by
  have less := Text.byteSize_le_of_sublist
    (VariableToken.withoutAssignment_isPrefix c.text).sublist
  have told := VariableToken.isWholeCell_checked
    (VariableToken.fitWords_of_byteSize (Nat.lt_of_le_of_lt less fits.text_lt))
  rw [declaredBy, told, Findings.declaredBy]
  simp only [Option.bind_eq_bind, Option.bind_some]
  split <;> rfl

theorem defaultUsages_eq (fits : CellFits c) :
    defaultUsages c = some (Findings.defaultUsages c) := by
  unfold defaultUsages Findings.defaultUsages
  cases found : Sequence.splitOnce? (· == '=') c.text with
  | none => rfl
  | some parts =>
    obtain ⟨before, default⟩ := parts
    obtain ⟨sign, equals, whole⟩ := Findings.shows_of_splitOnce? found
    obtain rfl : sign = '=' := by simpa using equals
    let front : Text := before ++ ['=']
    have cell : c.text = front ++ default := by simpa [front] using whole
    have signed : front.byteSize = Text.byteSize before + 1 := Text.byteSize_append _ _
    have size : c.text.byteSize = front.byteSize + Text.byteSize default := by
      rw [cell, Text.byteSize_append]
    have room : c.span.start + c.text.byteSize < UInt32.size := fits
    have head : cutBetween c.text 0 front.byteSize = some front := by
      rw [cell]
      exact cutBetween_start _ _
    have inside : c.span.start + front.byteSize + Text.byteSize default < UInt32.size := by omega
    have less : c.text.byteSize - Text.byteSize default = front.byteSize := by omega
    have fewer : Text.byteSize default ≤ c.text.byteSize := by omega
    simp only [sub_eq fewer, less, head, add_eq (Nat.lt_of_le_of_lt (Nat.le_add_right _ _) inside),
      add_eq inside, range_eq (Nat.le_add_right _ _), Option.bind_eq_bind, Option.bind_some,
      ← signed]
    exact usagesIn_eq inside

theorem assignedBy_eq (scope : VariableScope) (body : Span) (fits : CellFits c) :
    assignedBy file scope body c = some (Findings.assignedBy file scope body c) := by
  have room : c.span.start + c.text.byteSize < UInt32.size := fits
  rw [assignedBy, VariableToken.spans_eq (VariableToken.fitWords_of_byteSize fits.text_lt)]
  simp only [Option.bind_eq_bind, Option.bind_some, List.head?_map, Findings.assignedBy]
  cases found : (VariableToken.all c.text).head? with
  | none => rfl
  | some v =>
    have shown := VariableToken.shows_of_mem_all (List.mem_of_mem_head? found)
    have stop := shown.stop_le
    simp only [Option.map_some, Option.toList_some, List.mapM_cons, cut_of_shows shown,
      shift_eq (Nat.lt_of_le_of_lt (Nat.add_le_add_left stop _) room), Option.bind_eq_bind,
      Option.bind_some, List.mapM_nil]
    rfl

section Row

variable (fits : ∀ c ∈ row.cells, CellFits c)

include fits

theorem fits_cellsOf {role : CellKind} : ∀ c ∈ row.cellsOf role, CellFits c := fun c hc =>
  fits c (Node.mem_cells_of_cellsOf hc)

theorem ofImport_eq : ofImport row = some (Findings.ofImport row) := by
  rw [ofImport, usagesOf_eq (fits_cellsOf fits), Findings.ofImport]
  simp only [Option.bind_eq_bind, Option.bind_some]
  generalize (row.firstCell? .settingName).bind _ = kind?
  cases kind? with
  | none => rfl
  | some kind => cases (row.cellsOf .argument).head? <;> rfl

theorem ofSetting_eq : ofSetting row = some (Findings.ofSetting row) := by
  rw [ofSetting, usagesOf_eq (fits_cellsOf fits)]
  rfl

theorem ofVariableRow_eq : ofVariableRow file row = some (Findings.ofVariableRow file row) := by
  have declared := mapM_eq (l := (row.firstCell? .variableName).toList)
    (q := declaredBy file .suite) fun c hc =>
      declaredBy_eq .suite (fits c (Node.mem_cells_of_firstCell? (Option.mem_toList.1 hc)))
  rw [ofVariableRow, declared, usagesOf_eq (fits_cellsOf fits), Findings.ofVariableRow,
    List.flatMap_def]
  rfl

theorem setBy_eq : setBy file row = some (Findings.setBy file row) := by
  unfold setBy Findings.setBy
  cases row.firstCell? .keywordCall with
  | none => rfl
  | some call =>
    cases found : row.firstCell? .argument with
    | none => rfl
    | some first =>
      simp only
      cases Findings.scopeSetBy? call.text with
      | none => rfl
      | some scope => exact declaredBy_eq scope (fits first (Node.mem_cells_of_firstCell? found))

theorem ofBodyRow_eq (scope : VariableScope) (body : Span) :
    ofBodyRow file scope body row = some (Findings.ofBodyRow file scope body row) := by
  have assigned := mapM_eq (l := row.cellsOf .assignment) (q := assignedBy file scope body)
    fun c hc => assignedBy_eq scope body (fits_cellsOf fits c hc)
  have defaults := mapM_eq (l := row.cellsOf .assignment) (q := defaultUsages)
    fun c hc => defaultUsages_eq (fits_cellsOf fits c hc)
  rw [ofBodyRow, assigned, setBy_eq fits, usagesOf_eq (fits_cellsOf fits), defaults,
    Findings.ofBodyRow, List.flatMap_def, List.flatMap_def]
  split <;> rfl

end Row

/-! ## Definitions and sections -/

theorem ofName_eq (definition : Node) (fits : CellFits c) :
    ofName file definition c = some (Findings.ofName file definition c) := by
  rw [ofName, Findings.ofName]
  split
  · rfl
  · rw [VariableToken.spans_eq (VariableToken.fitWords_of_byteSize fits.text_lt)]
    simp only [Option.bind_eq_bind, Option.bind_some, declareKeyword_eq (.inl fits.text_lt),
      List.isEmpty_map]
    rfl

theorem ofDefinition_eq {definition : Node} (short : text.byteSize < UInt32.size)
    (h : definition ∈ (RobotAnalysis.parse text).value.allNodes) :
    ofDefinition file definition = some (Findings.ofDefinition file definition) := by
  have named := mapM_eq (l := (definition.firstCell? .definitionName).toList)
    (q := ofName file definition) fun c hc => ofName_eq definition
      (cellFits_of_mem short h (Node.mem_cells_of_firstCell? (Option.mem_toList.1 hc)))
  have rows (scope : VariableScope) := mapM_eq (l := definition.bodyRows)
    (q := ofBodyRow file scope definition.span) fun row hrow =>
      ofBodyRow_eq (fun c => cellFits_of_mem short
        (Node.mem_allNodes_of_mem_nodes h (List.mem_of_mem_filter hrow))) scope definition.span
  rw [ofDefinition, named]
  simp only [rows, Option.bind_eq_bind, Option.bind_some]
  rfl

theorem ofSection_eq {sec : Node} (short : text.byteSize < UInt32.size)
    (h : sec ∈ (RobotAnalysis.parse text).value.allNodes) :
    ofSection file sec = some (Findings.ofSection file sec) := by
  have rowFits {kind : NodeKind} : ∀ row ∈ sec.nodesOf kind, ∀ c ∈ row.cells, CellFits c :=
    fun row hrow c => cellFits_of_mem short
      (Node.mem_allNodes_of_mem_nodes h (List.mem_of_mem_filter hrow))
  have definitions := mapM_eq (l := sec.definitions) (q := ofDefinition file)
    fun definition hdef => ofDefinition_eq short
      (Node.mem_allNodes_of_mem_nodes h (List.mem_of_mem_filter hdef))
  rw [ofSection, Findings.ofSection]
  cases sec.headingKind with
  | settings =>
    rw [mapM_eq fun row hrow => ofImport_eq (rowFits row hrow),
      mapM_eq fun row hrow => ofSetting_eq (rowFits row hrow)]
    rfl
  | variableTable =>
    rw [mapM_eq fun row hrow => ofVariableRow_eq (rowFits row hrow)]
    rfl
  | testCases | tasks | keywords =>
    rw [definitions]
    rfl
  | comments | unknown => rfl

/-- All sections of a short document are read. -/
theorem sections_eq {d : Document} (tree : d.source.tree = (RobotAnalysis.parse text).value)
    (short : text.byteSize < UInt32.size) : sections d = some d.sections := by
  rw [sections, tree, Document.sections, SectionModel.ofTree, tree]
  refine mapM_eq fun sec hsec => ?_
  rw [ofSection_eq short (Node.mem_allNodes_of_mem_sections hsec)]
  rfl

theorem classKeywords_eq {k : LibraryClass} (fits : ∀ m ∈ k.members, Name.Fits m.name)
    (qualifier : Text) : classKeywords k qualifier = some (k.declaredKeywords qualifier) :=
  mapM_eq fun m hm => declareKeyword_eq (fits m hm)

end RobotAnalysis.Checked
