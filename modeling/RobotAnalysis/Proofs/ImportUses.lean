import RobotAnalysis.Diagnostic
import RobotAnalysis.Navigation
import RobotAnalysis.Proofs.CellVisibility

/-!
# Where an unused import still leads

An import is reported as unused when no counted use leads into the document it names. A cursor can
be followed from any cell, and in it from the innermost variable, so it can lead into a document
whose import is reported. It does so only from uses that are overlooked: calls and variables in a
section whose kind is hidden by a comment on its heading, and variables that are not counted in
their cell. What is counted leads to the same declaration from the cursor and as a use.
-/
namespace RobotAnalysis

/-- A variable found at an offset begins there or before. -/
theorem VariableToken.start_le_of_innermostAt? {text : Text} {offset : Nat} {span : Span}
    (h : innermostAt? text offset = some span) : span.start ≤ offset := by
  have outermost {text : Text} {offset : Nat} {v : VariableToken}
      (found : (all text).find? (fun v => v.span.touches offset) = some v) :
      v.span.start ≤ offset := by
    have touches := List.find?_some found
    exact ((Span.touches_iff _ _).1 touches).1
  fun_induction innermostAt? text offset generalizing span with
  | case1 => cases h
  | case2 _ _ outer found => exact Option.some.inj h ▸ outermost found
  | case3 =>
    rename_i deeper ih
    have nestedStart := ih deeper
    rw [← Option.some.inj h, Span.start_shift]
    omega
  | case4 _ _ outer found => exact Option.some.inj h ▸ outermost found
  | case5 _ _ outer found => exact Option.some.inj h ▸ outermost found

/-- Why what stands in a cell at an offset is not counted as a use. -/
inductive Overlooked (text : Text) (offset : Nat) (cell : Cell) : Prop
  /-- A comment on the heading of its section hides the kind of the section. -/
  | hidden (s : SectionLines) (mem : s ∈ SectionLines.ofText text)
      (comment : s.heading.HasComment) (known : s.kind ≠ .unknown) (sec : Node)
      (isSection : sec ∈ (parse text).value.root.sections) (tree : sec.tree = s.parse.value)
      (inside : ∃ n ∈ sec.below, n.cell? = some cell)
  /-- It is a variable that its row does not count, because of the role of the cell or because it
  stands inside another variable. -/
  | uncounted (span : Span)
      (innermost : VariableToken.innermostAt? cell.text (offset - cell.span.start) = some span)
      (missed : ∀ row ∈ (parse text).value.allNodes, cell ∈ row.cells →
        ⟨cell.text.slice span, span.shift cell.span.start⟩ ∉ row.countedIn cell)

namespace Node

variable {text : Text} {n sec : Node} {s : SectionLines} {c : Cell} {offset : Nat}

/-- Unless it is overlooked, a cell stands in a section whose kind is read as parsing did. -/
theorem headingKind_eq_of_not_overlooked (counted : ¬ Overlooked text offset c)
    (hs : s ∈ SectionLines.ofText text) (hsec : sec ∈ (parse text).value.root.sections)
    (tree : sec.tree = s.parse.value) (inside : ∃ n ∈ sec.below, n.cell? = some c) :
    sec.headingKind = s.kind := by
  have proper := Line.isProper_of_mem_linesOf (SectionLines.heading_mem_linesOf hs)
  refine (headingKind_eq_iff proper tree).2 fun comment => ?_
  by_contra known
  exact counted (.hidden s hs comment known sec hsec tree inside)

end Node

namespace Scope

variable {s : Scope} {sections : List SectionModel} {file : FileId}

theorem mem_usedFiles_of_call {call : Mention} {k : Keyword}
    (mem : call ∈ SectionModel.calls sections) (resolved : s.resolveKeyword? call.text = some k)
    (place : k.location.file? = some file) : file ∈ s.usedFiles sections := by
  have leads : ((s.resolveKeyword? call.text).bind fun k => k.location.file?) = some file := by
    rw [resolved, Option.bind_some, place]
  apply Sequence.mem_distinctBy_id
  exact List.mem_append_left _ (List.mem_filterMap.2 ⟨call, mem, leads⟩)

theorem mem_usedFiles_of_usage {usage : Mention} {v : Variable}
    (mem : usage ∈ SectionModel.usages sections)
    (resolved : s.resolveVariable? usage.text usage.span.start = some v)
    (place : v.location.file? = some file) : file ∈ s.usedFiles sections := by
  have leads : ((s.resolveVariable? usage.text usage.span.start).bind fun v =>
      v.location.file?) = some file := by
    rw [resolved, Option.bind_some, place]
  apply Sequence.mem_distinctBy_id
  exact List.mem_append_right _ (List.mem_filterMap.2 ⟨usage, mem, leads⟩)

end Scope

namespace Workspace

variable {ws : Workspace} {d : Document} {text : Text} {cell : Cell} {offset : Nat} {file : FileId}

/-- A call under a cursor leads into a document that is in use. -/
theorem mem_usedFiles_of_keywordCall (parsed : d.source.tree = (parse text).value)
    (inside : d.source.tree.cellAt? offset = some cell) (counted : ¬ Overlooked text offset cell)
    (call : cell.kind = .keywordCall) {k : Keyword}
    (resolved : (Scope.ofDocument ws d).resolveKeyword? cell.text = some k)
    (place : k.location.file? = some file) : file ∈ ws.usedFiles d := by
  rw [parsed] at inside
  obtain ⟨n, hn, isCell, -⟩ := Tree.exists_of_cellAt? inside
  have inner : n.kind.isCell = true := by
    rw [Node.kind_of_cell? isCell]
    rfl
  obtain ⟨s, hs, sec, hsec, tree, below⟩ := Node.exists_section_above hn (.inl inner)
  have kind := Node.headingKind_eq_of_not_overlooked counted hs hsec tree ⟨n, below, isCell⟩
  have found := Node.mem_calls_ofSection d.id tree kind below isCell call
  have mem : ⟨cell.text, cell.span⟩ ∈ SectionModel.calls d.sections := by
    refine List.mem_flatMap.2 ⟨_, List.mem_map.2 ⟨sec, parsed ▸ hsec, rfl⟩, found⟩
  exact Scope.mem_usedFiles_of_call mem resolved place

/-- A variable under a cursor leads into a document that is in use. -/
theorem mem_usedFiles_of_variable (known : ws.document? d.id = some d)
    (parsed : d.source.tree = (parse text).value)
    (inside : d.source.tree.cellAt? offset = some cell) (counted : ¬ Overlooked text offset cell)
    {span : Span}
    (innermost : VariableToken.innermostAt? cell.text (offset - cell.span.start) = some span)
    {v : Variable}
    (resolved : (Scope.ofDocument ws d).resolveVariable? (cell.text.slice span) offset = some v)
    (place : v.location.file? = some file) : file ∈ ws.usedFiles d := by
  rw [parsed] at inside
  obtain ⟨-, -, -, lower, upper⟩ := Tree.exists_of_cellAt? inside
  have begins := VariableToken.start_le_of_innermostAt? innermost
  let usage : Mention := ⟨cell.text.slice span, span.shift cell.span.start⟩
  obtain ⟨row, hrow, hcell, used⟩ :
      ∃ row ∈ (parse text).value.allNodes, cell ∈ row.cells ∧ usage ∈ row.countedIn cell := by
    by_contra missed
    exact counted (.uncounted span innermost fun row hrow hcell used =>
      missed ⟨row, hrow, hcell, used⟩)
  obtain ⟨s, hs, sec, hsec, tree, below⟩ :=
    Node.exists_section_above hrow (.inr (.inr (List.ne_nil_of_mem hcell)))
  obtain ⟨n, hn, isCell⟩ := List.mem_filterMap.1 hcell
  have inSection : n ∈ sec.below :=
    Tree.mem_nodesInAll_of_mem_below _ _ row below (Node.mem_below_of_mem_nodes hn)
  have kind := Node.headingKind_eq_of_not_overlooked counted hs hsec tree ⟨n, inSection, isCell⟩
  have found := Node.mem_usages_ofSection d.id tree kind below hcell used
  have mem : usage ∈ SectionModel.usages d.sections := by
    refine List.mem_flatMap.2 ⟨_, List.mem_map.2 ⟨sec, parsed ▸ hsec, rfl⟩, found⟩
  -- The usage is resolved where it begins, which is still in the cell.
  have atCursor : cell.span.touches offset = true := (Span.touches_iff _ _).2 ⟨lower, upper⟩
  have atStart : cell.span.touches usage.span.start = true := by
    refine (Span.touches_iff _ _).2 ?_
    rw [Span.start_shift]
    omega
  have same := resolveVariable?_eq_of_counted known parsed hrow hcell used atStart atCursor
  exact Scope.mem_usedFiles_of_usage mem ((same usage.text).trans resolved) place

/-- An import under a cursor leads to a document or a library, not to what is declared there. -/
theorem kind_of_importAt? {imports : List ImportDeclaration} {span : Span}
    {found : NavigationTarget} (h : ws.importAt? d imports span = some found) :
    found.kind = .file ∨ found.kind = .library := by
  obtain ⟨i, -, h⟩ := Option.bind_eq_some_iff.1 h
  obtain ⟨target, -, h⟩ := Option.bind_eq_some_iff.1 h
  cases target with
  | document => exact .inl (congrArg NavigationTarget.kind (Option.some.inj h)).symm
  | library | module =>
    exact .inr (congrArg NavigationTarget.kind (Option.some.inj h)).symm

/-- Where an import is reported as unused, a cursor leads to a keyword or variable of the imported
document only from a use that is overlooked. -/
theorem overlooked_of_isUnused {i : ImportDeclaration} {found : NavigationTarget}
    (known : ws.document? d.id = some d) (parsed : d.source.tree = (parse text).value)
    (flagged : i ∈ d.imports.filter (ws.isUnused d)) (leads : ws.importedFile? d i = some file)
    (follows : ws.declarationAt? d offset = some found)
    (symbol : found.kind = .keyword ∨ found.kind = .variable_)
    (place : found.location.file? = some file) :
    ∃ cell, d.source.tree.cellAt? offset = some cell ∧ Overlooked text offset cell := by
  obtain ⟨cell, inside, follows⟩ := Option.bind_eq_some_iff.1 follows
  refine ⟨cell, inside, ?_⟩
  by_contra counted
  have notUsed : file ∉ ws.usedFiles d := by
    have unused := (List.mem_filter.1 flagged).2
    simpa [isUnused, leads] using unused
  apply notUsed
  rw [declarationIn?] at follows
  split at follows
  · rename_i span innermost
    obtain ⟨v, resolved, rfl⟩ := Option.map_eq_some_iff.1 follows
    exact mem_usedFiles_of_variable known parsed inside counted innermost resolved place
  · split at follows
    · rename_i call
      obtain ⟨k, resolved, rfl⟩ := Option.map_eq_some_iff.1 follows
      exact mem_usedFiles_of_keywordCall parsed inside counted call resolved place
    · rcases kind_of_importAt? follows with kind | kind <;> simp [kind] at symbol
    · cases follows

/-- A variable inside the cell of a keyword call leads into a document that nothing else uses. -/
theorem overlooked_of_isUnused_keywordCall :
    let text : Text :=
      "*** Settings ***\nResource    a.resource\n*** Tasks ***\nT\n    Go ${X}\n".toList
    let d : Document := .ofSource ⟨0⟩ (.ofText text)
    let e : Document := .ofSource ⟨1⟩ (.ofText "*** Variables ***\n${X}    1\n".toList)
    let ws : Workspace :=
      ⟨[(⟨"/main.robot".toList⟩, ⟨0⟩), (⟨"/a.resource".toList⟩, ⟨1⟩)], [d, e], 2, .empty, {}⟩
    let i : ImportDeclaration := ⟨.resource, "a.resource".toList, none, ⟨29, 10⟩⟩
    i ∈ d.imports ∧ ws.importedFile? d i = some ⟨1⟩ ∧ ws.isUnused d i = true ∧
      ws.declarationAt? d 64 = some
        ⟨.variable_, "${X}".toList, .document ⟨1⟩ ⟨18, 4⟩, some (⟨1, 0⟩, ⟨1, 4⟩)⟩ ∧
      Overlooked text 64 ⟨.keywordCall, "Go ${X}".toList, ⟨60, 7⟩⟩ := by
  intro text d e ws i
  have known : ws.document? ⟨0⟩ = some d := rfl
  have imported : ws.resolveAll d d.imports = [.document ⟨1⟩] := by decide +kernel
  have below : ws.importsOfTarget (.document ⟨1⟩) = [] := by decide +kernel
  let targets : List ImportTarget := [.document ⟨1⟩]
  have listed : ws.visibleImports d = targets := by
    change DepthFirst.collect ImportTarget.identity ws.documentIdentities ws.importsOfTarget []
      (ws.resolveAll d d.imports) = _
    simp [imported, below, DepthFirst.collect, targets]
  have scope : Scope.ofDocument ws d =
      ⟨⟨0⟩, d.keywords, targets.flatMap ws.keywordsOfTarget, [],
        Variable.distinct (ws.builtInVariables ++ d.vars ++ targets.flatMap ws.variablesOfTarget),
        .empty⟩ := by
    rw [Scope.ofDocument, visibleVariables, listed]
    rfl
  have used : ws.usedFiles d = [] := by
    rw [usedFiles, scope]
    decide +kernel
  have follows : ws.declarationAt? d 64 = some
      ⟨.variable_, "${X}".toList, .document ⟨1⟩ ⟨18, 4⟩, some (⟨1, 0⟩, ⟨1, 4⟩)⟩ := by
    rw [declarationAt?, scope]
    decide +kernel
  have mem : i ∈ d.imports := by decide +kernel
  have leads : ws.importedFile? d i = some ⟨1⟩ := by decide +kernel
  have unused : ws.isUnused d i = true := by
    rw [isUnused, leads, used]
    rfl
  have inside : d.source.tree.cellAt? 64 =
      some ⟨.keywordCall, "Go ${X}".toList, ⟨60, 7⟩⟩ := by decide +kernel
  obtain ⟨cell, found, overlooked⟩ := overlooked_of_isUnused known rfl
    (List.mem_filter.2 ⟨mem, unused⟩) leads follows (.inr rfl) rfl
  rw [inside] at found
  exact ⟨mem, leads, unused, follows, Option.some.inj found ▸ overlooked⟩

end Workspace

end RobotAnalysis
