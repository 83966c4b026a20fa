import RobotAnalysis.Checked.Queries
import RobotAnalysis.Proofs.CachedQueries
import RobotAnalysis.Proofs.CallReferences
import RobotAnalysis.Proofs.CheckedParse
import RobotAnalysis.Proofs.CheckedReading

/-!
# Queries are never refused

In a workspace of short texts every query with checks has the answer of the query without. What is
needed of a document is that it holds a parsed text: its cells then stand where they are shown, and
its lines start between its characters. Names that libraries give need not be short as long as they
have no braces. A session keeps all of this, whatever happens in it.
-/
namespace RobotAnalysis

/-- What a span covers of a text is a part of it. -/
theorem Text.slice_sublist (t : Text) (s : Span) : List.Sublist (t.slice s) t := by
  have dropped : List.Sublist (t.dropBytes s.start) t := by
    conv => rhs; rw [← takeBytes_append_dropBytes s.start t]
    exact List.sublist_append_right _ _
  refine List.Sublist.trans ?_ dropped
  conv => rhs; rw [← takeBytes_append_dropBytes s.size (t.dropBytes s.start)]
  exact List.sublist_append_left _ _

/-- Whether a document holds a text whose offsets are words. -/
def Document.IsShort (d : Document) : Prop :=
  ∃ text, d.source.Holds text ∧ text.byteSize < UInt32.size

/-- Whether all names that libraries give to keywords and variables fit. -/
structure LibraryIndex.Fits (index : LibraryIndex) : Prop where
  members : ∀ c, index.Offers c → ∀ m ∈ c.members, Name.Fits m.name
  vars : ∀ name m, index.module? name = some m → ∀ v ∈ m.vars, Name.Fits v

theorem LibraryIndex.Fits.of_member? {index : LibraryIndex} (h : index.Fits) {className name : Text}
    {m : LibraryMember} (found : index.member? className name = some m) : Name.Fits m.name := by
  obtain ⟨c, class_, member⟩ := Option.bind_eq_some_iff.1 found
  exact h.members c (.ofClass class_) m (List.mem_of_find?_eq_some member)

/-- Whether the texts of a workspace are short. -/
structure Workspace.IsShort (ws : Workspace) : Prop where
  documents : ∀ d ∈ ws.documents, d.IsShort
  libraries : ws.libraries.Fits

namespace Checked

variable {α : Type}

theorem filterM_eq {l : List α} {q : α → Checked Bool} {p : α → Bool}
    (h : ∀ a ∈ l, q a = some (p a)) : l.filterM q = some (l.filter p) := by
  have aux (kept : List α) : l.filterAuxM q kept = some ((l.filter p).reverse ++ kept) := by
    induction l generalizing kept with
    | nil => rfl
    | cons a l ih =>
      rw [List.filterAuxM, h a List.mem_cons_self, Option.bind_eq_bind, Option.bind_some,
        ih fun b hb => h b (List.mem_cons_of_mem _ hb), List.filter_cons]
      cases p a <;> simp
  rw [List.filterM, aux []]
  simp

theorem collectM_eq {κ : Type} [DecidableEq κ] {key : α → κ} {domain : List κ}
    {query : α → Checked (List α)} {next : α → List α} (h : ∀ a, query a = some (next a))
    (met pending : List α) :
    DepthFirst.collectM key domain query met pending =
      some (DepthFirst.collect key domain next met pending) := by
  induction met, pending using DepthFirst.collect.induct key domain next with
  | case1 met =>
    rw [DepthFirst.collectM, DepthFirst.collect]
    rfl
  | case2 met a pending seen ih =>
    rw [DepthFirst.collectM, DepthFirst.collect, dif_pos seen, dif_pos seen, ih]
  | case3 met a pending unseen inside ih =>
    rw [DepthFirst.collectM, DepthFirst.collect, dif_neg unseen, dif_neg unseen, dif_pos inside,
      dif_pos inside, h a, Option.bind_eq_bind, Option.bind_some, ih]
  | case4 met a pending unseen outside ih =>
    rw [DepthFirst.collectM, DepthFirst.collect, dif_neg unseen, dif_neg unseen, dif_neg outside,
      dif_neg outside, ih]

/-! ## Documents -/

section Document

variable {d : Document} {text : Text}

theorem sections_of_isShort (short : d.IsShort) : sections d = some d.sections := by
  obtain ⟨text, holds, short⟩ := short
  exact sections_eq holds.tree_eq short

theorem positions_of_isShort (short : d.IsShort) (s : Span) :
    positions d.source.lines s = some (d.source.lines.positions s) := by
  obtain ⟨text, ⟨_, same⟩, -⟩ := short
  rw [same]
  exact positions_eq text s

theorem keywords_eq (short : d.IsShort) : keywords d = some d.keywords := by
  rw [keywords, sections_of_isShort short]
  rfl

theorem vars_eq (short : d.IsShort) : vars d = some d.vars := by
  rw [vars, sections_of_isShort short]
  rfl

theorem imports_eq (short : d.IsShort) : imports d = some d.imports := by
  rw [imports, sections_of_isShort short]
  rfl

theorem sectionAt_eq (short : d.IsShort) (offset : Nat) :
    sectionAt d offset = some (d.sectionAt? offset) := by
  rw [sectionAt, sections_of_isShort short]
  rfl

theorem reference_eq (short : d.IsShort) (span : Span) (isDefinition : Bool) :
    reference d span isDefinition = some (d.reference span isDefinition) := by
  rw [reference, positions_of_isShort short]
  rfl

theorem about_eq (short : d.IsShort) (span : Span) (severity : Severity) (code message : Text) :
    about d span severity code message = some (.about d span severity code message) := by
  rw [about, positions_of_isShort short]
  rfl

theorem runMarkerAt_eq (short : d.IsShort) (offset : Nat) :
    runMarkerAt d offset = some (d.runMarkerAt? offset) := by
  have markers : (SectionModel.testCases d.sections).mapM (markerOf d) = some d.runMarkers := by
    refine mapM_eq fun t _ => ?_
    rw [markerOf, positions_of_isShort short]
    rfl
  rw [runMarkerAt, sections_of_isShort short]
  simp only [Option.bind_eq_bind, Option.bind_some, markers]
  rfl

theorem cellAt_eq {offset : Nat} (inside : offset ≤ d.source.text.byteSize) :
    cellAt d offset = some (d.source.tree.cellAt? offset) := by
  rw [cellAt, if_pos]
  exact inside

/-- The cell at an offset of a short document begins at or before the offset and is short. -/
theorem cellFits_of_cellAt? {offset : Nat} {c : Cell} (short : d.IsShort)
    (h : d.source.tree.cellAt? offset = some c) :
    c.text.byteSize < UInt32.size ∧ c.span.start ≤ offset := by
  obtain ⟨text, holds, short⟩ := short
  obtain ⟨n, mem, cell, before, -⟩ := Tree.exists_of_cellAt? h
  rw [holds.tree_eq] at mem
  have shown := Node.shows_of_cell? mem cell
  have stop := shown.stop_le
  have size := shown.size_eq
  rw [Span.stop] at stop
  exact ⟨by omega, before⟩

end Document

/-! ## Workspaces -/

/-- Whether the names in a scope fit. -/
structure ScopeFits (s : Scope) : Prop where
  vars : ∀ v ∈ s.vars, VariableToken.FitWords (VariableToken.name v.text)
  index : s.index.Fits

/-- A declared variable is a part of the text of its document. -/
theorem text_sublist_of_mem_vars {d : Document} {text : Text} (holds : d.source.Holds text)
    {v : Variable} (h : v ∈ d.vars) : List.Sublist v.text text := by
  obtain ⟨s, hs, hv⟩ := List.mem_flatMap.1 (Sequence.mem_of_mem_distinctBy h)
  rw [Document.sections, holds.tree_eq] at hs
  obtain ⟨place, -, -, spelled, -⟩ :=
    (SectionModel.areFaithful_of_mem_ofTree text d.id hs).1.vars v hv
  rw [← spelled]
  exact (VariableToken.withoutAssignment_isPrefix _).sublist.trans (Text.slice_sublist text place)

/-- The reserved variables are short. -/
theorem fitWords_of_mem_builtInVariables {ws : Workspace} {v : Variable}
    (h : v ∈ ws.builtInVariables) : VariableToken.FitWords (VariableToken.name v.text) := by
  have all : ∀ entry ∈ BuiltIn.reservedVariables, Text.byteSize entry.1 < UInt32.size := by
    decide +kernel
  rw [Workspace.builtInVariables, BuiltIn.vars] at h
  split at h
  · obtain ⟨entry, mem, rfl⟩ := List.mem_map.1 h
    have inside : List.Sublist (VariableToken.withoutAssignment entry.1.trim) entry.1 :=
      (VariableToken.withoutAssignment_isPrefix _).sublist.trans (Text.trim_sublist _)
    exact (Name.Fits.of_sublist (.inl (all entry mem)))
      ((VariableToken.name_sublist _).trans inside)
  · cases h

section Workspace

variable {ws : Workspace} (short : ws.IsShort)

/-- The names that an import target gives fit. -/
def TargetFits : ImportTarget → Prop
  | .document _ => True
  | .library _ c => ∀ m ∈ c.members, Name.Fits m.name
  | .module m => ∀ name ∈ m.vars, Name.Fits name

theorem directImports_eq {d : Document} (hd : d.IsShort) :
    directImports ws d = some (ws.directImports d) := by
  rw [directImports, imports_eq hd]
  rfl

include short

theorem isShort_of_document? {file : FileId} {d : Document} (h : ws.document? file = some d) :
    d.IsShort := short.documents d (Workspace.mem_documents_of_document? h)

theorem importsOfTarget_eq (t : ImportTarget) :
    importsOfTarget ws t = some (ws.importsOfTarget t) := by
  cases t with
  | library _ _ => rfl
  | module _ => rfl
  | document file =>
    rw [importsOfTarget, Workspace.importsOfTarget]
    cases found : ws.document? file with
    | none => rfl
    | some e => exact directImports_eq (isShort_of_document? short found)

theorem visibleImports_eq {d : Document} (hd : d.IsShort) :
    visibleImports ws d = some (ws.visibleImports d) := by
  have all : allImports ws d = some (ws.allImports d) := by
    rw [allImports, imports_eq hd]
    exact collectM_eq (importsOfTarget_eq short) _ _
  rw [visibleImports, all, directImports_eq hd, Workspace.visibleImports, Workspace.importsOf]
  split <;> rfl

theorem fits_of_mem_visibleImports {d : Document} {t : ImportTarget}
    (ht : t ∈ ws.visibleImports d) : TargetFits t := by
  cases t with
  | document _ => exact True.intro
  | library qualifier c => exact short.libraries.members c (Workspace.offers_of_mem_importsOf ht)
  | module m =>
    obtain ⟨name, found⟩ := Workspace.exists_module?_of_mem_importsOf ht
    exact short.libraries.vars name m found

theorem keywordsOfTarget_eq {t : ImportTarget} (fits : TargetFits t) :
    keywordsOfTarget ws t = some (ws.keywordsOfTarget t) := by
  cases t with
  | library qualifier c => exact classKeywords_eq fits qualifier
  | module _ => rfl
  | document file =>
    rw [keywordsOfTarget, Workspace.keywordsOfTarget]
    cases found : ws.document? file with
    | none => rfl
    | some e => exact keywords_eq (isShort_of_document? short found)

theorem variablesOfTarget_eq (t : ImportTarget) :
    variablesOfTarget ws t = some (ws.variablesOfTarget t) := by
  cases t with
  | library _ _ => rfl
  | module _ => rfl
  | document file =>
    rw [variablesOfTarget, Workspace.variablesOfTarget]
    cases found : ws.document? file with
    | none => rfl
    | some e => exact vars_eq (isShort_of_document? short found)

theorem visibleVariables_eq {d : Document} (hd : d.IsShort) :
    visibleVariables ws d = some (ws.visibleVariables d) := by
  have imported := mapM_eq (l := ws.visibleImports d) fun t _ => variablesOfTarget_eq short t
  rw [visibleVariables, vars_eq hd, visibleImports_eq short hd, Workspace.visibleVariables,
    List.flatMap_def]
  simp only [Option.bind_eq_bind, Option.bind_some, imported]
  rfl

theorem scope_eq {d : Document} (hd : d.IsShort) : scope ws d = some (.ofDocument ws d) := by
  have imported := mapM_eq (l := ws.visibleImports d) fun t ht =>
    keywordsOfTarget_eq short (fits_of_mem_visibleImports short ht)
  rw [scope, visibleImports_eq short hd, visibleVariables_eq short hd, keywords_eq hd,
    Scope.ofDocument, List.flatMap_def]
  simp only [Option.bind_eq_bind, Option.bind_some, imported]
  rfl

/-- The name of a variable in sight is a part of a short text, or one that a module gives. -/
theorem fitWords_of_mem_visibleVariables {d : Document} (hd : d.IsShort) {v : Variable}
    (hv : v ∈ ws.visibleVariables d) : VariableToken.FitWords (VariableToken.name v.text) := by
  have ofDocument {e : Document} (he : e.IsShort) (mem : v ∈ e.vars) :
      VariableToken.FitWords (VariableToken.name v.text) := by
    obtain ⟨text, holds, bound⟩ := he
    have inside := (VariableToken.name_sublist v.text).trans (text_sublist_of_mem_vars holds mem)
    exact (Name.Fits.of_sublist (.inl bound)) inside
  rcases List.mem_append.1 (Sequence.mem_of_mem_distinctBy hv) with hv | hv
  · rcases List.mem_append.1 hv with hv | hv
    · exact fitWords_of_mem_builtInVariables hv
    · exact ofDocument hd hv
  · obtain ⟨t, ht, hv⟩ := List.mem_flatMap.1 hv
    cases t with
    | library _ _ => cases hv
    | document file =>
      rw [Workspace.variablesOfTarget] at hv
      cases found : ws.document? file with
      | none => simp [found] at hv
      | some e =>
        rw [found] at hv
        exact ofDocument (isShort_of_document? short found) hv
    | module m =>
      obtain ⟨name, mem, rfl⟩ := List.mem_map.1 hv
      rw [VariableToken.text_declare_closed, VariableToken.name_closed]
      exact (fits_of_mem_visibleImports short ht name mem).of_sublist (.refl _)

theorem fits_ofDocument {d : Document} (hd : d.IsShort) : ScopeFits (.ofDocument ws d) where
  vars _ hv := fitWords_of_mem_visibleVariables short hd hv
  index := short.libraries

end Workspace

/-! ## Resolving -/

section Scope

variable {s : Scope} (fits : ScopeFits s)

include fits

theorem libraryMember_eq (text : Text) : libraryMember s text = some (s.libraryMember? text) := by
  rw [libraryMember, Scope.libraryMember?]
  obtain ⟨qualifier?, name⟩ := Scope.splitQualified text
  simp only
  generalize (s.libraries.filter fun l => qualifier?.all fun q => Text.sameAscii l.1 q) = offers
  have pairs : (offers.findSome? fun l =>
      (s.index.member? l.2.name (Name.toFunction name)).map (l.2.keywordOf l.1)) =
      (offers.findSome? fun l => (s.index.member? l.2.name (Name.toFunction name)).map
        fun m => (l, m)).map fun found => found.1.2.keywordOf found.1.1 found.2 := by
    simp only [List.map_findSome?, Option.map_map, Function.comp_def]
  rw [pairs]
  cases found : offers.findSome? fun l =>
      (s.index.member? l.2.name (Name.toFunction name)).map fun m => (l, m) with
  | none => rfl
  | some entry =>
    obtain ⟨⟨qualifier, c⟩, m⟩ := entry
    obtain ⟨l, -, known⟩ := List.exists_of_findSome?_eq_some found
    obtain ⟨m', member, same⟩ := Option.map_eq_some_iff.1 known
    cases same
    simp only [declareKeyword_eq (fits.index.of_member? member), Option.bind_eq_bind,
      Option.bind_some]
    rfl

theorem resolveKeyword_eq (text : Text) :
    resolveKeyword s text = some (s.resolveKeyword? text) := by
  unfold resolveKeyword Scope.resolveKeyword?
  simp only
  split
  · rfl
  · cases (s.findKeyword? text.trim).or
      ((Reserved.withoutGherkin? text.trim).bind s.findKeyword?) with
    | some k => rfl
    | none => exact libraryMember_eq fits _

theorem resolveVariable_eq (text : Text) (offset : Nat) :
    resolveVariable s text offset = some (s.resolveVariable? text offset) := by
  have candidates := filterM_eq (l := s.variablesAt offset) (q := fun v => isUsedBy v text)
    fun v hv => isUsedBy_eq (fits.vars v (List.mem_of_mem_filter hv)) text
  rw [resolveVariable, candidates]
  rfl

end Scope

/-! ## Queries -/

section Query

variable {ws : Workspace} (short : ws.IsShort) {d : Document} (hd : d ∈ ws.documents)

include short

theorem target_eq (kind : TargetKind) (name : Text) (location : Location) :
    target ws kind name location = some (ws.target kind name location) := by
  unfold target Workspace.target
  cases location with
  | library _ _ => rfl
  | document file span =>
    simp only
    cases found : ws.document? file with
    | none => rfl
    | some e =>
      simp only [positions_of_isShort (isShort_of_document? short found)]
      rfl

theorem importAt_eq (d : Document) (imports : List ImportDeclaration) (span : Span) :
    importAt ws d imports span = some (ws.importAt? d imports span) := by
  rw [importAt, Workspace.importAt?]
  cases imports.find? fun i => i.span == span with
  | none => rfl
  | some i =>
    simp only [Option.bind_eq_bind, Option.bind_some]
    cases ws.resolveImport? d.id i with
    | none => rfl
    | some t =>
      cases t with
      | document file => simp only [Option.map_some, target_eq short]; rfl
      | library _ c => simp only [Option.map_some, target_eq short]; rfl
      | module m => simp only [Option.map_some, target_eq short]; rfl

theorem declarationOf_eq (k : Keyword) : declarationOf ws k = some (ws.declarationOf? k) := by
  rw [declarationOf, Workspace.declarationOf?]
  cases k.location with
  | library _ _ => rfl
  | document file span =>
    simp only
    cases found : ws.document? file with
    | none => rfl
    | some e =>
      simp only [reference_eq (isShort_of_document? short found)]
      rfl

include hd

theorem usedFiles_eq : usedFiles ws d = some (ws.usedFiles d) := by
  have itself := short.documents d hd
  have fits := fits_ofDocument short itself
  have called := mapM_eq (l := SectionModel.calls d.sections)
    (q := fun c => resolveKeyword (.ofDocument ws d) c.text) fun c _ =>
      resolveKeyword_eq fits c.text
  have used := mapM_eq (l := SectionModel.usages d.sections)
    (q := fun u => resolveVariable (.ofDocument ws d) u.text u.span.start) fun u _ =>
      resolveVariable_eq fits u.text u.span.start
  rw [usedFiles, scope_eq short itself, sections_of_isShort itself, Workspace.usedFiles,
    Scope.usedFiles]
  simp only [Option.bind_eq_bind, Option.bind_some, called, used, List.filterMap_map]
  rfl

theorem unusedImports_eq : unusedImports ws d = some (ws.unusedImports d) := by
  have itself := short.documents d hd
  rw [unusedImports, imports_eq itself, usedFiles_eq short hd]
  exact mapM_eq fun i _ => about_eq itself _ _ _ _

theorem diagnostics_eq : diagnostics ws d = some (ws.diagnostics d) := by
  have itself := short.documents d hd
  have faults := mapM_eq (l := d.source.errors)
    (q := fun e => about d e.span .error Diagnostic.syntaxErrorCode e.fault.message)
    fun e _ => about_eq itself _ _ _ _
  rw [diagnostics, faults, unusedImports_eq short hd]
  rfl

theorem completions_eq (offset : Nat) :
    completions ws d offset = some (ws.completions d offset) := by
  have itself := short.documents d hd
  rw [completions, sections_of_isShort itself, scope_eq short itself, typedBefore_eq,
    Workspace.completions, Workspace.candidates]
  simp only [Option.bind_eq_bind, Option.bind_some]
  split <;> rfl

theorem declarationAt_eq {offset : Nat} (inside : offset ≤ d.source.text.byteSize) :
    declarationAt ws d offset = some (ws.declarationAt? d offset) := by
  have itself := short.documents d hd
  have fits := fits_ofDocument short itself
  rw [declarationAt, cellAt_eq inside, Workspace.declarationAt?]
  simp only [Option.bind_eq_bind, Option.bind_some]
  cases found : d.source.tree.cellAt? offset with
  | none => rfl
  | some cell =>
    obtain ⟨size, before⟩ := cellFits_of_cellAt? itself found
    simp only [scope_eq short itself, sub_eq before, VariableToken.innermostAt_eq size,
      Option.bind_some, Workspace.declarationIn?]
    cases inner : VariableToken.innermostAt? cell.text (offset - cell.span.start) with
    | some span =>
      obtain ⟨token, -, shown⟩ := VariableToken.shows_of_innermostAt? inner
      simp only [cut_of_shows shown, shown.slice_eq, resolveVariable_eq fits, Option.bind_some]
      cases (Scope.ofDocument ws d).resolveVariable? token offset with
      | none => rfl
      | some v => simp only [target_eq short]; rfl
    | none =>
      simp only
      cases cell.kind with
      | keywordCall =>
        simp only [resolveKeyword_eq fits, Option.bind_some]
        cases (Scope.ofDocument ws d).resolveKeyword? cell.text with
        | none => rfl
        | some k => simp only [target_eq short]; rfl
      | argument => simp only [imports_eq itself, Option.bind_some, importAt_eq short]
      | _ => rfl

theorem keywordAt_eq {offset : Nat} (inside : offset ≤ d.source.text.byteSize) :
    keywordAt ws d offset = some (ws.keywordAt? d offset) := by
  have itself := short.documents d hd
  have fits := fits_ofDocument short itself
  rw [keywordAt, cellAt_eq inside, Workspace.keywordAt?]
  simp only [Option.bind_eq_bind, Option.bind_some]
  cases d.source.tree.cellAt? offset with
  | none => rfl
  | some cell =>
    simp only [keywords_eq itself, scope_eq short itself, resolveKeyword_eq fits, Option.bind_some]
    cases cell.kind <;> rfl

theorem callsOf_eq (k : Keyword) : callsOf ws d k = some (ws.callsOf d (some k)) := by
  have itself := short.documents d hd
  have fits := fits_ofDocument short itself
  rw [callsOf, scope_eq short itself, sections_of_isShort itself]
  simp only [Option.bind_eq_bind, Option.bind_some, resolveKeyword_eq fits]
  exact filterM_eq fun c _ => rfl

omit hd in
theorem callReferences_eq (k : Keyword) : callReferences ws k = some (ws.callReferences k) := by
  have found := mapM_eq (l := ws.documents)
    (q := fun d => (callsOf ws d k).bind fun calls => calls.mapM fun c => reference d c.span false)
    (g := fun d => (ws.callsOf d (some k)).map fun c => d.reference c.span false) fun d hd => by
      rw [callsOf_eq short hd, Option.bind_some]
      exact mapM_eq fun c _ => reference_eq (short.documents d hd) c.span false
  rw [callReferences, Workspace.callReferences, List.flatMap_def]
  simp only [Option.bind_eq_bind, found, Option.bind_some]
  rfl

theorem references_eq {offset : Nat} (inside : offset ≤ d.source.text.byteSize)
    (withDeclaration : Bool) :
    references ws d offset withDeclaration = some (ws.references d offset withDeclaration) := by
  rw [references, keywordAt_eq short hd inside, Workspace.references]
  simp only [Option.bind_eq_bind, Option.bind_some]
  cases ws.keywordAt? d offset with
  | none => rfl
  | some k =>
    simp only [declarationOf_eq short, callReferences_eq short, Option.bind_some]
    cases withDeclaration <;> rfl

end Query

end Checked

/-! ## Sessions -/

/-- Whether parsing a document and asking about it at an offset are answered, with nothing refused
on the way. -/
structure Workspace.AnswersAt (ws : Workspace) (d : Document) (offset : Nat) : Prop where
  parse : ∃ e, Checked.parse d.source.text = some e ∧
    TreeBuilder.build e.calls = some d.source.tree ∧ e.errors = d.source.errors
  sectionAt : Checked.sectionAt d offset = some (d.sectionAt? offset)
  runMarkerAt : Checked.runMarkerAt d offset = some (d.runMarkerAt? offset)
  completions : Checked.completions ws d offset = some (ws.completions d offset)
  declarationAt : Checked.declarationAt ws d offset = some (ws.declarationAt? d offset)
  references : ∀ withDeclaration, Checked.references ws d offset withDeclaration =
    some (ws.references d offset withDeclaration)
  diagnostics : Checked.diagnostics ws d = some (ws.diagnostics d)

theorem Workspace.IsShort.answersAt {ws : Workspace} (short : ws.IsShort) {d : Document}
    (hd : d ∈ ws.documents) {offset : Nat} (inside : offset ≤ d.source.text.byteSize) :
    ws.AnswersAt d offset where
  parse := by
    obtain ⟨text, holds, bound⟩ := short.documents d hd
    obtain ⟨e, t, emitted, -, built, parsed, -⟩ := parse_lossless text
    have errors : d.source.errors = (RobotAnalysis.parse text).errors := by
      obtain ⟨_, same⟩ := holds
      rw [same]
      rfl
    rw [holds.text_eq, holds.tree_eq, errors, parsed]
    exact ⟨e, (Checked.parse_eq bound).trans emitted, built, rfl⟩
  sectionAt := Checked.sectionAt_eq (short.documents d hd) offset
  runMarkerAt := Checked.runMarkerAt_eq (short.documents d hd) offset
  completions := Checked.completions_eq short hd offset
  declarationAt := Checked.declarationAt_eq short hd inside
  references := Checked.references_eq short hd inside
  diagnostics := Checked.diagnostics_eq short hd

namespace Session

/-- After any changes and questions by which only parsed texts are inserted, no query about a
document is refused at any offset of its text, as long as the texts are short. -/
theorem answersAt_after (provider : LibraryProvider) (events : List Event)
    (inserted : ∀ path source, .change (.insert path source) ∈ events →
      ∃ text, source.Holds text) :
    let ws := ((start provider).after events).workspace
    (∀ d ∈ ws.documents, d.source.text.byteSize < UInt32.size) → ws.libraries.Fits →
      ∀ d ∈ ws.documents, ∀ offset ≤ d.source.text.byteSize, ws.AnswersAt d offset := by
  intro ws bounds libraries d hd offset inside
  have none : (start provider).AllSources fun source => ∃ text, source.Holds text :=
    fun _ hd => nomatch hd
  have parsed : ∀ e ∈ ws.documents, ∃ text, e.source.Holds text :=
    none.after (fun _ text holds => ⟨text, holds⟩) inserted
  have short : ws.IsShort := by
    refine ⟨fun e he => ?_, libraries⟩
    obtain ⟨text, holds⟩ := parsed e he
    exact ⟨text, holds, holds.text_eq ▸ bounds e he⟩
  exact short.answersAt hd inside

/-- An offset inside a character of a document whose text has been replaced. -/
theorem answersAt_after_insideCharacter :
    let text : Text := "*** Keywords ***\nÖffne ${x}\n".toList
    let events : List Event :=
      [.change (.insert ⟨"/a.robot".toList⟩ (.ofText [])),
        .change (.setText ⟨"/a.robot".toList⟩ text)]
    let ws := ((start .nothing).after events).workspace
    let d : Document := .ofSource ⟨0⟩ ((SourceText.ofText []).setText text)
    (∀ path source, .change (.insert path source) ∈ events → ∃ text, source.Holds text) ∧
      (∀ d ∈ ws.documents, d.source.text.byteSize < UInt32.size) ∧ ws.libraries.Fits ∧
      d ∈ ws.documents ∧ 18 ≤ d.source.text.byteSize ∧ text.isBoundary 18 = false ∧
      ws.AnswersAt d 18 := by
  intro text events ws d
  have inserted : ∀ path source, .change (.insert path source) ∈ events →
      ∃ text, source.Holds text := by
    intro path source mem
    obtain ⟨-, same⟩ : path = ⟨"/a.robot".toList⟩ ∧ source = .ofText [] := by
      simpa [events] using mem
    exact ⟨[], 0, same⟩
  have hd : d ∈ ws.documents := List.mem_singleton.2 rfl
  have bounds : ∀ e ∈ ws.documents, e.source.text.byteSize < UInt32.size := by
    intro e he
    obtain rfl : e = d := List.mem_singleton.1 he
    have held : d.source.text = text := SourceText.Holds.text_eq ⟨1, rfl⟩
    rw [held]
    decide
  have libraries : ws.libraries.Fits :=
    { members := fun c offered => by cases offered <;> contradiction
      vars := fun _ _ found => by cases found }
  have inside : 18 ≤ d.source.text.byteSize := by
    have held : d.source.text = text := SourceText.Holds.text_eq ⟨1, rfl⟩
    rw [held]
    decide
  exact ⟨inserted, bounds, libraries, hd, inside, by decide,
    answersAt_after .nothing events inserted bounds libraries d hd 18 inside⟩

end Session

end RobotAnalysis
