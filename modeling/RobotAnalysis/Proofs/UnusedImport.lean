import RobotAnalysis.Proofs.OmittedImport

/-!
# Taking out an unused import

An import is reported as unused when no call and no usage of a variable leads into the document that
it names. Its row can then be turned into a comment, and all other calls and usages lead where they
led: always where only the imports of a document itself are in sight. Where the imports of imported
documents are in sight too, what is used may lie below the unused import, and then it may be lost.
-/
namespace RobotAnalysis

open DepthFirst (Visits MeetsFrom)

theorem Findings.imports_ofImport_of_mem {row : Node} {i : ImportDeclaration}
    (h : i ∈ (ofImport row).imports) : (ofImport row).imports = [i] := by
  rw [ofImport] at h ⊢
  dsimp only at h ⊢
  split at h
  · rw [List.mem_singleton.1 h]
  · cases h

/-- A row of one line that imports something may become a comment in a new text. -/
theorem Document.lacksImport_setText {d : Document} {text comment edited : Text} {row : Node}
    (holds : d.source.Holds text) (hrow : row ∈ d.importRows) (single : '\n' ∉ row.text.dropLast)
    (isComment : Text.IsCommentFor row.text comment)
    (spliced : d.source.text.splice row.span comment = edited) :
    d.LacksImport row (d.setText edited) := by
  rw [holds.text_eq] at spliced
  subst spliced
  exact lacksImport holds.tree_eq hrow single isComment rfl rfl

/-- Without neighbours a walk meets no more than what is pending. -/
theorem DepthFirst.Visits.subset_pending {α κ : Type} [DecidableEq κ] {key : α → κ} {t : α}
    {met block : List α} (h : Visits key (fun _ => []) met [t] (met ++ block)) : block ⊆ [t] := by
  by_cases known : key t ∈ met.map key
  · have same := h.unique (.seen known .nil)
    simp [List.append_right_eq_self.1 same]
  · have same := h.unique (.new known .nil .nil)
    simp [List.append_cancel_left same]

namespace Workspace

variable {ws ws' : Workspace} {d d' : Document} {t : FileId} {text : Text}

/-- Whether a symbol belongs to a target, other than the document itself, that the walk through the
targets in sight meets below an import of `t`: from where it meets `t` until it is done with what is
imported there. -/
def SeesBelow {σ : Type} (ws : Workspace) (d : Document) (t : FileId)
    (symbolsOf : ImportTarget → List σ) (a : σ) : Prop :=
  ∃ u, MeetsFrom ImportTarget.identity ws.followed (.document t) (ws.visibleImports d) u ∧
    u ≠ .document t ∧ u ≠ .document d.id ∧ a ∈ symbolsOf u

theorem allowTransitiveImports_of_seesBelow {σ : Type} {symbolsOf : ImportTarget → List σ} {a : σ}
    (h : ws.SeesBelow d t symbolsOf a) : ws.options.allowTransitiveImports = true := by
  obtain ⟨u, ⟨before, block, rest, -, walk, hu⟩, other, -⟩ := h
  refine Classical.byContradiction fun direct => ?_
  rw [followed, if_neg direct] at walk
  exact other (List.mem_singleton.1 (walk.subset_pending hu))

/-- The document that an unused import leads to is not in use. -/
theorem notMem_usedFiles_of_isUnused {i : ImportDeclaration} (unused : ws.isUnused d i = true)
    (leads : ws.importedFile? d i = some t) : t ∉ ws.usedFiles d := by
  simpa [isUnused, leads] using unused

/-- Where a row that imports a document becomes a comment, that import is left out. -/
theorem exists_lacksImport_setText (found : ws.document? d.id = some d)
    (holds : d.source.Holds text) {row : Node} (hrow : row ∈ d.importRows)
    (single : '\n' ∉ row.text.dropLast) {i : ImportDeclaration}
    (declared : i ∈ (Findings.ofImport row).imports) (leads : ws.importedFile? d i = some t)
    {comment : Text} (isComment : Text.IsCommentFor row.text comment) {path : Path}
    (held : ws.lookup? path = some d.id) :
    ∃ d', d.LacksImport row d' ∧
      ws.LacksImport d t (ws.setText path (d.source.text.splice row.span comment)).2 d' := by
  obtain ⟨e, found', stored⟩ := setText_of_lookup? held (d.source.text.splice row.span comment)
  obtain rfl : d = e := Option.some.inj (found.symm.trans found')
  let d' := d.setText (d.source.text.splice row.span comment)
  have lacks : d.LacksImport row d' := d.lacksImport_setText holds hrow single isComment rfl
  have isHeld : (ws.document? d'.id).isSome := Option.isSome_iff_exists.2 ⟨d, found⟩
  have target : ws.resolveImport? d.id i = some (.document t) := by
    rw [importedFile?, Option.ite_none_right_eq_some, Option.bind_eq_some_iff] at leads
    obtain ⟨-, u, resolved, place⟩ := leads
    rw [resolved, eq_document_of_file? place]
  obtain ⟨before, behind, old, new⟩ := lacks.imports
  rw [Findings.imports_ofImport_of_mem declared] at old
  refine ⟨d', lacks, ?_⟩
  rw [stored]
  exact {
    toSameLayout := .store isHeld
    found := found
    found' := document?_store_self ws d'
    others := fun file other => document?_store_of_ne isHeld other
    id := rfl
    keywords := lacks.keywords
    vars := lacks.vars
    imports := ⟨ws.resolveAll d before, ws.resolveAll d behind, by
      simp [resolveAll, old, target], by simp [resolveAll, new]⟩ }

/-- Whether a symbol may be lost with an import of `t`: imports of imported documents are in sight,
what is in sight is not the same without the import, and the symbol was seen below it. -/
structure MayBeLost {σ : Type} (ws : Workspace) (d : Document) (t : FileId) (ws' : Workspace)
    (d' : Document) (symbolsOf : ImportTarget → List σ) (a : σ) : Prop where
  transitive : ws.options.allowTransitiveImports = true
  changed : ws'.visibleImports d' ≠ ws.visibleImports d
  below : ws.SeesBelow d t symbolsOf a

/-- Whether all calls and usages of a document lead where they led before an import of `t` was left
out, unless that may be lost. -/
structure KeepsUses (ws : Workspace) (d : Document) (t : FileId) (ws' : Workspace)
    (d' : Document) : Prop where
  calls : ∀ c ∈ d'.calls, KeepsUnless (ws.MayBeLost d t ws' d' ws.keywordsOfTarget)
    ((Scope.ofDocument ws d).resolveKeyword? c.text)
    ((Scope.ofDocument ws' d').resolveKeyword? c.text)
  usages : ∀ u ∈ d'.usages, KeepsUnless (ws.MayBeLost d t ws' d' ws.variablesOfTarget)
    ((Scope.ofDocument ws d).resolveVariable? u.text u.span.start)
    ((Scope.ofDocument ws' d').resolveVariable? u.text u.span.start)

/-- What was found in sight, but not in the target of the import, is kept unless it may be lost. -/
theorem keepsUnless_mayBeLost {σ : Type} {symbolsOf : ImportTarget → List σ} {old new : Option σ}
    (kept : KeepsUnless (ws.SeesFrom d t symbolsOf) old new)
    (elsewhere : ∀ a, old = some a → a ∉ symbolsOf (.document t))
    (bySight : ws'.visibleImports d' = ws.visibleImports d → new = old) :
    KeepsUnless (ws.MayBeLost d t ws' d' symbolsOf) old new := by
  rcases kept with same | ⟨a, found, u, met, other, mem⟩
  · exact .inl same
  · by_cases same : ws'.visibleImports d' = ws.visibleImports d
    · exact .inl (bySight same)
    · have below : ws.SeesBelow d t symbolsOf a := by
        refine ⟨u, met, ?_, other, mem⟩
        rintro rfl
        exact elsewhere a found mem
      exact .inr ⟨a, found, allowTransitiveImports_of_seesBelow below, same, below⟩

namespace LacksImport

variable (h : ws.LacksImport d t ws' d')

include h

/-- Where the same is in sight, the same is seen. -/
theorem scope_eq (same : ws'.visibleImports d' = ws.visibleImports d) :
    Scope.ofDocument ws' d' = Scope.ofDocument ws d := by
  have builtIn : ws'.builtInVariables = ws.builtInVariables := congrArg BuiltIn.vars h.libraries
  rw [Scope.ofDocument, Scope.ofDocument, visibleVariables, visibleVariables, same, h.id,
    h.keywords, h.vars, h.keywordsOfTarget, h.variablesOfTarget, h.libraries, builtIn]

/-- Where nothing of an imported document is used, all uses are kept without the import. -/
theorem keepsUses {provider : LibraryProvider} (libraries : ws.libraries = provider.index)
    {i : ImportDeclaration} (unused : ws.isUnused d i = true)
    (leads : ws.importedFile? d i = some t) (calls : d'.calls ⊆ d.calls)
    (usages : d'.usages ⊆ d.usages) : ws.KeepsUses d t ws' d' where
  calls c hc := by
    refine keepsUnless_mayBeLost (h.resolveKeyword? libraries c.text) ?_ fun same => ?_
    · intro k resolved mem
      exact notMem_usedFiles_of_isUnused unused leads
        (Scope.mem_usedFiles_of_call (calls hc) resolved (file?_of_mem_keywordsOfTarget mem))
    · rw [h.scope_eq same]
  usages u hu := by
    refine keepsUnless_mayBeLost (h.resolveVariable? libraries u.text u.span.start) ?_
      fun same => ?_
    · intro v resolved mem
      exact notMem_usedFiles_of_isUnused unused leads
        (Scope.mem_usedFiles_of_usage (usages hu) resolved (file?_of_mem_variablesOfTarget mem))
    · rw [h.scope_eq same]

end LacksImport

end Workspace

namespace Session

/-- Only setting libraries changes them. -/
theorem libraries_change (s : Session) (c : Change) :
    (∃ provider, c = .setLibraries provider) ∨
      (s.change c).workspace.libraries = s.workspace.libraries := by
  cases c with
  | register path => exact .inr Workspace.libraries_register
  | setText path text =>
    obtain ⟨d, -, -, stored⟩ := s.workspace.setText_eq_store path text
    refine .inr ?_
    change (s.workspace.setText path text).2.libraries = _
    rw [stored, Workspace.libraries_store, Workspace.libraries_register]
  | insert path source =>
    exact .inr (Workspace.libraries_store.trans Workspace.libraries_register)
  | remove path =>
    refine .inr ?_
    rw [change, remove, Workspace.remove]
    cases s.workspace.idOf? path <;> rfl
  | setOptions options => exact .inr rfl
  | setLibraries provider => exact .inl ⟨provider, rfl⟩

/-- The libraries of a session are always those of some provider. -/
theorem exists_libraries_after {s : Session} {events : List Event}
    (h : ∃ provider : LibraryProvider, s.workspace.libraries = provider.index) :
    ∃ provider : LibraryProvider, (s.after events).workspace.libraries = provider.index := by
  induction events generalizing s with
  | nil => exact h
  | cons event events ih =>
    refine ih (s := s.step event) ?_
    cases event with
    | ask file q =>
      rw [step, workspace_ask]
      exact h
    | change c =>
      rcases s.libraries_change c with ⟨provider, rfl⟩ | same
      · exact ⟨provider, rfl⟩
      · rw [step, same]
        exact h

/-- After any changes and questions by which only parsed texts are inserted: a row of one line that
imports a document of which nothing is used may become a comment, and all other calls and usages
lead where they led, unless that was below the import. -/
theorem keepsUses_of_isUnused (provider : LibraryProvider) (events : List Event)
    (inserted : ∀ path source, .change (.insert path source) ∈ events →
      ∃ text, source.Holds text) :
    let ws := ((start provider).after events).workspace
    ∀ d ∈ ws.documents, ∀ row ∈ d.importRows, '\n' ∉ row.text.dropLast →
      ∀ i ∈ (Findings.ofImport row).imports, ws.isUnused d i = true →
      ∀ comment, Text.IsCommentFor row.text comment → ∀ path, ws.lookup? path = some d.id →
        let ws' := (ws.setText path (d.source.text.splice row.span comment)).2
        ∃ t d', ws.importedFile? d i = some t ∧ ws'.document? d.id = some d' ∧
          d.LacksImport row d' ∧ ws.KeepsUses d t ws' d' := by
  intro ws d hd row hrow single i hi unused comment isComment path held ws'
  have sound : ws.Sound := ((valid_start provider).after events).sound
  have none : (start provider).AllSources fun source => ∃ text, source.Holds text :=
    fun _ hd => nomatch hd
  obtain ⟨text, holds⟩ : ∃ text, d.source.Holds text :=
    none.after (fun _ text holds => ⟨text, holds⟩) inserted d hd
  obtain ⟨provider', libraries⟩ : ∃ provider' : LibraryProvider, ws.libraries = provider'.index :=
    exists_libraries_after ⟨provider, rfl⟩
  obtain ⟨t, leads, -⟩ := (Option.any_eq_true _ _).1 unused
  obtain ⟨d', lacks, lacksImport⟩ := Workspace.exists_lacksImport_setText
    (Workspace.document?_of_mem sound hd) holds hrow single hi leads isComment held
  have calls : d'.calls ⊆ d.calls := by rw [lacks.calls]; exact List.Subset.refl _
  have usages : d'.usages ⊆ d.usages := by
    obtain ⟨before, behind, old, new⟩ := lacks.usages
    rw [old, new]
    intro u hu
    simp only [List.mem_append] at hu ⊢
    exact hu.imp_right .inr
  exact ⟨t, d', leads, lacksImport.found', lacks,
    lacksImport.keepsUses libraries unused leads calls usages⟩

/-- An import of an empty document beside one of a document that is used. -/
theorem keepsUses_of_isUnused_beside :
    let path : Path := ⟨"/main.robot".toList⟩
    let text : Text :=
      ("*** Settings ***\nResource    a.resource\nResource    b.resource\n" ++
        "*** Tasks ***\nT\n    Go\n").toList
    let comment : Text := "#esource    a.resource\n".toList
    let events : List Event :=
      [.change (.setText path text), .change (.setText ⟨"/a.resource".toList⟩ []),
        .change (.setText ⟨"/b.resource".toList⟩ "*** Keywords ***\nGo\n".toList),
        .change (.setOptions { allowTransitiveImports := false })]
    let ws := ((start .nothing).after events).workspace
    let d : Document := .ofSource ⟨0⟩ (.ofText text)
    let i : ImportDeclaration := ⟨.resource, "a.resource".toList, none, ⟨29, 10⟩⟩
    (∀ path source, .change (.insert path source) ∈ events → ∃ text, source.Holds text) ∧
      d ∈ ws.documents ∧ ws.lookup? path = some d.id ∧
      ∃ row ∈ d.importRows, '\n' ∉ row.text.dropLast ∧ i ∈ (Findings.ofImport row).imports ∧
        ws.isUnused d i = true ∧ Text.IsCommentFor row.text comment ∧
        let ws' := (ws.setText path (d.source.text.splice row.span comment)).2
        ∃ d', ws'.document? d.id = some d' ∧ d.LacksImport row d' ∧
          ∀ c ∈ d'.calls, (Scope.ofDocument ws' d').resolveKeyword? c.text =
            (Scope.ofDocument ws d).resolveKeyword? c.text := by
  intro path text comment events ws d i
  have inserted : ∀ path source, .change (.insert path source) ∈ events →
      ∃ text, source.Holds text := by simp [events]
  have hd : d ∈ ws.documents := List.mem_cons_self
  have held : ws.lookup? path = some d.id := by decide +kernel
  let row : Node := d.importRows.head (by decide +kernel)
  have hrow : row ∈ d.importRows := List.head_mem _
  have written : row.text = "Resource    a.resource\n".toList := by decide +kernel
  have declared : (Findings.ofImport row).imports = [i] := by decide +kernel
  have single : '\n' ∉ row.text.dropLast := by rw [written]; decide
  have unused : ws.isUnused d i = true := by decide +kernel
  have isComment : Text.IsCommentFor row.text comment := by
    rw [written]
    exact ⟨by decide, ⟨[], "esource    a.resource\n".toList, rfl, by simp⟩, by decide, by decide⟩
  have hi : i ∈ (Findings.ofImport row).imports := by simp [declared]
  obtain ⟨t, d', leads, found, lacks, keeps⟩ := keepsUses_of_isUnused .nothing events inserted d hd
    row hrow single i hi unused comment isComment path held
  refine ⟨inserted, hd, held, row, hrow, single, hi, unused, isComment, d', found, lacks, ?_⟩
  intro c hc
  rcases keeps.calls c hc with same | ⟨k, -, lost⟩
  · exact same
  · cases lost.transitive

/-- A call that leads to a document which is imported only by way of an unused import: nothing of
the imported document itself is used, but without the import the call leads nowhere. -/
theorem resolveKeyword?_eq_none_of_isUnused :
    let path : Path := ⟨"/main.robot".toList⟩
    let text : Text :=
      "*** Settings ***\nResource    a.resource\n*** Tasks ***\nT\n    Go Deep\n".toList
    let comment : Text := "#esource    a.resource\n".toList
    let edited : Text :=
      "*** Settings ***\n#esource    a.resource\n*** Tasks ***\nT\n    Go Deep\n".toList
    let events : List Event :=
      [.change (.setText path text),
        .change (.setText ⟨"/a.resource".toList⟩
          "*** Settings ***\nResource    b.resource\n".toList),
        .change (.setText ⟨"/b.resource".toList⟩ "*** Keywords ***\nGo Deep\n".toList)]
    let ws := ((start .nothing).after events).workspace
    let d : Document := .ofSource ⟨0⟩ (.ofText text)
    let i : ImportDeclaration := ⟨.resource, "a.resource".toList, none, ⟨29, 10⟩⟩
    let call : Mention := ⟨"Go Deep".toList, ⟨60, 7⟩⟩
    d ∈ ws.documents ∧ ws.lookup? path = some d.id ∧
      ∃ row ∈ d.importRows, '\n' ∉ row.text.dropLast ∧ i ∈ (Findings.ofImport row).imports ∧
        ws.isUnused d i = true ∧ Text.IsCommentFor row.text comment ∧
        d.source.text.splice row.span comment = edited ∧
        let ws' := (ws.setText path edited).2
        ∃ d', ws'.document? d.id = some d' ∧ d.LacksImport row d' ∧ call ∈ d'.calls ∧
          (Scope.ofDocument ws d).resolveKeyword? call.text =
            some (.declare none "Go Deep".toList false (.document ⟨2⟩ ⟨17, 7⟩)) ∧
          (Scope.ofDocument ws' d').resolveKeyword? call.text = none := by
  intro path text comment edited events ws d i call
  have hd : d ∈ ws.documents := List.mem_cons_self
  have held : ws.lookup? path = some d.id := by decide +kernel
  let row : Node := d.importRows.head (by decide +kernel)
  have hrow : row ∈ d.importRows := List.head_mem _
  have written : row.text = "Resource    a.resource\n".toList := by decide +kernel
  have declared : (Findings.ofImport row).imports = [i] := by decide +kernel
  have hi : i ∈ (Findings.ofImport row).imports := by simp [declared]
  have single : '\n' ∉ row.text.dropLast := by rw [written]; decide
  have isComment : Text.IsCommentFor row.text comment := by
    rw [written]
    exact ⟨by decide, ⟨[], "esource    a.resource\n".toList, rfl, by simp⟩, by decide, by decide⟩
  have leads : ws.importedFile? d i = some ⟨1⟩ := by decide +kernel
  -- In sight are the imported document and what it imports.
  let targets : List ImportTarget := [.document ⟨1⟩, .document ⟨2⟩]
  have imported : ws.resolveAll d d.imports = [.document ⟨1⟩] := by decide +kernel
  have below : ws.importsOfTarget (.document ⟨1⟩) = [.document ⟨2⟩] := by decide +kernel
  have bottom : ws.importsOfTarget (.document ⟨2⟩) = [] := by decide +kernel
  have known : TargetIdentity.document ⟨1⟩ ∈ ws.documentIdentities := by decide +kernel
  have listed : ws.visibleImports d = targets := by
    change DepthFirst.collect ImportTarget.identity ws.documentIdentities ws.importsOfTarget []
      (ws.resolveAll d d.imports) = _
    simp [imported, below, bottom, known, DepthFirst.collect, ImportTarget.identity, targets]
  have scope : Scope.ofDocument ws d =
      ⟨⟨0⟩, d.keywords, targets.flatMap ws.keywordsOfTarget, [],
        Variable.distinct (ws.builtInVariables ++ d.vars ++ targets.flatMap ws.variablesOfTarget),
        .empty⟩ := by
    rw [Scope.ofDocument, Workspace.visibleVariables, listed]
    rfl
  have unused : ws.isUnused d i = true := by
    rw [Workspace.isUnused, leads, Workspace.usedFiles, scope]
    decide +kernel
  have resolved : (Scope.ofDocument ws d).resolveKeyword? call.text =
      some (.declare none "Go Deep".toList false (.document ⟨2⟩ ⟨17, 7⟩)) := by
    rw [scope]
    decide +kernel
  -- Without the import nothing is in sight.
  let ws' := (ws.setText path edited).2
  let d' := d.setText edited
  have holds : d.source.Holds text := ⟨0, rfl⟩
  have span : row.span = ⟨17, 23⟩ := by decide +kernel
  have spliced : d.source.text.splice row.span comment = edited := by
    rw [holds.text_eq, span]
    decide
  have lacks : d.LacksImport row d' := d.lacksImport_setText holds hrow single isComment spliced
  have found' : ws'.document? d.id = some d' := by decide +kernel
  have imported' : ws'.resolveAll d' d'.imports = [] := by decide +kernel
  have listed' : ws'.visibleImports d' = [] := by
    change DepthFirst.collect ImportTarget.identity ws'.documentIdentities ws'.importsOfTarget []
      (ws'.resolveAll d' d'.imports) = _
    simp [imported', DepthFirst.collect]
  have scope' : Scope.ofDocument ws' d' =
      ⟨⟨0⟩, d'.keywords, [], [], Variable.distinct (ws'.builtInVariables ++ d'.vars), .empty⟩ := by
    rw [Scope.ofDocument, Workspace.visibleVariables, listed']
    simp only [List.flatMap_nil, List.filterMap_nil, List.append_nil]
    rfl
  have lost : (Scope.ofDocument ws' d').resolveKeyword? call.text = none := by
    rw [scope']
    decide +kernel
  have kept : call ∈ d'.calls := by decide +kernel
  exact ⟨hd, held, row, hrow, single, hi, unused, isComment, spliced, d', found', lacks, kept,
    resolved, lost⟩

end Session

end RobotAnalysis
