import Mathlib.Data.List.Basic
import RobotAnalysis.Proofs.SymbolPlaces
import RobotAnalysis.Session

/-!
# Edits of documents that are out of sight

What is asked about a document is answered from the document itself, from the documents that it
sees, and from the paths, libraries and options of the workspace. So two workspaces that agree on
these give the same answers, whatever else their documents hold; in particular a new text for a
document that is not in sight changes no answer. Only the calls of a keyword are looked for in all
documents.
-/
namespace RobotAnalysis

open DepthFirst (Visits)

/-- Whether a question is answered from a document and what it sees. References are looked for in
all documents, and the imports of imported documents are in sight only where the options say so. -/
def Question.IsAnsweredInSight (options : Options) : Question → Prop
  | .references _ _ => False
  | .importsOf transitive => transitive = true → options.allowTransitiveImports = true
  | _ => True

namespace Workspace

/-- Two workspaces with the same paths, libraries and options, and with documents of the same
numbers in the same order. -/
structure SameLayout (ws ws' : Workspace) : Prop where
  paths : ws'.paths = ws.paths
  ids : ws'.documents.map Document.id = ws.documents.map Document.id
  libraries : ws'.libraries = ws.libraries
  options : ws'.options = ws.options

/-- Two workspaces that differ at most in the contents of documents that some document does not
see. -/
structure AlikeFor (ws : Workspace) (d : Document) (ws' : Workspace) : Prop
    extends SameLayout ws ws' where
  seen : ∀ file, ws.Sees d file → ws'.document? file = ws.document? file

variable {ws ws' : Workspace} {d : Document} {file : FileId}

theorem map_id_document? (ws : Workspace) (file : FileId) :
    (ws.document? file).map Document.id =
      (ws.documents.map Document.id).find? fun id => id == file := by
  rw [List.find?_map]
  rfl

theorem findByEnd?_eq (ws : Workspace) (target : Path) :
    ws.findByEnd? target =
      let names := target.components.filter fun c => match c with
        | .normal _ => true
        | _ => false
      if names.isEmpty then none
      else (ws.documents.map Document.id).find? fun id =>
        (ws.path? id).any fun p => p.endsWith names := by
  simp only [findByEnd?, List.find?_map]
  rfl

namespace SameLayout

variable (h : ws.SameLayout ws')

include h

theorem isSome_document? : (ws'.document? file).isSome = (ws.document? file).isSome := by
  rw [← Option.isSome_map (f := Document.id), map_id_document?, h.ids, ← map_id_document?,
    Option.isSome_map]

theorem path? : ws'.path? = ws.path? := by
  funext file
  rw [Workspace.path?, Workspace.path?, h.paths]

theorem findByEnd? (target : Path) : ws'.findByEnd? target = ws.findByEnd? target := by
  rw [findByEnd?_eq, findByEnd?_eq, h.ids, h.path?]

theorem findByComponents? (components : List Component) :
    ws'.findByComponents? components = ws.findByComponents? components := by
  simp only [Workspace.findByComponents?, h.paths, h.isSome_document?]

/-- Where an import leads follows from paths and libraries alone. -/
theorem resolveImport? (source : FileId) :
    ws'.resolveImport? source = ws.resolveImport? source := by
  funext i
  simp only [Workspace.resolveImport?, resolveResource?, h.path?, h.findByEnd?,
    h.findByComponents?, h.libraries]

theorem resolveAll (e : Document) (imports : List ImportDeclaration) :
    ws'.resolveAll e imports = ws.resolveAll e imports := by
  simp only [Workspace.resolveAll, h.resolveImport?]

theorem builtInLibrary? : ws'.builtInLibrary? = ws.builtInLibrary? := by
  rw [Workspace.builtInLibrary?, Workspace.builtInLibrary?, h.libraries]

theorem directImports (e : Document) : ws'.directImports e = ws.directImports e := by
  rw [Workspace.directImports, Workspace.directImports, h.builtInLibrary?, h.resolveAll]

theorem importedFile? (e : Document) (i : ImportDeclaration) :
    ws'.importedFile? e i = ws.importedFile? e i := by
  rw [Workspace.importedFile?, Workspace.importedFile?, h.resolveImport?]

end SameLayout

/-- What a document imports itself is in sight under all options. -/
theorem Declares.sees (h : ws.Declares d (.document file)) : ws.Sees d file := by
  have listed : (ImportTarget.document file).identity ∈
      (ws.visibleImports d).map ImportTarget.identity := by
    rw [visibleImports, importsOf]
    split
    · exact allImports_lists.complete _ ⟨d, .refl, h⟩
    · exact directImports_lists.complete _ h
  obtain ⟨t, ht, same⟩ := List.mem_map.1 listed
  exact .inr (eq_document_of_identity same ▸ ht)

namespace AlikeFor

variable (h : ws.AlikeFor d ws')

include h

/-- The walk through the imports looks only at documents that it lists. -/
theorem allImports (transitive : ws.options.allowTransitiveImports = true) :
    ws'.allImports d = ws.allImports d := by
  have sameBelow : ∀ t ∈ ws.allImports d, ws'.importsOfTarget t = ws.importsOfTarget t := by
    intro t ht
    cases t with
    | document file =>
      have sees : ws.Sees d file := .inr (by simpa [visibleImports, importsOf, transitive] using ht)
      simp only [importsOfTarget, h.seen file sees, funext h.directImports]
    | library _ _ => rfl
    | module _ => rfl
  have walk := allImports_visits.congr sameBelow
  have walk' : Visits ImportTarget.identity ws'.importsOfTarget ws'.builtInLibrary?.toList
    (ws'.resolveAll d d.imports) (ws'.allImports d) := allImports_visits
  rw [h.builtInLibrary?, h.resolveAll] at walk'
  exact walk'.unique walk

theorem importsOf {transitive : Bool}
    (inSight : transitive = true → ws.options.allowTransitiveImports = true) :
    ws'.importsOf d transitive = ws.importsOf d transitive := by
  cases transitive with
  | true => exact h.allImports (inSight rfl)
  | false => exact h.directImports d

theorem visibleImports : ws'.visibleImports d = ws.visibleImports d := by
  rw [Workspace.visibleImports, h.options]
  exact h.importsOf id

theorem visibleVariables : ws'.visibleVariables d = ws.visibleVariables d := by
  have imported : (ws.visibleImports d).flatMap ws'.variablesOfTarget =
      (ws.visibleImports d).flatMap ws.variablesOfTarget := by
    refine List.flatMap_congr fun t ht => ?_
    cases t with
    | document file => simp only [variablesOfTarget, h.seen file (.inr ht)]
    | library _ _ => rfl
    | module _ => rfl
  rw [Workspace.visibleVariables, h.visibleImports, imported, builtInVariables, h.libraries]
  rfl

theorem scope : Scope.ofDocument ws' d = Scope.ofDocument ws d := by
  have imported : (ws.visibleImports d).flatMap ws'.keywordsOfTarget =
      (ws.visibleImports d).flatMap ws.keywordsOfTarget := by
    refine List.flatMap_congr fun t ht => ?_
    cases t with
    | document file => simp only [keywordsOfTarget, h.seen file (.inr ht)]
    | library _ _ => rfl
    | module _ => rfl
  simp only [Scope.ofDocument, h.visibleImports, h.visibleVariables, imported, h.libraries]

theorem usedFiles : ws'.usedFiles d = ws.usedFiles d := by
  rw [Workspace.usedFiles, h.scope, Workspace.usedFiles]

theorem callsOf (definition : Option Keyword) :
    ws'.callsOf d definition = ws.callsOf d definition := by
  simp only [Workspace.callsOf, h.scope]

theorem unusedImports : ws'.unusedImports d = ws.unusedImports d := by
  simp only [Workspace.unusedImports, unusedAmong, h.usedFiles, h.importedFile?]

theorem completions (offset : Nat) : ws'.completions d offset = ws.completions d offset := by
  simp only [Workspace.completions, candidates, h.scope, h.options]

/-- A place in a document that is in sight is described by the lines of that document. -/
theorem target {location : Location} (kind : TargetKind) (name : Text)
    (inSight : ∀ file, location.file? = some file → ws.Sees d file) :
    ws'.target kind name location = ws.target kind name location := by
  cases location with
  | library _ _ => rfl
  | document file span => simp only [Workspace.target, h.seen file (inSight file rfl)]

theorem importAt? (span : Span) :
    ws'.importAt? d d.imports span = ws.importAt? d d.imports span := by
  rw [Workspace.importAt?, Workspace.importAt?]
  cases found : d.imports.find? fun i => i.span == span with
  | none => rfl
  | some i =>
    simp only [Option.bind_eq_bind, Option.bind_some, h.resolveImport?]
    cases resolved : ws.resolveImport? d.id i with
    | none => rfl
    | some t =>
      cases t with
      | library _ _ => rfl
      | module _ => rfl
      | document file =>
        have declared : ws.Declares d (.document file) :=
          ⟨i, List.mem_of_find?_eq_some found, resolved⟩
        simp only [Option.bind_some]
        rw [h.target]
        rintro _ ⟨⟩
        exact declared.sees

theorem declarationAt? (offset : Nat) :
    ws'.declarationAt? d offset = ws.declarationAt? d offset := by
  rw [Workspace.declarationAt?, Workspace.declarationAt?, h.scope]
  refine congrArg (Option.bind _) (funext fun cell => ?_)
  simp only [declarationIn?]
  split
  · refine Option.map_congr fun v hv => h.target _ _ fun file => ?_
    exact sees_of_resolveVariable? hv
  · split
    · refine Option.map_congr fun k hk => h.target _ _ fun file => ?_
      exact sees_of_resolveKeyword? hk
    · exact h.importAt? cell.span
    · rfl

/-- What is answered without looking through all documents is answered alike. -/
theorem answer {q : Question} (inSight : q.IsAnsweredInSight ws.options) :
    q.answer ws' d = q.answer ws d := by
  cases q with
  | sections | keywords | vars | runMarkers => rfl
  | visibleVariables => exact h.visibleVariables
  | importsOf transitive => exact h.importsOf inSight
  | usedFiles => exact h.usedFiles
  | callsOf definition => exact h.callsOf definition
  | resolveKeyword text => exact congrArg (fun s => s.resolveKeyword? text) h.scope
  | resolveVariable text offset => exact congrArg (fun s => s.resolveVariable? text offset) h.scope
  | completions offset => exact h.completions offset
  | declarationAt offset => exact h.declarationAt? offset
  | references _ _ => cases inSight
  | unusedImports => exact h.unusedImports
  | diagnostics => exact congrArg (Diagnostic.ofSyntax d ++ ·) h.unusedImports
  | builtInVariables => exact congrArg BuiltIn.vars h.libraries
  | builtInKeywords => exact congrArg BuiltIn.keywords h.libraries

end AlikeFor

/-- Putting a document in the place of another one with its number leaves the layout as it is. -/
theorem SameLayout.store {e : Document} (held : (ws.document? e.id).isSome) :
    ws.SameLayout (ws.store e) := by
  rw [Workspace.store, if_pos held]
  refine ⟨rfl, ?_, rfl, rfl⟩
  rw [List.map_map]
  refine List.map_congr_left fun a _ => ?_
  by_cases same : a.id = e.id <;> simp [same]

theorem document?_store_of_ne {e : Document} (held : (ws.document? e.id).isSome)
    (other : file ≠ e.id) : (ws.store e).document? file = ws.document? file := by
  rw [Workspace.store, if_pos held, document?, document?, List.find?_map]
  have sameId : (fun a : Document => a.id == file) ∘ (fun a => if a.id = e.id then e else a) =
      fun a => a.id == file := by
    funext a
    by_cases same : a.id = e.id <;> simp [same]
  rw [sameId]
  cases found : ws.documents.find? fun a => a.id == file with
  | none => rfl
  | some a =>
    have id : a.id = file := id_of_document? found
    rw [Option.map_some, if_neg (id ▸ other)]

theorem document?_store_self (ws : Workspace) (d : Document) :
    (ws.store d).document? d.id = some d := by
  rw [store]
  split
  · rename_i held
    obtain ⟨old, found⟩ := Option.isSome_iff_exists.1 held
    have kept : (fun e : Document => (if e.id = d.id then d else e).id == d.id) =
        fun e => e.id == d.id := by
      funext e
      split
      · rename_i same
        rw [same]
      · rfl
    have there : ws.documents.find? (fun e => e.id == d.id) = some old := found
    rw [document?, List.find?_map, Function.comp_def, kept, there, Option.map_some,
      if_pos (id_of_document? found)]
  · rename_i unheld
    have unknown : ws.documents.find? (fun e => e.id == d.id) = none :=
      Option.not_isSome_iff_eq_none.1 unheld
    simp [document?, List.find?_append, unknown]

/-- A new text for a document in the workspace is stored in its place. -/
theorem setText_of_lookup? {path : Path} (held : ws.lookup? path = some file) (text : Text) :
    ∃ e, ws.document? file = some e ∧ (ws.setText path text).2 = ws.store (e.setText text) := by
  rw [lookup?, Option.filter_eq_some_iff] at held
  obtain ⟨e, found⟩ := Option.isSome_iff_exists.1 held.2
  exact ⟨e, found, by simp [Workspace.setText, register, held.1, found]⟩

/-- A new text for a document that is not in sight of another one changes nothing for that one. -/
theorem AlikeFor.setText {path : Path} (held : ws.lookup? path = some file)
    (outOfSight : ¬ ws.Sees d file) (text : Text) : ws.AlikeFor d (ws.setText path text).2 := by
  obtain ⟨e, found, stored⟩ := setText_of_lookup? held text
  have id : (e.setText text).id = file := show e.id = file from id_of_document? found
  have isHeld : (ws.document? (e.setText text).id).isSome := by rw [id, found]; rfl
  rw [stored]
  refine ⟨.store isHeld, fun seen sees => document?_store_of_ne isHeld ?_⟩
  rw [id]
  rintro rfl
  exact outOfSight sees

end Workspace

/-- A new text for a document leaves another document that does not import it as it is, and with it
all answers about that document that do not look through all documents: what it imports, the
variables it can use, what its calls and usages lead to, the declaration of what stands at any place
of it, its completions, its run markers and its diagnostics. -/
theorem Question.answer_setText_of_notMem_visibleImports (ws : Workspace) {file other : FileId}
    {d : Document} (found : ws.document? file = some d) {path : Path}
    (held : ws.lookup? path = some other) (apart : other ≠ file)
    (unrelated : .document other ∉ ws.visibleImports d) (text : Text) :
    let ws' := (ws.setText path text).2
    ws'.document? file = some d ∧
      ∀ q : Question, q.IsAnsweredInSight ws.options → q.answer ws' d = q.answer ws d := by
  intro ws'
  have id : d.id = file := Workspace.id_of_document? found
  have outOfSight : ¬ ws.Sees d other := by
    rintro (same | imported)
    · exact apart (same.trans id)
    · exact unrelated imported
  have alike : ws.AlikeFor d ws' := .setText held outOfSight text
  refine ⟨?_, fun q => alike.answer⟩
  rw [alike.seen file (.inl id.symm), found]

/-- A document that imports one of two others, of which the other one is edited. -/
theorem Question.answer_setText_of_notMem_visibleImports_sibling :
    let d : Document := .ofSource ⟨0⟩ (.ofText "*** Settings ***\nResource    a.resource\n".toList)
    let a : Document := .ofSource ⟨1⟩ (.ofText "*** Keywords ***\nOpen\n".toList)
    let b : Document := .ofSource ⟨2⟩ (.ofText "*** Keywords ***\nClose\n".toList)
    let ws : Workspace :=
      ⟨[(⟨"/main.robot".toList⟩, ⟨0⟩), (⟨"/a.resource".toList⟩, ⟨1⟩),
        (⟨"/b.resource".toList⟩, ⟨2⟩)], [d, a, b], 3, .empty, {}⟩
    let ws' := (ws.setText ⟨"/b.resource".toList⟩ "*** Keywords ***\nOpen\n".toList).2
    ws.document? ⟨0⟩ = some d ∧ ws.lookup? ⟨"/b.resource".toList⟩ = some ⟨2⟩ ∧
      .document ⟨2⟩ ∉ ws.visibleImports d ∧
      ws'.document? ⟨0⟩ = some d ∧
        (Question.resolveKeyword "Open".toList).answer ws' d =
          (Question.resolveKeyword "Open".toList).answer ws d := by
  intro d a b ws ws'
  have found : ws.document? ⟨0⟩ = some d := rfl
  have held : ws.lookup? ⟨"/b.resource".toList⟩ = some ⟨2⟩ := by decide
  have imported : ws.resolveAll d d.imports = [.document ⟨1⟩] := by decide +kernel
  have below : ws.importsOfTarget (.document ⟨1⟩) = [] := by decide +kernel
  have listed : ws.visibleImports d = [.document ⟨1⟩] := by
    change DepthFirst.collect ImportTarget.identity ws.documentIdentities ws.importsOfTarget []
      (ws.resolveAll d d.imports) = _
    simp [imported, below, DepthFirst.collect]
  have unrelated : .document ⟨2⟩ ∉ ws.visibleImports d := by simp [listed]
  have same := Question.answer_setText_of_notMem_visibleImports ws found held (by decide) unrelated
    "*** Keywords ***\nOpen\n".toList
  exact ⟨found, held, unrelated, same.1, same.2 _ trivial⟩

end RobotAnalysis
