import RobotAnalysis.Completion
import RobotAnalysis.Diagnostic
import RobotAnalysis.Navigation

/-!
# Cached queries

The sections of a document are read once for each version of its text, and the libraries are asked
once for everything. `Caches` holds what is known already, and a `Cached` query answers from it and
adds to it. Every query follows the one of the same name that reads everything anew.
-/
namespace RobotAnalysis

/-- What has been read off documents and looked up in libraries. -/
structure Caches where
  /-- The sections of documents, each with the version of the text that they were read from. -/
  sections : List (FileId × Nat × List SectionModel)
  project : ProjectCache
  deriving DecidableEq

namespace Caches

def empty : Caches := ⟨[], .empty⟩

/-- The sections kept for the text of a document; those of another version do not count. -/
def sectionsOf? (c : Caches) (d : Document) : Option (List SectionModel) :=
  match c.sections.lookup d.id with
  | some (version, sections) => if version = d.source.version then some sections else none
  | none => none

/-- Forgets the sections of a document. -/
def forget (c : Caches) (file : FileId) : Caches :=
  { c with sections := c.sections.filter fun e => e.1 != file }

/-- Keeps the sections of a document under its version. -/
def keep (c : Caches) (d : Document) : Caches :=
  { c with sections := (d.id, d.source.version, d.sections) :: (c.forget d.id).sections }

def forgetLibraries (c : Caches) : Caches := { c with project := .empty }

end Caches

/-- A query that answers from caches and adds to them. -/
abbrev Cached (α : Type) : Type := StateM Caches α

namespace Cached

def sections (d : Document) : Cached (List SectionModel) := do
  match (← get).sectionsOf? d with
  | some sections => return sections
  | none =>
    modify fun c => c.keep d
    return d.sections

/-- A question to the cache of the libraries. -/
def inProject {α : Type} (lookup : ProjectCache → α × ProjectCache) : Cached α :=
  modifyGet fun c => ((lookup c.project).1, { c with project := (lookup c.project).2 })

def keywords (d : Document) : Cached (List Keyword) := do
  return SectionModel.keywords (← sections d)

def vars (d : Document) : Cached (List Variable) := do
  return SectionModel.vars (← sections d)

def imports (d : Document) : Cached (List ImportDeclaration) := do
  return SectionModel.imports (← sections d)

def runMarkers (d : Document) : Cached (List RunMarker) := do
  return d.markersOf (SectionModel.testCases (← sections d))

variable (ws : Workspace)

def builtInVariables : Cached (List Variable) :=
  inProject fun p => p.builtInVariables ws.libraries

def builtInLibrary : Cached (Option ImportTarget) :=
  inProject fun p => p.builtInLibrary ws.libraries

def builtInKeywords : Cached (List Keyword) :=
  inProject fun p => p.builtInKeywords ws.libraries

def directImports (d : Document) : Cached (List ImportTarget) := do
  let builtIn ← builtInLibrary ws
  let declared ← imports d
  return ImportTarget.distinct (builtIn.toList ++ ws.resolveAll d declared)

def importsOfTarget : ImportTarget → Cached (List ImportTarget)
  | .document file =>
    match ws.document? file with
    | some d => directImports ws d
    | none => return []
  | .library _ _ | .module _ => return []

def allImports (d : Document) : Cached (List ImportTarget) := do
  let builtIn ← builtInLibrary ws
  let declared ← imports d
  DepthFirst.collectM ImportTarget.identity ws.documentIdentities (importsOfTarget ws)
    builtIn.toList (ws.resolveAll d declared)

def importsOf (d : Document) (transitive : Bool) : Cached (List ImportTarget) :=
  if transitive then allImports ws d else directImports ws d

def visibleImports (d : Document) : Cached (List ImportTarget) :=
  importsOf ws d ws.options.allowTransitiveImports

def keywordsOfTarget : ImportTarget → Cached (List Keyword)
  | .document file =>
    match ws.document? file with
    | some d => keywords d
    | none => return []
  | .library qualifier c => inProject fun p => p.classKeywords qualifier c
  | .module _ => return []

def variablesOfTarget : ImportTarget → Cached (List Variable)
  | .document file =>
    match ws.document? file with
    | some d => vars d
    | none => return []
  | .library _ _ => return []
  | .module m => return m.declaredVariables

def visibleVariables (d : Document) : Cached (List Variable) := do
  let builtIn ← builtInVariables ws
  let own ← vars d
  let targets ← visibleImports ws d
  let imported ← targets.mapM (variablesOfTarget ws)
  return Variable.distinct (builtIn ++ own ++ imported.flatten)

def scope (d : Document) : Cached Scope := do
  let targets ← visibleImports ws d
  let imported ← targets.mapM (keywordsOfTarget ws)
  let own ← keywords d
  let visible ← visibleVariables ws d
  return {
    file := d.id
    ownKeywords := own
    importedKeywords := imported.flatten
    libraries := targets.filterMap Scope.library?
    vars := visible
    index := ws.libraries }

def resolveKeyword (d : Document) (text : Text) : Cached (Option Keyword) := do
  return (← scope ws d).resolveKeyword? text

def resolveVariable (d : Document) (text : Text) (offset : Nat) : Cached (Option Variable) := do
  return (← scope ws d).resolveVariable? text offset

def usedFiles (d : Document) : Cached (List FileId) := do
  let visible ← scope ws d
  return visible.usedFiles (← sections d)

def callsOf (d : Document) (definition : Option Keyword) : Cached (List Mention) := do
  let own ← sections d
  match definition with
  | none => return SectionModel.calls own
  | some k => return (← scope ws d).callsTo k own

/-- A warning for every unused import. Nothing is resolved where no document is imported. -/
def unusedImports (d : Document) : Cached (List Diagnostic) := do
  let declared ← imports d
  if declared.any fun i => i.kind == .resource then
    return ws.unusedAmong d declared (← usedFiles ws d)
  else return []

def diagnostics (d : Document) : Cached (List Diagnostic) := do
  return Diagnostic.ofSyntax d ++ (← unusedImports ws d)

/-- The candidates at an offset that fit what has been typed. The scope is not looked at in
sections where no symbol may be written. -/
def completions (d : Document) (offset : Nat) : Cached (List CompletionItem) := do
  let kind := SectionModel.kindAt (← sections d) offset
  let words := Workspace.wordCandidates kind
  if kind.holdsBodies || kind.isSettings then
    let visible ← scope ws d
    return Workspace.fitting d offset
      (words ++ Workspace.symbolCandidates ws.options kind visible offset)
  else return Workspace.fitting d offset words

def declarationAt (d : Document) (offset : Nat) : Cached (Option NavigationTarget) :=
  match d.source.tree.cellAt? offset with
  | none => return none
  | some cell => do
    let visible ← scope ws d
    return ws.declarationIn? d visible (← imports d) cell offset

def keywordAt (d : Document) (offset : Nat) : Cached (Option Keyword) :=
  match d.source.tree.cellAt? offset with
  | none => return none
  | some cell =>
    match cell.kind with
    | .definitionName => do return Workspace.declaredIn? d cell (← keywords d)
    | .keywordCall => resolveKeyword ws d cell.text
    | _ => return none

def callReferences (k : Keyword) : Cached (List Reference) := do
  let found ← ws.documents.mapM fun d => do
    return (← callsOf ws d (some k)).map fun c => d.reference c.span false
  return found.flatten

def references (d : Document) (offset : Nat) (withDeclaration : Bool) : Cached ReferenceList := do
  match ← keywordAt ws d offset with
  | none => return ⟨none, []⟩
  | some k =>
    let declaration := if withDeclaration then (ws.declarationOf? k).toList else []
    return ⟨some k, declaration ++ (← callReferences ws k)⟩

end Cached

end RobotAnalysis
