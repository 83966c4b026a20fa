import RobotAnalysis.BuiltIn
import RobotAnalysis.DepthFirst
import RobotAnalysis.Document
import RobotAnalysis.Options
import RobotAnalysis.Path

/-!
# Workspaces

The documents that are analysed together. A path is given a number when it is first seen and loses
it when its document is removed; numbers are never given twice. Documents keep the order in which
their numbers first got one. A target of an import is looked for beside the importing document, and
failing that at the end of any path.
-/
namespace RobotAnalysis

/-- The documents analysed together, and what their analysis depends on. -/
structure Workspace where
  /-- The known paths with their numbers. -/
  paths : List (Path × FileId)
  documents : List Document
  /-- The number that the next new path gets. -/
  nextId : Nat
  libraries : LibraryIndex
  options : Options

namespace Workspace

def empty (libraries : LibraryIndex) : Workspace := ⟨[], [], 0, libraries, {}⟩

/-- The number of a known path. -/
def idOf? (ws : Workspace) (path : Path) : Option FileId :=
  (ws.paths.find? fun entry => entry.1.same path).map Prod.snd

def path? (ws : Workspace) (file : FileId) : Option Path :=
  (ws.paths.find? fun entry => entry.2 == file).map Prod.fst

def document? (ws : Workspace) (file : FileId) : Option Document :=
  ws.documents.find? fun d => d.id == file

/-- The number of a path that holds a document. -/
def lookup? (ws : Workspace) (path : Path) : Option FileId :=
  (ws.idOf? path).filter fun file => (ws.document? file).isSome

/-- Gives a path a number if it has none. -/
def register (ws : Workspace) (path : Path) : FileId × Workspace :=
  match ws.idOf? path with
  | some file => (file, ws)
  | none =>
    (⟨ws.nextId⟩,
      { ws with paths := ws.paths ++ [(path, ⟨ws.nextId⟩)], nextId := ws.nextId + 1 })

/-- Puts a document in the place of the one with its number, or at the end. -/
def store (ws : Workspace) (d : Document) : Workspace :=
  if (ws.document? d.id).isSome then
    { ws with documents := ws.documents.map fun e => if e.id = d.id then d else e }
  else { ws with documents := ws.documents ++ [d] }

/-- Creates the document at a path, or replaces its text. -/
def setText (ws : Workspace) (path : Path) (text : Text) : FileId × Workspace :=
  let (file, ws) := ws.register path
  match ws.document? file with
  | some d => (file, ws.store (d.setText text))
  | none => (file, ws.store (.ofSource file (.ofText text)))

/-- Puts a parsed text at a path, in the place of any document there. -/
def insert (ws : Workspace) (path : Path) (source : SourceText) : FileId × Workspace :=
  let (file, ws) := ws.register path
  (file, ws.store (.ofSource file source))

/-- Removes the document at a path, and says whether there was one. The path loses its number. -/
def remove (ws : Workspace) (path : Path) : Bool × Workspace :=
  match ws.idOf? path with
  | none => (false, ws)
  | some file =>
    ((ws.document? file).isSome,
      { ws with
        paths := ws.paths.filter fun entry => !entry.1.same path
        documents := ws.documents.filter fun d => d.id != file })

def setOptions (ws : Workspace) (options : Options) : Workspace := { ws with options }

def setLibraries (ws : Workspace) (libraries : LibraryIndex) : Workspace := { ws with libraries }

def builtInVariables (ws : Workspace) : List Variable := BuiltIn.vars ws.libraries

def builtInLibrary? (ws : Workspace) : Option ImportTarget := BuiltIn.library? ws.libraries

def builtInKeywords (ws : Workspace) : List Keyword := BuiltIn.keywords ws.libraries

/-- The variable that stands for a separator. -/
def separatorVariable : Text := ['$', '{', '/', '}']

/-- The variable that stands for the directory of a document. -/
def directoryVariable : Text := ['$', '{', 'C', 'U', 'R', 'D', 'I', 'R', '}']

/-- A target with its variables replaced and `/` as the only separator. -/
def expand (directory : Option Path) (target : Text) : Text :=
  let plain := (Sequence.replaceAll separatorVariable ['/'] target.trim).map
    fun c => if c = '\\' then '/' else c
  match directory with
  | some d => Sequence.replaceAll directoryVariable d.text plain
  | none => plain

/-- The first document whose path ends with the names in a target. -/
def findByEnd? (ws : Workspace) (target : Path) : Option FileId :=
  let names := target.components.filter fun c => match c with
    | .normal _ => true
    | _ => false
  if names.isEmpty then none
  else
    (ws.documents.find? fun d => (ws.path? d.id).any fun p => p.endsWith names).map Document.id

/-- The document at some resolved components. -/
def findByComponents? (ws : Workspace) (components : List Component) : Option FileId :=
  ((ws.paths.find? fun entry => entry.1.components == components).map Prod.snd).filter
    fun file => (ws.document? file).isSome

/-- The document that a target written in some document names. -/
def resolveResource? (ws : Workspace) (source : FileId) (target : Text) : Option FileId :=
  let directory := (ws.path? source).bind Path.parent?
  let written : Path := ⟨expand directory target⟩
  let candidate :=
    match directory with
    | some d => d.join written
    | none => written
  (ws.findByComponents? (Path.normalize candidate.components)).or (ws.findByEnd? written)

/-- What an import written in some document leads to. -/
def resolveImport? (ws : Workspace) (source : FileId) (d : ImportDeclaration) :
    Option ImportTarget :=
  match d.kind with
  | .resource => (ws.resolveResource? source d.target).map .document
  | .library =>
    ((ws.libraries.class? d.target).or
      ((ws.libraries.module? d.target).map LibraryClass.ofModule)).map
      (.library d.qualifier)
  | .variableFile => (ws.libraries.module? d.target).map .module

/-- What the imports of a document lead to, one after the other. -/
def resolveAll (ws : Workspace) (d : Document) (imports : List ImportDeclaration) :
    List ImportTarget :=
  imports.filterMap (ws.resolveImport? d.id)

/-- The library imported everywhere and the targets that a document imports itself, each once. -/
def directImports (ws : Workspace) (d : Document) : List ImportTarget :=
  ImportTarget.distinct (ws.builtInLibrary?.toList ++ ws.resolveAll d d.imports)

/-- The targets that a target imports itself. -/
def importsOfTarget (ws : Workspace) : ImportTarget → List ImportTarget
  | .document file => ((ws.document? file).map ws.directImports).getD []
  | .library _ _ | .module _ => []

/-- What a document is told apart by among the targets of imports. -/
def documentIdentities (ws : Workspace) : List TargetIdentity :=
  ws.documents.map fun e => .document e.id

/-- The library imported everywhere and all targets that a document imports, those of imported
documents right after them. -/
def allImports (ws : Workspace) (d : Document) : List ImportTarget :=
  DepthFirst.collect ImportTarget.identity ws.documentIdentities ws.importsOfTarget
    ws.builtInLibrary?.toList (ws.resolveAll d d.imports)

/-- The targets that a document imports, with those of imported documents or without. -/
def importsOf (ws : Workspace) (d : Document) (transitive : Bool) : List ImportTarget :=
  if transitive then ws.allImports d else ws.directImports d

/-- The targets that a document sees under the options of the workspace. -/
def visibleImports (ws : Workspace) (d : Document) : List ImportTarget :=
  ws.importsOf d ws.options.allowTransitiveImports

def keywordsOfTarget (ws : Workspace) : ImportTarget → List Keyword
  | .document file => ((ws.document? file).map Document.keywords).getD []
  | .library qualifier c => c.declaredKeywords qualifier
  | .module _ => []

def variablesOfTarget (ws : Workspace) : ImportTarget → List Variable
  | .document file => ((ws.document? file).map Document.vars).getD []
  | .library _ _ => []
  | .module m => m.declaredVariables

/-- The variables that a document can use: reserved ones, its own, and those of imported documents
and modules. -/
def visibleVariables (ws : Workspace) (d : Document) : List Variable :=
  Variable.distinct
    (ws.builtInVariables ++ d.vars ++ (ws.visibleImports d).flatMap ws.variablesOfTarget)

end Workspace

end RobotAnalysis
