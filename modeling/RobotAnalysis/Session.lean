import RobotAnalysis.Cached

/-!
# Sessions

A workspace together with the caches of its queries. A change of a document makes its sections
forgotten and a change of the libraries what was looked up in them; a query leaves the workspace as
it is and only adds to the caches.
-/
namespace RobotAnalysis

/-- A workspace and what is known about it. -/
structure Session where
  workspace : Workspace
  caches : Caches

namespace Session

def start (provider : LibraryProvider) : Session := ⟨.empty provider.index, .empty⟩

def register (s : Session) (path : Path) : FileId × Session :=
  let (file, workspace) := s.workspace.register path
  (file, { s with workspace })

def setText (s : Session) (path : Path) (text : Text) : FileId × Session :=
  let (file, workspace) := s.workspace.setText path text
  (file, ⟨workspace, s.caches.forget file⟩)

def insert (s : Session) (path : Path) (source : SourceText) : FileId × Session :=
  let (file, workspace) := s.workspace.insert path source
  (file, ⟨workspace, s.caches.forget file⟩)

def remove (s : Session) (path : Path) : Bool × Session :=
  let (removed, workspace) := s.workspace.remove path
  match s.workspace.idOf? path with
  | some file => (removed, ⟨workspace, s.caches.forget file⟩)
  | none => (removed, { s with workspace })

def setOptions (s : Session) (options : Options) : Session :=
  { s with workspace := s.workspace.setOptions options }

def setLibraries (s : Session) (provider : LibraryProvider) : Session :=
  ⟨s.workspace.setLibraries provider.index, s.caches.forgetLibraries⟩

/-- The session as it would be if no query had been answered yet. -/
def cold (s : Session) : Session := { s with caches := .empty }

def run {α : Type} (s : Session) (query : Workspace → Cached α) : α × Session :=
  let (answer, caches) := (query s.workspace).run s.caches
  (answer, { s with caches })

end Session

/-- What can be changed in a session. -/
inductive Change
  | register (path : Path)
  | setText (path : Path) (text : Text)
  | insert (path : Path) (source : SourceText)
  | remove (path : Path)
  | setOptions (options : Options)
  | setLibraries (provider : LibraryProvider)

/-- What can be asked about a document. -/
inductive Question
  | sections
  | keywords
  | vars
  | visibleVariables
  | importsOf (transitive : Bool)
  | usedFiles
  | callsOf (definition : Option Keyword)
  | runMarkers
  | resolveKeyword (text : Text)
  | resolveVariable (text : Text) (offset : Nat)
  | completions (offset : Nat)
  | declarationAt (offset : Nat)
  | references (offset : Nat) (withDeclaration : Bool)
  | unusedImports
  | diagnostics
  | builtInVariables
  | builtInKeywords

namespace Question

def Answer : Question → Type
  | .sections => List SectionModel
  | .keywords | .builtInKeywords => List Keyword
  | .vars | .visibleVariables | .builtInVariables => List Variable
  | .importsOf _ => List ImportTarget
  | .usedFiles => List FileId
  | .callsOf _ => List Mention
  | .runMarkers => List RunMarker
  | .resolveKeyword _ => Option Keyword
  | .resolveVariable _ _ => Option Variable
  | .completions _ => List CompletionItem
  | .declarationAt _ => Option NavigationTarget
  | .references _ _ => ReferenceList
  | .unusedImports | .diagnostics => List Diagnostic

/-- The answer that reads everything anew. -/
def answer (ws : Workspace) (d : Document) : (q : Question) → q.Answer
  | .sections => d.sections
  | .keywords => d.keywords
  | .vars => d.vars
  | .visibleVariables => ws.visibleVariables d
  | .importsOf transitive => ws.importsOf d transitive
  | .usedFiles => ws.usedFiles d
  | .callsOf definition => ws.callsOf d definition
  | .runMarkers => d.runMarkers
  | .resolveKeyword text => (Scope.ofDocument ws d).resolveKeyword? text
  | .resolveVariable text offset => (Scope.ofDocument ws d).resolveVariable? text offset
  | .completions offset => ws.completions d offset
  | .declarationAt offset => ws.declarationAt? d offset
  | .references offset withDeclaration => ws.references d offset withDeclaration
  | .unusedImports => ws.unusedImports d
  | .diagnostics => ws.diagnostics d
  | .builtInVariables => ws.builtInVariables
  | .builtInKeywords => ws.builtInKeywords

/-- The answer that uses the caches. -/
def cached (ws : Workspace) (d : Document) : (q : Question) → Cached q.Answer
  | .sections => Cached.sections d
  | .keywords => Cached.keywords d
  | .vars => Cached.vars d
  | .visibleVariables => Cached.visibleVariables ws d
  | .importsOf transitive => Cached.importsOf ws d transitive
  | .usedFiles => Cached.usedFiles ws d
  | .callsOf definition => Cached.callsOf ws d definition
  | .runMarkers => Cached.runMarkers d
  | .resolveKeyword text => Cached.resolveKeyword ws d text
  | .resolveVariable text offset => Cached.resolveVariable ws d text offset
  | .completions offset => Cached.completions ws d offset
  | .declarationAt offset => Cached.declarationAt ws d offset
  | .references offset withDeclaration => Cached.references ws d offset withDeclaration
  | .unusedImports => Cached.unusedImports ws d
  | .diagnostics => Cached.diagnostics ws d
  | .builtInVariables => Cached.builtInVariables ws
  | .builtInKeywords => Cached.builtInKeywords ws

end Question

/-- What a query about an offset answers at a place of a document; `nothing` where there is no such
document, or no such line in it. It is refused where the place is. -/
def Workspace.askAt {β : Type} (ws : Workspace) (file : FileId) (place : Position) (nothing : β)
    (query : Document → Nat → β) : Checked β :=
  match ws.document? file with
  | none => some nothing
  | some d => do
    match ← d.source.lines.offset? place with
    | none => return nothing
    | some offset => return query d offset

namespace Session

def change (s : Session) : Change → Session
  | .register path => (s.register path).2
  | .setText path text => (s.setText path text).2
  | .insert path source => (s.insert path source).2
  | .remove path => (s.remove path).2
  | .setOptions options => s.setOptions options
  | .setLibraries provider => s.setLibraries provider

/-- Answers a question about a document, with nothing where there is no such document. -/
def ask (s : Session) (file : FileId) (q : Question) : Option q.Answer × Session :=
  match s.workspace.document? file with
  | some d => s.run (fun ws => some <$> q.cached ws d)
  | none => (none, s)

end Session

/-- What happens in a session. -/
inductive Event
  | change (c : Change)
  | ask (file : FileId) (q : Question)

namespace Session

def step (s : Session) : Event → Session
  | .change c => s.change c
  | .ask file q => (s.ask file q).2

/-- The session after some events, the first one first. -/
def after (s : Session) (events : List Event) : Session := events.foldl step s

end Session

end RobotAnalysis
