import RobotAnalysis.Cursor
import RobotAnalysis.Scope

/-!
# Navigation

From a cursor to the declaration of what stands there, from a keyword to all its calls, and to the
test cases that can be run. A variable under the cursor comes before the cell that holds it.
-/
namespace RobotAnalysis

/-- What a target of navigation is. -/
inductive TargetKind
  | keyword
  | variable_
  /-- A document named by an import. -/
  | file
  /-- A library or a module with variables. -/
  | library
  deriving DecidableEq, Repr

/-- Where something is declared. -/
structure NavigationTarget where
  kind : TargetKind
  name : Text
  location : Location
  /-- First and last place, for a declaration in a document. -/
  range? : Option (Position × Position)
  deriving DecidableEq, Repr

/-- A place where a keyword is declared or called. -/
structure Reference where
  file : FileId
  span : Span
  start : Position
  stop : Position
  isDefinition : Bool
  deriving DecidableEq, Repr

/-- A keyword with the places found for it. -/
structure ReferenceList where
  definition : Option Keyword
  references : List Reference
  deriving DecidableEq, Repr

/-- A test case that can be run from its name. -/
structure RunMarker where
  name : Text
  span : Span
  start : Position
  stop : Position
  deriving DecidableEq, Repr

namespace Document

/-- A place of a document. -/
def reference (d : Document) (span : Span) (isDefinition : Bool) : Reference :=
  let (start, stop) := d.source.lines.positions span
  ⟨d.id, span, start, stop, isDefinition⟩

/-- The markers of some test cases. -/
def markersOf (d : Document) (testCases : List TestCase) : List RunMarker :=
  testCases.map fun t =>
    let (start, stop) := d.source.lines.positions t.span
    ⟨t.name, t.span, start, stop⟩

/-- The test cases that can be run, in the order of the text. -/
def runMarkers (d : Document) : List RunMarker := d.markersOf d.testCases

/-- The test case whose name stands at an offset. -/
def runMarkerAt? (d : Document) (offset : Nat) : Option RunMarker :=
  d.runMarkers.find? fun m => m.span.touches offset

end Document

namespace Workspace

/-- A target with its places where it lies in a document. -/
def target (ws : Workspace) (kind : TargetKind) (name : Text) (location : Location) :
    NavigationTarget :=
  let range? :=
    match location with
    | .document file span => (ws.document? file).map fun d => d.source.lines.positions span
    | .library _ _ => none
  ⟨kind, name, location, range?⟩

/-- What the one of some imports with a target in some bytes leads to. -/
def importAt? (ws : Workspace) (d : Document) (imports : List ImportDeclaration) (span : Span) :
    Option NavigationTarget := do
  let i ← imports.find? fun i => i.span == span
  match ← ws.resolveImport? d.id i with
  | .document file => return ws.target .file i.target (.document file ⟨0, 0⟩)
  | .library _ c => return ws.target .library i.target (.library c.name [])
  | .module m => return ws.target .library i.target (.library m.name [])

/-- The declaration of what stands in a cell at an offset of a document with some imports. -/
def declarationIn? (ws : Workspace) (d : Document) (scope : Scope)
    (imports : List ImportDeclaration) (cell : Cell) (offset : Nat) : Option NavigationTarget :=
  match VariableToken.innermostAt? cell.text (offset - cell.span.start) with
  | some span =>
    (scope.resolveVariable? (cell.text.slice span) offset).map fun v =>
      ws.target .variable_ v.text v.location
  | none =>
    match cell.kind with
    | .keywordCall =>
      (scope.resolveKeyword? cell.text).map fun k => ws.target .keyword k.name k.location
    | .argument => ws.importAt? d imports cell.span
    | _ => none

/-- The declaration of what stands at an offset. -/
def declarationAt? (ws : Workspace) (d : Document) (offset : Nat) : Option NavigationTarget :=
  (d.source.tree.cellAt? offset).bind fun cell =>
    ws.declarationIn? d (Scope.ofDocument ws d) d.imports cell offset

/-- The one of some keywords that a cell of a document declares. -/
def declaredIn? (d : Document) (cell : Cell) (keywords : List Keyword) : Option Keyword :=
  keywords.find? fun k => k.location == .document d.id cell.span

/-- The keyword that is declared or called at an offset. -/
def keywordAt? (ws : Workspace) (d : Document) (offset : Nat) : Option Keyword :=
  (d.source.tree.cellAt? offset).bind fun cell =>
    match cell.kind with
    | .definitionName => declaredIn? d cell d.keywords
    | .keywordCall => (Scope.ofDocument ws d).resolveKeyword? cell.text
    | _ => none

/-- The place where a keyword is declared, if that is in a document. -/
def declarationOf? (ws : Workspace) (k : Keyword) : Option Reference :=
  match k.location with
  | .document file span => (ws.document? file).map fun d => d.reference span true
  | .library _ _ => none

def callReferences (ws : Workspace) (k : Keyword) : List Reference :=
  ws.documents.flatMap fun d => (ws.callsOf d (some k)).map fun c => d.reference c.span false

/-- The calls of the keyword at an offset, after its declaration if that is asked for. -/
def references (ws : Workspace) (d : Document) (offset : Nat) (withDeclaration : Bool) :
    ReferenceList :=
  match ws.keywordAt? d offset with
  | none => ⟨none, []⟩
  | some k =>
    let declaration := if withDeclaration then (ws.declarationOf? k).toList else []
    ⟨some k, declaration ++ ws.callReferences k⟩

end Workspace

end RobotAnalysis
