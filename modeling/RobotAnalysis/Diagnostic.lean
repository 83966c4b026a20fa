import RobotAnalysis.Scope

/-!
# Diagnostics

What is reported about a document: the errors found when it was parsed, and after them every import
of a document into which no call and no usage leads. Other imports, and those that lead nowhere, are
never reported as unused.
-/
namespace RobotAnalysis

/-- How much a diagnostic matters. -/
inductive Severity
  | error
  | warning
  | info
  | hint
  deriving DecidableEq, Repr

namespace Severity

/-- The number of a severity in the language server protocol. -/
def lsp : Severity → Nat
  | .error => 1
  | .warning => 2
  | .info => 3
  | .hint => 4

end Severity

/-- A message about a part of a document. -/
structure Diagnostic where
  file : FileId
  start : Position
  stop : Position
  span : Span
  severity : Severity
  code : Option Text
  message : Text
  deriving DecidableEq, Repr

namespace Diagnostic

def syntaxErrorCode : Text := "E0001".toList

def unusedImportCode : Text := "W0001".toList

def unusedImportMessage : Text := "Import not used".toList

/-- A message about some bytes of a document. -/
def about (d : Document) (span : Span) (severity : Severity) (code message : Text) : Diagnostic :=
  let (start, stop) := d.source.lines.positions span
  ⟨d.id, start, stop, span, severity, some code, message⟩

/-- The errors found by parsing. -/
def ofSyntax (d : Document) : List Diagnostic :=
  d.source.errors.map fun e => about d e.span .error syntaxErrorCode e.fault.message

end Diagnostic

namespace Workspace

/-- The document that an import of another document leads to. -/
def importedFile? (ws : Workspace) (d : Document) (i : ImportDeclaration) : Option FileId :=
  if i.kind = .resource then (ws.resolveImport? d.id i).bind ImportTarget.file? else none

/-- Whether an import leads to a document of which nothing is used. -/
def isUnused (ws : Workspace) (d : Document) (i : ImportDeclaration) : Bool :=
  (ws.importedFile? d i).any fun target => !(ws.usedFiles d).contains target

/-- A warning for every import that leads to a document that is not among the used ones. -/
def unusedAmong (ws : Workspace) (d : Document) (imports : List ImportDeclaration)
    (used : List FileId) : List Diagnostic :=
  let unused := imports.filter fun i =>
    (ws.importedFile? d i).any fun target => !used.contains target
  unused.map fun i =>
    .about d i.span .warning Diagnostic.unusedImportCode Diagnostic.unusedImportMessage

def unusedImports (ws : Workspace) (d : Document) : List Diagnostic :=
  ws.unusedAmong d d.imports (ws.usedFiles d)

/-- Everything reported about a document. -/
def diagnostics (ws : Workspace) (d : Document) : List Diagnostic :=
  Diagnostic.ofSyntax d ++ ws.unusedImports d

end Workspace

end RobotAnalysis
