import RobotAnalysis.Library
import RobotAnalysis.SectionModel

/-!
# Import targets

An import leads to a document, a library class or a module with variables. Two targets are the same
when they name the same thing, whatever their descriptions hold.
-/
namespace RobotAnalysis

/-- What an import leads to. -/
inductive ImportTarget
  | document (file : FileId)
  /-- A class whose keywords are known under a qualifier. -/
  | library (qualifier : Text) (class_ : LibraryClass)
  | module (module_ : LibraryModule)
  deriving DecidableEq, Repr

/-- What import targets are told apart by. -/
inductive TargetIdentity
  | document (file : FileId)
  | library (qualifier name : Text)
  | module (name : Text)
  deriving DecidableEq, Repr

namespace ImportTarget

/-- What a target is told apart by. -/
def identity : ImportTarget → TargetIdentity
  | .document file => .document file
  | .library qualifier c => .library qualifier c.name
  | .module m => .module m.name

/-- The kind of import that leads to a target. -/
def kind : ImportTarget → ImportKind
  | .document _ => .resource
  | .library _ _ => .library
  | .module _ => .variableFile

/-- The document that a target is. -/
def file? : ImportTarget → Option FileId
  | .document file => some file
  | .library _ _ | .module _ => none

/-- Targets without those that are the same as an earlier one. -/
def distinct (ts : List ImportTarget) : List ImportTarget := Sequence.distinctBy identity ts

end ImportTarget

namespace LibraryModule

/-- The variables of a module as they are used in documents. -/
def declaredVariables (m : LibraryModule) : List Variable :=
  m.vars.map fun name =>
    .declare ('$' :: '{' :: name ++ ['}']) .global .everywhere (.library m.name name)

end LibraryModule

namespace LibraryClass

/-- The keyword of a class that is known under a qualifier, for one of its functions. -/
def keywordOf (c : LibraryClass) (qualifier : Text) (m : LibraryMember) : Keyword :=
  .declare (some qualifier) m.name m.takesArguments (.library c.name m.name)

def declaredKeywords (c : LibraryClass) (qualifier : Text) : List Keyword :=
  c.members.map (c.keywordOf qualifier)

end LibraryClass

namespace ImportDeclaration

/-- A text without a given ending. -/
def withoutEnding (ending t : Text) : Text :=
  if ending.isSuffixOf t then t.take (t.length - ending.length) else t

/-- The separators of paths of either system. -/
def isSeparator (c : Char) : Bool := c == '/' || c == '\\'

/-- The name under which the keywords of an imported library are known: its alias, or else the last
part of the target without the ending `.py`. -/
def qualifier (d : ImportDeclaration) : Text :=
  match d.alias? with
  | some name => name
  | none =>
    let target := Sequence.dropTrailing isSeparator d.target
    let last :=
      match Sequence.splitLast? isSeparator target with
      | some (_, last) => last
      | none => target
    withoutEnding ".py".toList last

end ImportDeclaration

end RobotAnalysis
