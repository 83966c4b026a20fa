import RobotAnalysis.Name
import RobotAnalysis.Pattern

/-!
# Keywords and variables

A declaration of a keyword or variable, with the place where it stands. A call or usage refers to
it when it matches its pattern. In collections a keyword is known by its key alone and a variable by
its text and visibility, whatever else two declarations differ in.
-/
namespace RobotAnalysis

/-- The number by which a document of a workspace is known. -/
structure FileId where
  index : Nat
  deriving DecidableEq, Repr

/-- Where a symbol is declared. -/
inductive Location
  /-- In a cell of a document. -/
  | document (file : FileId) (span : Span)
  /-- In a library that is not written in the document language. -/
  | library (library : Text) (member : Text)
  deriving DecidableEq, Repr

namespace Location

/-- The document of a symbol. -/
def file? : Location → Option FileId
  | .document file _ => some file
  | .library _ _ => none

/-- The bytes of the cell that declares a symbol. -/
def span? : Location → Option Span
  | .document _ span => some span
  | .library _ _ => none

end Location

structure Keyword where
  /-- The name in words. -/
  name : Text
  /-- The name by which calls may refer to the library of the keyword. -/
  qualifier : Option Text
  takesArguments : Bool
  location : Location
  deriving DecidableEq, Repr

namespace Keyword

/-- The keyword that a name declares. An empty qualifier is none. -/
def declare (qualifier : Option Text) (name : Text) (takesArguments : Bool)
    (location : Location) : Keyword :=
  ⟨Name.ofFunction name, qualifier.filter fun q => !q.isEmpty, takesArguments, location⟩

/-- The form of the name by which keywords are told apart. -/
def key (k : Keyword) : Text := Name.key k.name

/-- What calls of the keyword look like. -/
def pattern (k : Keyword) : KeywordPattern := KeywordPattern.ofName k.qualifier k.name

/-- Whether a text, as written in a call, refers to the keyword. -/
def isCalledBy (k : Keyword) (text : Text) : Bool := k.pattern.accepts (Name.ofFunction text).trim

/-- Whether two keywords have the same key and place. -/
def isSameSymbol (k l : Keyword) : Bool := k.key == l.key && k.location == l.location

/-- Keywords without those whose key stands earlier. -/
def distinct (ks : List Keyword) : List Keyword := Sequence.distinctBy key ks

end Keyword

/-- How long a variable keeps its value. -/
inductive VariableScope
  | global
  | suite
  | test
  /-- Until the user keyword that sets it returns. -/
  | keyword
  deriving DecidableEq, Repr

/-- Where a variable can be used. -/
inductive Visibility
  | everywhere
  /-- Inside one definition. -/
  | within (file : FileId) (span : Span)
  deriving DecidableEq, Repr

structure Variable where
  /-- The variable as it is declared, without the mark of an assignment. -/
  text : Text
  scope : VariableScope
  visibility : Visibility
  location : Location
  deriving DecidableEq, Repr

namespace Variable

def declare (cell : Text) (scope : VariableScope) (visibility : Visibility)
    (location : Location) : Variable :=
  ⟨VariableToken.withoutAssignment cell.trim, scope, visibility, location⟩

/-- What usages of the variable look like. -/
def pattern (v : Variable) : VariablePattern := VariablePattern.ofDeclaration v.text

/-- Whether a usage refers to the variable. -/
def isUsedBy (v : Variable) (text : Text) : Bool :=
  v.pattern.accepts (VariableToken.withoutAssignment text.trim)

/-- Whether the variable is confined to one definition. -/
def isConfined (v : Variable) : Bool :=
  match v.visibility with
  | .within _ _ => true
  | .everywhere => false

/-- Whether the variable can be used at an offset of a document. -/
def isVisibleAt (v : Variable) (file : FileId) (offset : Nat) : Bool :=
  match v.visibility with
  | .everywhere => true
  | .within owner span => owner == file && span.touches offset

/-- The number of places where a sigil and a brace follow each other. -/
def openings : Text → Nat
  | c :: d :: t => (if VariableToken.isSigil c && d == '{' then 1 else 0) + openings (d :: t)
  | _ => 0

/-- Whether the declared name has further variables in it. -/
def isNested (v : Variable) : Bool :=
  decide (1 < v.text.count '}') && decide (1 < openings v.text)

/-- What variables are told apart by. -/
def identity (v : Variable) : Text × Visibility := (v.text, v.visibility)

/-- Variables without those whose text and visibility stand earlier. -/
def distinct (vs : List Variable) : List Variable := Sequence.distinctBy identity vs

end Variable

end RobotAnalysis
