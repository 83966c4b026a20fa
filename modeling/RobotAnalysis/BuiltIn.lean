import RobotAnalysis.ImportTarget

/-!
# Built-in symbols

The engine reserves some variables and imports one library into every document. What is looked up
about them, and the keyword lists of libraries, is kept in a `ProjectCache`: the first answer stays
until the cache is emptied, also where it says that something does not exist. Every operation
returns the answer together with the cache after it.
-/
namespace RobotAnalysis

namespace BuiltIn

def libraryName : Text := "BuiltIn".toList

/-- The module without which there are no reserved variables. -/
def moduleName : Text := "robot.libraries.BuiltIn".toList

/-- The reserved variables of some scope, given by sigil and name. -/
def reserved (scope : VariableScope) (sigil : Char) (names : List String) :
    List (Text × VariableScope) :=
  names.map fun name => (sigil :: '{' :: name.toList ++ ['}'], scope)

def reservedVariables : List (Text × VariableScope) :=
  reserved .global '$' ["CURDIR", "TEMPDIR", "EXECDIR", "/", ":", "\\n", "SPACE", "True", "False",
    "None", "null", "EMPTY"] ++
  reserved .global '@' ["EMPTY"] ++
  reserved .global '&' ["EMPTY"] ++
  reserved .test '$' ["TEST NAME"] ++
  reserved .test '@' ["TEST TAGS"] ++
  reserved .test '$' ["TEST DOCUMENTATION", "TEST STATUS", "TEST MESSAGE"] ++
  reserved .global '$' ["PREV TEST NAME", "PREV TEST STATUS", "PREV TEST MESSAGE"] ++
  reserved .suite '$' ["SUITE NAME", "SUITE SOURCE", "SUITE DOCUMENTATION"] ++
  reserved .suite '&' ["SUITE METADATA"] ++
  reserved .suite '$' ["SUITE STATUS", "SUITE MESSAGE"] ++
  reserved .keyword '$' ["KEYWORD STATUS", "KEYWORD MESSAGE"] ++
  reserved .global '$' ["LOG LEVEL", "OUTPUT FILE", "LOG FILE", "REPORT FILE", "DEBUG FILE",
    "OUTPUT DIR"] ++
  reserved .global '&' ["OPTIONS"]

/-- The reserved variables where their module exists, and none elsewhere. -/
def vars (index : LibraryIndex) : List Variable :=
  if (index.module? moduleName).isSome then
    reservedVariables.map fun (text, scope) =>
      .declare text scope .everywhere (.library moduleName text)
  else []

/-- The library that is imported everywhere, where it exists. -/
def library? (index : LibraryIndex) : Option ImportTarget :=
  (index.class? libraryName).map (.library libraryName)

/-- The keywords of the library that is imported everywhere, none where it does not exist. -/
def keywords (index : LibraryIndex) : List Keyword :=
  match library? index with
  | some (.library qualifier c) => c.declaredKeywords qualifier
  | _ => []

end BuiltIn

/-- What has been looked up in the libraries. -/
structure ProjectCache where
  library? : Option (Option ImportTarget)
  vars? : Option (List Variable)
  /-- Keyword lists by qualifier and class name. -/
  keywords : List ((Text × Text) × List Keyword)
  deriving DecidableEq, Repr

namespace ProjectCache

def empty : ProjectCache := ⟨none, none, []⟩

def builtInVariables (p : ProjectCache) (index : LibraryIndex) : List Variable × ProjectCache :=
  match p.vars? with
  | some vars => (vars, p)
  | none => (BuiltIn.vars index, { p with vars? := some (BuiltIn.vars index) })

def builtInLibrary (p : ProjectCache) (index : LibraryIndex) :
    Option ImportTarget × ProjectCache :=
  match p.library? with
  | some library => (library, p)
  | none => (BuiltIn.library? index, { p with library? := some (BuiltIn.library? index) })

def classKeywords (p : ProjectCache) (qualifier : Text) (c : LibraryClass) :
    List Keyword × ProjectCache :=
  match p.keywords.lookup (qualifier, c.name) with
  | some keywords => (keywords, p)
  | none =>
    let keywords := c.declaredKeywords qualifier
    (keywords, { p with keywords := ((qualifier, c.name), keywords) :: p.keywords })

def builtInKeywords (p : ProjectCache) (index : LibraryIndex) : List Keyword × ProjectCache :=
  match p.builtInLibrary index with
  | (some (.library qualifier c), p') => p'.classKeywords qualifier c
  | (_, p') => ([], p')

end ProjectCache

end RobotAnalysis
