import RobotAnalysis.Workspace

/-!
# Resolving calls and usages

A `Scope` holds what one document sees. A call is resolved to the first keyword it matches, among
the document's own ones and then those of its imports in their order, with a leading word such as
`Given` left out if need be, and at last to a function of an imported library. A usage is resolved
among the variables visible at its place, those confined to the definition around it first.
-/
namespace RobotAnalysis

/-- What a document sees. -/
structure Scope where
  file : FileId
  ownKeywords : List Keyword
  importedKeywords : List Keyword
  /-- The imported libraries with their qualifiers. -/
  libraries : List (Text × LibraryClass)
  vars : List Variable
  index : LibraryIndex

namespace Scope

/-- A library with its qualifier. -/
def library? : ImportTarget → Option (Text × LibraryClass)
  | .library qualifier c => some (qualifier, c)
  | .document _ | .module _ => none

def ofDocument (ws : Workspace) (d : Document) : Scope :=
  { file := d.id
    ownKeywords := d.keywords
    importedKeywords := (ws.visibleImports d).flatMap ws.keywordsOfTarget
    libraries := (ws.visibleImports d).filterMap library?
    vars := ws.visibleVariables d
    index := ws.libraries }

/-- The keywords in the order in which a call is compared with them. -/
def keywords (s : Scope) : List Keyword := s.ownKeywords ++ s.importedKeywords

def variablesAt (s : Scope) (offset : Nat) : List Variable :=
  s.vars.filter fun v => v.isVisibleAt s.file offset

/-- The first keyword that a text calls. -/
def findKeyword? (s : Scope) (text : Text) : Option Keyword :=
  s.keywords.find? fun k => k.isCalledBy text

/-- The qualifier before the last separator of a call, and the name after it. -/
def splitQualified (text : Text) : Option Text × Text :=
  match Sequence.splitLast? (· == KeywordPattern.separator) text with
  | some (qualifier, name) =>
    if !qualifier.isEmpty && !(Text.trim name).isEmpty then (some qualifier, name) else (none, text)
  | none => (none, text)

/-- The function of an imported library that a text names; a qualified name is looked for only in
the library with its qualifier. -/
def libraryMember? (s : Scope) (text : Text) : Option Keyword :=
  let (qualifier?, name) := splitQualified text
  let function := Name.toFunction name
  (s.libraries.filter fun l => qualifier?.all fun q => Text.sameAscii l.1 q).findSome? fun l =>
    (s.index.member? l.2.name function).map (l.2.keywordOf l.1)

def resolveKeyword? (s : Scope) (text : Text) : Option Keyword :=
  let call := text.trim
  if call.isEmpty then none
  else
    ((s.findKeyword? call).or ((Reserved.withoutGherkin? call).bind s.findKeyword?)).or
      (s.libraryMember? call)

/-- The variable that a text uses at an offset. -/
def resolveVariable? (s : Scope) (text : Text) (offset : Nat) : Option Variable :=
  let candidates := (s.variablesAt offset).filter fun v => v.isUsedBy text
  (candidates.find? Variable.isConfined).or candidates.head?

/-- The documents in which some call or usage of some sections is resolved, each once. -/
def usedFiles (s : Scope) (sections : List SectionModel) : List FileId :=
  let called := (SectionModel.calls sections).filterMap fun c =>
    (s.resolveKeyword? c.text).bind fun k => k.location.file?
  let used := (SectionModel.usages sections).filterMap fun u =>
    (s.resolveVariable? u.text u.span.start).bind fun v => v.location.file?
  Sequence.distinctBy id (called ++ used)

/-- The calls of some sections that are resolved to a keyword. -/
def callsTo (s : Scope) (k : Keyword) (sections : List SectionModel) : List Mention :=
  (SectionModel.calls sections).filter fun c =>
    (s.resolveKeyword? c.text).any fun found => found.isSameSymbol k

end Scope

namespace Workspace

/-- The documents in which some call or usage of a document is resolved, each once. -/
def usedFiles (ws : Workspace) (d : Document) : List FileId :=
  (Scope.ofDocument ws d).usedFiles d.sections

/-- The calls of a document that are resolved to a keyword, or all of them. -/
def callsOf (ws : Workspace) (d : Document) (definition : Option Keyword) : List Mention :=
  match definition with
  | none => d.calls
  | some k => (Scope.ofDocument ws d).callsTo k d.sections

end Workspace

end RobotAnalysis
