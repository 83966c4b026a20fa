import RobotAnalysis.Node
import RobotAnalysis.Parse
import RobotAnalysis.Symbol

/-!
# What a section declares and uses

Reading a section gives the symbols it declares, its imports, the keywords it calls and the
variables it uses, each with the bytes it stands in. Only rows that the kind of the section, as its
heading line reads, gives a meaning to are looked at.
-/
namespace RobotAnalysis

/-- An import as it is written. -/
structure ImportDeclaration where
  kind : ImportKind
  /-- The name or path that is imported. -/
  target : Text
  /-- The name given to a library with `AS` or `WITH NAME`. -/
  alias? : Option Text
  /-- The cell of the target. -/
  span : Span
  deriving DecidableEq, Repr

/-- A test case or task. -/
structure TestCase where
  name : Text
  /-- The cell of the name. -/
  span : Span
  /-- The definition with its body. -/
  body : Span
  deriving DecidableEq, Repr

/-- A place where a keyword is called or a variable used, as it is written. -/
structure Mention where
  text : Text
  span : Span
  deriving DecidableEq, Repr

/-- The symbols and mentions of some rows. -/
structure Findings where
  keywords : List Keyword
  testCases : List TestCase
  vars : List Variable
  imports : List ImportDeclaration
  calls : List Mention
  usages : List Mention
  deriving DecidableEq, Repr

namespace Findings

def none : Findings := ⟨[], [], [], [], [], []⟩

/-- Findings one after the other. -/
def append (f g : Findings) : Findings :=
  ⟨f.keywords ++ g.keywords, f.testCases ++ g.testCases, f.vars ++ g.vars,
    f.imports ++ g.imports, f.calls ++ g.calls, f.usages ++ g.usages⟩

instance : Append Findings := ⟨append⟩

/-- The findings of consecutive rows. -/
def concat (fs : List Findings) : Findings := fs.foldr append none

/-- The variables that a text at some offset uses. -/
def usagesIn (start : Nat) (text : Text) : List Mention :=
  (VariableToken.all text).map fun v => ⟨v.text, v.span.shift start⟩

/-- The variables that cells use. -/
def usagesOf (cells : List Cell) : Findings :=
  { none with usages := cells.flatMap fun c => usagesIn c.span.start c.text }

def callOf (call? : Option Cell) : Findings :=
  { none with calls := call?.toList.map fun c => ⟨c.text, c.span⟩ }

/-- The alias that the values of an import give. -/
def aliasOf? : List Cell → Option Text
  | c :: d :: cells =>
    if Reserved.isExactly ["WITH NAME", "AS"] c.text then some d.text else aliasOf? (d :: cells)
  | _ => Option.none

def ofImport (row : Node) : Findings :=
  let values := row.cellsOf .argument
  let kind? := (row.firstCell? .settingName).bind fun c => ImportKind.ofSetting? c.text
  match kind?, values.head? with
  | some kind, some target =>
    { usagesOf values with imports := [⟨kind, target.text, aliasOf? values, target.span⟩] }
  | _, _ => usagesOf values

/-- The findings of another setting. -/
def ofSetting (row : Node) : Findings :=
  callOf (row.firstCell? .keywordCall) ++ usagesOf (row.cellsOf .argument)

/-- The declaration of a cell that is a variable. -/
def declaredBy (file : FileId) (scope : VariableScope) (cell : Cell) : List Variable :=
  if VariableToken.isWholeCell cell.text then
    [.declare cell.text scope .everywhere (.document file cell.span)]
  else []

def ofVariableRow (file : FileId) (row : Node) : Findings :=
  let declared := (row.firstCell? .variableName).toList.flatMap (declaredBy file .suite)
  { usagesOf (row.cellsOf .argument) with vars := declared }

/-- The scope that a keyword gives to the variable named by its first argument. -/
def scopeSetBy? (keyword : Text) : Option VariableScope :=
  let name := (Reserved.normalize keyword).filter (· != '_')
  if name = "setglobalvariable".toList then some .global
  else if name = "setsuitevariable".toList then some .suite
  else if name = "settestvariable".toList || name = "settaskvariable".toList then some .test
  else Option.none

/-- The variables that the default values of declared arguments use. -/
def defaultUsages (cell : Cell) : List Mention :=
  match Sequence.splitOnce? (· == '=') cell.text with
  | some (before, default) =>
    usagesIn (cell.span.start + (Text.byteSize before + 1)) default
  | Option.none => []

/-- The variable that an assigned cell declares: the first one in it. -/
def assignedBy (file : FileId) (scope : VariableScope) (body : Span) (cell : Cell) :
    List Variable :=
  (VariableToken.all cell.text).head?.toList.map fun v =>
    .declare v.text scope (.within file body) (.document file (v.span.shift cell.span.start))

/-- The variable that a call gives to everyone. -/
def setBy (file : FileId) (row : Node) : List Variable :=
  match row.firstCell? .keywordCall, row.firstCell? .argument with
  | some call, some first =>
    match scopeSetBy? call.text with
    | some scope => declaredBy file scope first
    | Option.none => []
  | _, _ => []

/-- The findings of a row of a body. -/
def ofBodyRow (file : FileId) (scope : VariableScope) (body : Span) (row : Node) : Findings :=
  let assigned := row.cellsOf .assignment
  let found : Findings :=
    { none with vars := assigned.flatMap (assignedBy file scope body) ++ setBy file row }
  let defaults := if row.declaresArguments then assigned.flatMap defaultUsages else []
  found ++ callOf (row.firstCell? .keywordCall) ++ usagesOf (row.cellsOf .argument) ++
    { none with usages := defaults }

/-- The symbol that a definition declares by its name. -/
def ofName (file : FileId) (definition : Node) (name : Cell) : Findings :=
  if definition.kind = .testCase then
    { none with testCases := [⟨name.text, name.span, definition.span⟩] }
  else
    let takesArguments :=
      !definition.declaredArguments.isEmpty || !(VariableToken.all name.text).isEmpty
    { none with
      keywords := [.declare Option.none name.text takesArguments (.document file name.span)] }

/-- The findings of a test case or user keyword. -/
def ofDefinition (file : FileId) (definition : Node) : Findings :=
  let scope := if definition.kind = .testCase then VariableScope.test else .keyword
  let named := (definition.firstCell? .definitionName).toList.map (ofName file definition)
  concat named ++
    concat (definition.bodyRows.map (ofBodyRow file scope definition.span))

def ofSection (file : FileId) (sec : Node) : Findings :=
  match sec.headingKind with
  | .settings =>
    concat ((sec.nodesOf .importing).map ofImport) ++ concat ((sec.nodesOf .setting).map ofSetting)
  | .variableTable => concat ((sec.nodesOf .variableRow).map (ofVariableRow file))
  | .testCases | .tasks | .keywords => concat (sec.definitions.map (ofDefinition file))
  | .comments | .unknown => none

end Findings

/-- A section with what is found in it. -/
structure SectionModel where
  kind : HeadingKind
  span : Span
  found : Findings
  deriving DecidableEq, Repr

namespace SectionModel

def ofTree (file : FileId) (tree : Tree) : List SectionModel :=
  tree.root.sections.map fun sec => ⟨sec.headingKind, sec.span, Findings.ofSection file sec⟩

/-- The keywords of some sections, one for each key. -/
def keywords (sections : List SectionModel) : List Keyword :=
  Keyword.distinct (sections.flatMap fun s => s.found.keywords)

/-- The variables of some sections, one for each text and visibility. -/
def vars (sections : List SectionModel) : List Variable :=
  Variable.distinct (sections.flatMap fun s => s.found.vars)

def imports (sections : List SectionModel) : List ImportDeclaration :=
  sections.flatMap fun s => s.found.imports

def testCases (sections : List SectionModel) : List TestCase :=
  sections.flatMap fun s => s.found.testCases

def calls (sections : List SectionModel) : List Mention := sections.flatMap fun s => s.found.calls

def usages (sections : List SectionModel) : List Mention := sections.flatMap fun s => s.found.usages

/-- The section at an offset; of two that meet there the first. -/
def at? (sections : List SectionModel) (offset : Nat) : Option SectionModel :=
  sections.find? fun s => s.span.touches offset

def kindAt (sections : List SectionModel) (offset : Nat) : HeadingKind :=
  ((at? sections offset).map SectionModel.kind).getD .unknown

end SectionModel

end RobotAnalysis
