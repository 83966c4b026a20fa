import RobotAnalysis.Checked.Variables
import RobotAnalysis.Document
import RobotAnalysis.ImportTarget

/-!
# Reading sections with checks

What a section declares and uses, read by operations that may be refused: variables are found among
the bytes of a cell and cut out of it, their spans are moved to where the cell stands, and the
pattern of a keyword is made when it is declared. Every reading follows the one of the same name
that has an answer for all rows.
-/
namespace RobotAnalysis.Checked

def usagesIn (start : Nat) (text : Text) : Checked (List Mention) := do
  (← spans text).mapM fun s => do return ⟨← cut text s, ← shift start s⟩

def usagesOf (cells : List Cell) : Checked Findings := do
  let usages ← cells.mapM fun c => usagesIn c.span.start c.text
  return { Findings.none with usages := usages.flatten }

def ofImport (row : Node) : Checked Findings := do
  let values := row.cellsOf .argument
  let used ← usagesOf values
  let kind? := (row.firstCell? .settingName).bind fun c => ImportKind.ofSetting? c.text
  match kind?, values.head? with
  | some kind, some target =>
    return { used with imports := [⟨kind, target.text, Findings.aliasOf? values, target.span⟩] }
  | _, _ => return used

def ofSetting (row : Node) : Checked Findings := do
  return Findings.callOf (row.firstCell? .keywordCall) ++ (← usagesOf (row.cellsOf .argument))

def declaredBy (file : FileId) (scope : VariableScope) (cell : Cell) : Checked (List Variable) := do
  if ← isWholeCell cell.text then
    return [.declare cell.text scope .everywhere (.document file cell.span)]
  else return []

def ofVariableRow (file : FileId) (row : Node) : Checked Findings := do
  let declared ← (row.firstCell? .variableName).toList.mapM (declaredBy file .suite)
  return { (← usagesOf (row.cellsOf .argument)) with vars := declared.flatten }

def defaultUsages (cell : Cell) : Checked (List Mention) :=
  match Sequence.splitOnce? (· == '=') cell.text with
  | some (_, default) => do
    let before ← cutBetween cell.text 0 (← sub cell.text.byteSize (Text.byteSize default))
    let start ← add cell.span.start before.byteSize
    let place ← range start (← add start (Text.byteSize default))
    usagesIn place.start default
  | none => some []

def assignedBy (file : FileId) (scope : VariableScope) (body : Span) (cell : Cell) :
    Checked (List Variable) := do
  (← spans cell.text).head?.toList.mapM fun s => do
    let declared ← cut cell.text s
    return .declare declared scope (.within file body)
      (.document file (← shift cell.span.start s))

def setBy (file : FileId) (row : Node) : Checked (List Variable) :=
  match row.firstCell? .keywordCall, row.firstCell? .argument with
  | some call, some first =>
    match Findings.scopeSetBy? call.text with
    | some scope => declaredBy file scope first
    | none => some []
  | _, _ => some []

def ofBodyRow (file : FileId) (scope : VariableScope) (body : Span) (row : Node) :
    Checked Findings := do
  let assigned := row.cellsOf .assignment
  let locals ← assigned.mapM (assignedBy file scope body)
  let found : Findings := { Findings.none with vars := locals.flatten ++ (← setBy file row) }
  let used ← usagesOf (row.cellsOf .argument)
  let defaults ← if row.declaresArguments then assigned.mapM defaultUsages else some []
  return found ++ Findings.callOf (row.firstCell? .keywordCall) ++ used ++
    { Findings.none with usages := defaults.flatten }

def ofName (file : FileId) (definition : Node) (name : Cell) : Checked Findings := do
  if definition.kind = .testCase then
    return { Findings.none with testCases := [⟨name.text, name.span, definition.span⟩] }
  else
    let takesArguments := !definition.declaredArguments.isEmpty || !(← spans name.text).isEmpty
    let keyword ← declareKeyword none name.text takesArguments (.document file name.span)
    return { Findings.none with keywords := [keyword] }

def ofDefinition (file : FileId) (definition : Node) : Checked Findings := do
  let scope := if definition.kind = .testCase then VariableScope.test else .keyword
  let named ← (definition.firstCell? .definitionName).toList.mapM (ofName file definition)
  let rows ← definition.bodyRows.mapM (ofBodyRow file scope definition.span)
  return Findings.concat named ++ Findings.concat rows

def ofSection (file : FileId) (sec : Node) : Checked Findings :=
  match sec.headingKind with
  | .settings => do
    let imports ← (sec.nodesOf .importing).mapM ofImport
    let settings ← (sec.nodesOf .setting).mapM ofSetting
    return Findings.concat imports ++ Findings.concat settings
  | .variableTable => do
    return Findings.concat (← (sec.nodesOf .variableRow).mapM (ofVariableRow file))
  | .testCases | .tasks | .keywords => do
    return Findings.concat (← sec.definitions.mapM (ofDefinition file))
  | .comments | .unknown => some Findings.none

def sections (d : Document) : Checked (List SectionModel) :=
  d.source.tree.root.sections.mapM fun sec => do
    return ⟨sec.headingKind, sec.span, ← ofSection d.id sec⟩

def classKeywords (c : LibraryClass) (qualifier : Text) : Checked (List Keyword) :=
  c.members.mapM fun m =>
    declareKeyword (some qualifier) m.name m.takesArguments (.library c.name m.name)

end RobotAnalysis.Checked
