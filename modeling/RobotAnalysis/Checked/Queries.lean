import RobotAnalysis.Checked.Reading
import RobotAnalysis.Completion
import RobotAnalysis.Diagnostic
import RobotAnalysis.Navigation

/-!
# Queries with checks

The queries of an editor, made of operations that may be refused. Nothing is kept between queries:
every section that a query needs is read anew, and every pattern is made where it is needed, so
a query that finds some of this in a cache performs only some of these operations. Every query
follows the one of the same name that always has an answer.
-/
namespace RobotAnalysis.Checked

def keywords (d : Document) : Checked (List Keyword) := do
  return SectionModel.keywords (← sections d)

def vars (d : Document) : Checked (List Variable) := do
  return SectionModel.vars (← sections d)

def imports (d : Document) : Checked (List ImportDeclaration) := do
  return SectionModel.imports (← sections d)

def sectionAt (d : Document) (offset : Nat) : Checked (Option SectionModel) := do
  return SectionModel.at? (← sections d) offset

/-- The cell at an offset, which must lie in the document. -/
def cellAt (d : Document) (offset : Nat) : Checked (Option Cell) :=
  if offset ≤ d.source.tree.size then some (d.source.tree.cellAt? offset) else none

def reference (d : Document) (span : Span) (isDefinition : Bool) : Checked Reference := do
  let (start, stop) ← positions d.source.lines span
  return ⟨d.id, span, start, stop, isDefinition⟩

def markerOf (d : Document) (t : TestCase) : Checked RunMarker := do
  let (start, stop) ← positions d.source.lines t.span
  return ⟨t.name, t.span, start, stop⟩

def runMarkerAt (d : Document) (offset : Nat) : Checked (Option RunMarker) := do
  let markers ← (SectionModel.testCases (← sections d)).mapM (markerOf d)
  return markers.find? fun m => m.span.touches offset

def about (d : Document) (span : Span) (severity : Severity) (code message : Text) :
    Checked Diagnostic := do
  let (start, stop) ← positions d.source.lines span
  return ⟨d.id, start, stop, span, severity, some code, message⟩

variable (ws : Workspace)

def directImports (d : Document) : Checked (List ImportTarget) := do
  let declared ← imports d
  return ImportTarget.distinct (ws.builtInLibrary?.toList ++ ws.resolveAll d declared)

def importsOfTarget : ImportTarget → Checked (List ImportTarget)
  | .document file =>
    match ws.document? file with
    | some d => directImports ws d
    | none => some []
  | .library _ _ | .module _ => some []

def allImports (d : Document) : Checked (List ImportTarget) := do
  let declared ← imports d
  DepthFirst.collectM ImportTarget.identity ws.documentIdentities (importsOfTarget ws)
    ws.builtInLibrary?.toList (ws.resolveAll d declared)

def visibleImports (d : Document) : Checked (List ImportTarget) :=
  if ws.options.allowTransitiveImports then allImports ws d else directImports ws d

def keywordsOfTarget : ImportTarget → Checked (List Keyword)
  | .document file =>
    match ws.document? file with
    | some d => keywords d
    | none => some []
  | .library qualifier c => classKeywords c qualifier
  | .module _ => some []

def variablesOfTarget : ImportTarget → Checked (List Variable)
  | .document file =>
    match ws.document? file with
    | some d => vars d
    | none => some []
  | .library _ _ => some []
  | .module m => some m.declaredVariables

def visibleVariables (d : Document) : Checked (List Variable) := do
  let own ← vars d
  let imported ← (← visibleImports ws d).mapM (variablesOfTarget ws)
  return Variable.distinct (ws.builtInVariables ++ own ++ imported.flatten)

def scope (d : Document) : Checked Scope := do
  let targets ← visibleImports ws d
  let imported ← targets.mapM (keywordsOfTarget ws)
  return {
    file := d.id
    ownKeywords := ← keywords d
    importedKeywords := imported.flatten
    libraries := targets.filterMap Scope.library?
    vars := ← visibleVariables ws d
    index := ws.libraries }

def libraryMember (s : Scope) (text : Text) : Checked (Option Keyword) :=
  let (qualifier?, name) := Scope.splitQualified text
  let function := Name.toFunction name
  let offers := s.libraries.filter fun l => qualifier?.all fun q => Text.sameAscii l.1 q
  match offers.findSome? fun l => (s.index.member? l.2.name function).map fun m => (l, m) with
  | some ((qualifier, c), m) => do
    return some (← declareKeyword (some qualifier) m.name m.takesArguments (.library c.name m.name))
  | none => some none

def resolveKeyword (s : Scope) (text : Text) : Checked (Option Keyword) :=
  let call := text.trim
  if call.isEmpty then some none
  else
    match (s.findKeyword? call).or ((Reserved.withoutGherkin? call).bind s.findKeyword?) with
    | some k => some (some k)
    | none => libraryMember s call

def resolveVariable (s : Scope) (text : Text) (offset : Nat) : Checked (Option Variable) := do
  let candidates ← (s.variablesAt offset).filterM fun v => isUsedBy v text
  return (candidates.find? Variable.isConfined).or candidates.head?

def usedFiles (d : Document) : Checked (List FileId) := do
  let visible ← scope ws d
  let own ← sections d
  let called ← (SectionModel.calls own).mapM fun c => resolveKeyword visible c.text
  let used ← (SectionModel.usages own).mapM fun u => resolveVariable visible u.text u.span.start
  let places := called.filterMap (fun k? => k?.bind fun k => k.location.file?) ++
    used.filterMap (fun v? => v?.bind fun v => v.location.file?)
  return Sequence.distinctBy id places

def unusedImports (d : Document) : Checked (List Diagnostic) := do
  let declared ← imports d
  let used ← usedFiles ws d
  let unused := declared.filter fun i =>
    (ws.importedFile? d i).any fun target => !used.contains target
  unused.mapM fun i =>
    about d i.span .warning Diagnostic.unusedImportCode Diagnostic.unusedImportMessage

def diagnostics (d : Document) : Checked (List Diagnostic) := do
  let faults ← d.source.errors.mapM fun e =>
    about d e.span .error Diagnostic.syntaxErrorCode e.fault.message
  return faults ++ (← unusedImports ws d)

def completions (d : Document) (offset : Nat) : Checked (List CompletionItem) := do
  let kind := SectionModel.kindAt (← sections d) offset
  let symbols ←
    if kind.holdsBodies || kind.isSettings then
      (scope ws d).map fun visible =>
        Workspace.symbolCandidates ws.options kind visible offset
    else some []
  let all := Workspace.wordCandidates kind ++ symbols
  let typed ← typedBefore d.source.text offset
  return if typed.isEmpty then all else all.filter fun item => item.isFoundBy typed

def target (kind : TargetKind) (name : Text) (location : Location) : Checked NavigationTarget := do
  let range? ←
    match location with
    | .document file span =>
      match ws.document? file with
      | some d => some <$> positions d.source.lines span
      | none => some none
    | .library _ _ => some none
  return ⟨kind, name, location, range?⟩

def importAt (d : Document) (imports : List ImportDeclaration) (span : Span) :
    Checked (Option NavigationTarget) :=
  match (imports.find? fun i => i.span == span).bind fun i =>
    (ws.resolveImport? d.id i).map fun t => (i.target, t) with
  | some (name, .document file) => some <$> target ws .file name (.document file ⟨0, 0⟩)
  | some (name, .library _ c) => some <$> target ws .library name (.library c.name [])
  | some (name, .module m) => some <$> target ws .library name (.library m.name [])
  | none => some none

def declarationAt (d : Document) (offset : Nat) : Checked (Option NavigationTarget) := do
  match ← cellAt d offset with
  | none => return none
  | some cell =>
    let visible ← scope ws d
    match ← innermostAt cell.text (← sub offset cell.span.start) with
    | some span =>
      match ← resolveVariable visible (← cut cell.text span) offset with
      | some v => some <$> target ws .variable_ v.text v.location
      | none => return none
    | none =>
      match cell.kind with
      | .keywordCall =>
        match ← resolveKeyword visible cell.text with
        | some k => some <$> target ws .keyword k.name k.location
        | none => return none
      | .argument => importAt ws d (← imports d) cell.span
      | _ => return none

def keywordAt (d : Document) (offset : Nat) : Checked (Option Keyword) := do
  match ← cellAt d offset with
  | none => return none
  | some cell =>
    match cell.kind with
    | .definitionName => return Workspace.declaredIn? d cell (← keywords d)
    | .keywordCall => resolveKeyword (← scope ws d) cell.text
    | _ => return none

def callsOf (d : Document) (k : Keyword) : Checked (List Mention) := do
  let visible ← scope ws d
  (SectionModel.calls (← sections d)).filterM fun c => do
    return (← resolveKeyword visible c.text).any fun found => found.isSameSymbol k

def declarationOf (k : Keyword) : Checked (Option Reference) :=
  match k.location with
  | .document file span =>
    match ws.document? file with
    | some d => some <$> reference d span true
    | none => some none
  | .library _ _ => some none

def callReferences (k : Keyword) : Checked (List Reference) := do
  let found ← ws.documents.mapM fun d => do
    (← callsOf ws d k).mapM fun c => reference d c.span false
  return found.flatten

def references (d : Document) (offset : Nat) (withDeclaration : Bool) : Checked ReferenceList := do
  match ← keywordAt ws d offset with
  | none => return ⟨none, []⟩
  | some k =>
    let declaration ← if withDeclaration then declarationOf ws k else some none
    return ⟨some k, declaration.toList ++ (← callReferences ws k)⟩

end RobotAnalysis.Checked
