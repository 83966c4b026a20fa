import RobotAnalysis.Proofs.CommentedLine
import RobotAnalysis.Proofs.DocumentGrammar
import RobotAnalysis.Proofs.SectionIndependence

/-!
# Faults and errors

What is wrong with a document can be read off its tree: sections whose heading is not recognised,
imports without an argument, rows that declare no variable, bracket settings that are not known,
definitions without a name and continuations of nothing. A parsed text has an error for each of
these faults that belongs to a node at the start of a line, in the order of the tree, and the error
covers that line. A bracket setting behind the name of its definition does not begin a line, and is
the only node whose fault is not reported.
-/
namespace RobotAnalysis

/-- A fault and the offset at which the node that has it begins. -/
structure PlacedFault where
  fault : SyntaxFault
  offset : Nat
  deriving DecidableEq, Repr

namespace Node

/-- The text of the first cell that plays some role. -/
def textOf (n : Node) (kind : CellKind) : Text := ((n.firstCell? kind).map Cell.text).getD []

/-- What is wrong with a row of a section of some kind. -/
def rowFault? (kind : HeadingKind) (n : Node) : Option SyntaxFault :=
  match n.kind with
  | .importing =>
    if (n.cellsOf .argument).isEmpty then some (.importWithoutName (n.textOf .settingName))
    else none
  | .variableRow =>
    if VariableToken.isWholeCell (n.textOf .variableName) then none
    else some (.invalidVariableName (n.textOf .variableName))
  | .bracketRow =>
    if Reserved.isKnownBracketSetting (n.textOf .settingName) then none
    else some (.unknownSetting (n.textOf .settingName))
  | .otherRow =>
    match kind with
    | .settings => some .settingContinuationAlone
    | .variableTable => some .variableContinuationAlone
    | _ => none
  | _ => none

/-- What is wrong with the first line of a definition. -/
def nameFault? (n : Node) : Option SyntaxFault :=
  if (n.cellsOf .definitionName).isEmpty then
    some (if n.kind = .testCase then .missingTestCaseName else .missingKeywordName)
  else none

/-- A fault, if there is one, at the start of a node. -/
def place (n : Node) (fault? : Option SyntaxFault) : List PlacedFault :=
  fault?.toList.map fun fault => ⟨fault, n.start⟩

def rowFaults (kind : HeadingKind) (n : Node) : List PlacedFault := n.place (n.rowFault? kind)

/-- The faults of a row or definition of a section of some kind. -/
def faultsIn (kind : HeadingKind) (n : Node) : List PlacedFault :=
  if n.kind.isDefinition then n.place n.nameFault? ++ n.nodes.flatMap (rowFaults kind)
  else n.rowFaults kind

/-- The kind that the heading of a section announces. -/
def announcedKind (n : Node) : HeadingKind :=
  (n.heading?.map fun h => Tree.announced h.children).getD .unknown

def sectionFaults (n : Node) : List PlacedFault :=
  n.place (if n.announcedKind = .unknown then some .unknownHeading else none) ++
    n.nodes.flatMap (faultsIn n.announcedKind)

/-- The faults of a document, in the order of the tree. -/
def faults (n : Node) : List PlacedFault := n.sections.flatMap sectionFaults

end Node

/-- How the faults of a tree come to be errors: each one on the line that begins where its node
does. Only the fault of a bracket setting that begins no line is passed over. -/
inductive Reports (lineAt : Nat → Option Line) : List PlacedFault → List SyntaxError → Prop
  | nil : Reports lineAt [] []
  | reported {fault : SyntaxFault} {offset : Nat} {l : Line} {faults : List PlacedFault}
      {errors : List SyntaxError} (found : lineAt offset = some l)
      (rest : Reports lineAt faults errors) :
      Reports lineAt (⟨fault, offset⟩ :: faults) (⟨fault, l.span⟩ :: errors)
  | inline {name : Text} {offset : Nat} {faults : List PlacedFault} {errors : List SyntaxError}
      (inside : lineAt offset = none) (rest : Reports lineAt faults errors) :
      Reports lineAt (⟨.unknownSetting name, offset⟩ :: faults) errors

namespace Reports

variable {lineAt : Nat → Option Line} {faults more : List PlacedFault}
  {errors others : List SyntaxError}

theorem append (h : Reports lineAt faults errors) (h' : Reports lineAt more others) :
    Reports lineAt (faults ++ more) (errors ++ others) := by
  induction h with
  | nil => exact h'
  | reported found _ ih => exact .reported found ih
  | inline inside _ ih => exact .inline inside ih

/-- The fault of a node that begins a line. -/
theorem place {n : Node} {l : Line} (found : lineAt n.start = some l)
    (fault? : Option SyntaxFault) :
    Reports lineAt (n.place fault?) (fault?.toList.map fun fault => ⟨fault, l.span⟩) := by
  cases fault? with
  | none => exact .nil
  | some fault => exact .reported found .nil

theorem errors_eq (h : Reports lineAt faults errors) :
    errors = faults.filterMap fun f => (lineAt f.offset).map fun l => ⟨f.fault, l.span⟩ := by
  induction h with
  | nil => rfl
  | reported found _ ih => rw [List.filterMap_cons, found, ih]; rfl
  | inline inside _ ih => rw [List.filterMap_cons, inside, ih]; rfl

theorem unknownSetting_of_inside (h : Reports lineAt faults errors) :
    ∀ f ∈ faults, lineAt f.offset = none → ∃ name, f.fault = .unknownSetting name := by
  induction h with
  | nil => nofun
  | reported found _ ih =>
    refine List.forall_mem_cons.2 ⟨fun inside => ?_, ih⟩
    rw [found] at inside
    cases inside
  | inline _ _ ih => exact List.forall_mem_cons.2 ⟨fun _ => ⟨_, rfl⟩, ih⟩

end Reports

/-- Whether a line is found where it begins, and no other line is found inside it. -/
structure Line.IsFoundBy (lineAt : Nat → Option Line) (l : Line) : Prop where
  here : lineAt l.start = some l
  inside : ∀ offset, l.start < offset → offset < l.span.stop → lineAt offset = none

namespace Node

theorem map_text_cellsOf (n : Node) (kind : CellKind) :
    (n.cellsOf kind).map Cell.text =
      ((Tree.cellTexts n.children).filter fun c => c.1 == kind).map Prod.snd := by
  rw [← cells_texts, List.filter_map, List.map_map]
  rfl

/-- The first cell that plays some role is found by the texts of the cells. -/
theorem textOf_eq (n : Node) (kind : CellKind) : n.textOf kind =
    (((Tree.cellTexts n.children).filter fun c => c.1 == kind).map Prod.snd).headD [] := by
  rw [← map_text_cellsOf, textOf, firstCell?, List.head?_map.symm, List.headD_eq_head?_getD]

theorem isEmpty_cellsOf (n : Node) (kind : CellKind) : (n.cellsOf kind).isEmpty =
    ((Tree.cellTexts n.children).filter fun c => c.1 == kind).isEmpty := by
  have same := congrArg List.isEmpty (n.map_text_cellsOf kind)
  rwa [List.isEmpty_map, List.isEmpty_map] at same

variable {start : Nat} {kind : HeadingKind} {ts : List Tree} {name : Text}
  {rest : List (CellKind × Text)}

theorem rowFault?_importing {values : List Text}
    (cells : Tree.cellTexts ts = (.settingName, name) :: CellKind.argument.all values) :
    rowFault? kind ⟨start, .importing, ts⟩ =
      if values = [] then some (.importWithoutName name) else none := by
  have arguments : (CellKind.argument.all values).filter (fun c => c.1 == .argument) =
      CellKind.argument.all values := List.filter_eq_self.2 (by simp [CellKind.all])
  have empty : (CellKind.argument.all values).isEmpty ↔ values = [] := by
    rw [List.isEmpty_iff, CellKind.all, List.map_eq_nil_iff]
  simp [rowFault?, isEmpty_cellsOf, textOf_eq, cells, arguments, empty]

theorem rowFault?_variableRow (cells : Tree.cellTexts ts = (.variableName, name) :: rest) :
    rowFault? kind ⟨start, .variableRow, ts⟩ =
      if VariableToken.isWholeCell name then none else some (.invalidVariableName name) := by
  simp [rowFault?, textOf_eq, cells]

theorem rowFault?_bracketRow (cells : Tree.cellTexts ts = (.settingName, name) :: rest) :
    rowFault? kind ⟨start, .bracketRow, ts⟩ =
      if Reserved.isKnownBracketSetting name then none else some (.unknownSetting name) := by
  simp [rowFault?, textOf_eq, cells]

theorem rowFault?_otherRow (bodies : kind.holdsBodies = true) :
    rowFault? kind ⟨start, .otherRow, ts⟩ = none := by
  cases kind <;> first | rfl | cases bodies

/-- Outside the sections of settings and variables only bracket settings can be wrong. -/
theorem unknownSetting_of_rowFault? {n : Node} (bodies : kind.holdsBodies = true)
    (body : n.kind ∈ [NodeKind.callRow, .controlRow, .bracketRow, .otherRow]) {fault : SyntaxFault}
    (h : n.rowFault? kind = some fault) : ∃ name, fault = .unknownSetting name := by
  obtain ⟨start, k, ts⟩ := n
  simp only [List.mem_cons, List.not_mem_nil, or_false] at body
  rcases body with rfl | rfl | rfl | rfl
  · cases h
  · cases h
  · simp only [rowFault?, Option.ite_none_left_eq_some, Option.some.injEq] at h
    exact ⟨_, h.2.symm⟩
  · rw [rowFault?_otherRow bodies] at h
    cases h

end Node

namespace RowForm

variable {r : Row} (filled : r.head.isBlank = false) (start : Nat)

include filled

theorem rowFault?_ofSetting : (Node.rowFault? .settings
      ⟨start, (ofSetting r).kind, r.trees (ofSetting r).shape⟩).toList = (ofSetting r).faults := by
  obtain ⟨values, cells⟩ := Row.cells_eq_cons filled
  rw [ofSetting]
  split
  · rfl
  split
  · have left : Roles.OnlyArguments ⟨.importing, 1, false, false⟩ := Nat.succ_ne_zero 0
    have texts : Tree.cellTexts (r.trees .importing) =
        (.settingName, r.name) :: CellKind.argument.all values := by
      rw [Row.cellTexts_trees, cells, Roles.given_start .importing _ values rfl, left.given]
      rfl
    have count : r.cellCount < 2 ↔ values = [] := by
      rw [← Row.length_cells, cells, List.length_cons, ← List.length_eq_zero_iff]
      omega
    rw [Node.rowFault?_importing texts, if_congr count rfl rfl]
    split <;> rfl
  · rfl

theorem rowFault?_ofVariable : (Node.rowFault? .variableTable
      ⟨start, (ofVariable r).kind, r.trees (ofVariable r).shape⟩).toList =
        (ofVariable r).faults := by
  obtain ⟨values, cells⟩ := Row.cells_eq_cons filled
  rw [ofVariable]
  split
  · rfl
  · obtain ⟨rest, texts⟩ :
        ∃ rest, Tree.cellTexts (r.trees .variableRow) = (.variableName, r.name) :: rest := by
      rw [Row.cellTexts_trees, cells, Roles.given_start .variableRow _ values rfl]
      exact ⟨_, rfl⟩
    rw [Node.rowFault?_variableRow texts]
    split <;> rfl

theorem rowFault?_ofBody {kind : HeadingKind} (bodies : kind.holdsBodies = true) :
    (Node.rowFault? kind ⟨start, (ofBody r).kind, r.trees (ofBody r).shape⟩).toList =
      (ofBody r).faults := by
  obtain ⟨values, cells⟩ := Row.cells_eq_cons filled
  have mark : Reserved.isBracketed Line.continuationMark = false := by decide
  simp only [ofBody, shapeInBody]
  split
  · rename_i continues
    rw [continues, mark, Node.rowFault?_otherRow bodies]
    rfl
  split
  · rename_i bracketed
    have first : (Roles.start (.bracket (Reserved.isFixtureBracketSetting r.name)
        (Reserved.isArgumentsBracketSetting r.name))).next r.name =
          (some .settingName, ⟨.bracket (Reserved.isFixtureBracketSetting r.name)
            (Reserved.isArgumentsBracketSetting r.name), 1, false, false⟩) := by
      cases Reserved.isArgumentsBracketSetting r.name <;> rfl
    have texts := Row.cellTexts_trees (.bracket (Reserved.isFixtureBracketSetting r.name)
      (Reserved.isArgumentsBracketSetting r.name)) r
    rw [cells, Roles.given_start _ _ values first] at texts
    rw [Node.rowFault?_bracketRow texts, bracketed, Bool.true_and]
    cases Reserved.isKnownBracketSetting r.name <;> rfl
  · rename_i unbracketed
    rw [Bool.eq_false_iff.2 unbracketed, Bool.false_and, if_neg Bool.false_ne_true]
    split <;> rfl

end RowForm

variable {lineAt : Nat → Option Line}

namespace Node

/-- Lines that are no rows leave no nodes but comments. -/
theorem kind_of_mem_nodesFrom_bare {start : Nat} {ps : List Part} {n : Node}
    (h : n ∈ Tree.nodesFrom start (ps.flatMap Part.bare)) : n.kind = .comment := by
  have inside := tree_mem_of_mem_nodes (n := ⟨start, .document, ps.flatMap Part.bare⟩) h
  obtain ⟨p, -, ht⟩ := List.mem_flatMap.1 inside
  exact kind_of_isGap (Part.isGap_of_mem_bare ht)

/-- Nothing is wrong with a comment. -/
theorem rowFaults_of_comment {n : Node} (h : n.kind = .comment) (kind : HeadingKind) :
    n.rowFaults kind = [] := by
  obtain ⟨start, k, ts⟩ := n
  cases h
  rfl

theorem faultsIn_of_comment {n : Node} (h : n.kind = .comment) (kind : HeadingKind) :
    n.faultsIn kind = [] := by
  rw [faultsIn, h, rowFaults_of_comment h]
  rfl

theorem rowFaults_nodesFrom_bare (kind : HeadingKind) (start : Nat) (ps : List Part) :
    (Tree.nodesFrom start (ps.flatMap Part.bare)).flatMap (rowFaults kind) = [] :=
  List.flatMap_eq_nil_iff.2 fun _ hn => rowFaults_of_comment (kind_of_mem_nodesFrom_bare hn) kind

end Node

namespace Item

/-- The rows of some lines report their faults. -/
theorem reports_parseAll {kind : HeadingKind} {form : Row → RowForm}
    (agrees : ∀ r : Row, r.head.isBlank = false → ∀ start, (Node.rowFault? kind
      ⟨start, (form r).kind, r.trees (form r).shape⟩).toList = (form r).faults)
    {items : List Item} (grouped : ∀ item ∈ items, item.IsGrouped) {offset : Nat}
    (located : Line.AreLocated offset (items.flatMap lines))
    (found : ∀ l ∈ items.flatMap lines, l.IsFoundBy lineAt) :
    Reports lineAt ((Tree.nodesFrom offset (parseAll form items).value).flatMap
      (Node.rowFaults kind)) (parseAll form items).errors := by
  induction items generalizing offset with
  | nil => exact .nil
  | cons item items ih =>
    obtain ⟨first, others⟩ := List.forall_mem_cons.1 grouped
    rw [List.flatMap_cons, Line.areLocated_append] at located
    rw [List.flatMap_cons, List.forall_mem_append] at found
    have size : Tree.leavesOf (parse form item).value = item.lines.flatMap Line.tokens := by
      rw [leavesOf_parse]
      cases item with
      | blank l => exact (List.append_nil _).symm
      | row r => rfl
    rw [parseAll_cons, Tree.nodesFrom_append, List.flatMap_append, size]
    refine Reports.append ?_ (ih others located.2 found.2)
    cases item with
    | blank l =>
      rw [parse, Line.bare, Node.rowFaults_nodesFrom_bare]
      exact .nil
    | row r =>
      obtain ⟨⟨place, -⟩, -⟩ := located
      have here := (found.1 r.head List.mem_cons_self).here
      rw [place] at here
      have reported := Reports.place (n := ⟨offset, (form r).kind, r.trees (form r).shape⟩) here
        (Node.rowFault? kind ⟨offset, (form r).kind, r.trees (form r).shape⟩)
      rw [agrees r first offset] at reported
      simpa [parse, RowForm.parse, Tree.nodesFrom, Node.rowFaults] using reported

/-- The same said of lines before they are grouped into rows. -/
theorem reports_ofLines {kind : HeadingKind} {form : Row → RowForm}
    (agrees : ∀ r : Row, r.head.isBlank = false → ∀ start, (Node.rowFault? kind
      ⟨start, (form r).kind, r.trees (form r).shape⟩).toList = (form r).faults)
    {ls : List Line} {offset : Nat} (located : Line.AreLocated offset ls)
    (found : ∀ l ∈ ls, l.IsFoundBy lineAt) :
    Reports lineAt ((Tree.nodesFrom offset (parseAll form (ofLines ls)).value).flatMap
      (Node.rowFaults kind)) (parseAll form (ofLines ls)).errors := by
  refine reports_parseAll agrees isGrouped_of_mem_ofLines ?_ ?_
  · rwa [flatMap_lines_ofLines]
  · rwa [flatMap_lines_ofLines]

/-- Rows have no cells beside them. -/
theorem cellTexts_parseAll (form : Row → RowForm) (ls : List Line)
    (used : RowForm.InUse form) : Tree.cellTexts (parseAll form (ofLines ls)).value = [] := by
  rw [Tree.cellTexts, List.filterMap_eq_nil_iff]
  intro t ht
  rcases mem_value_parseAll ht with gap | ⟨r, -, rfl⟩
  · cases gap <;> rfl
  · have isRow := used.isRow r
    rw [RowForm.parse]
    cases kind : (form r).kind <;> first | rfl | (rw [kind] at isRow; cases isRow)

end Item

namespace Definition

variable {kind : HeadingKind} (bodies : kind.holdsBodies = true)

include bodies

/-- What stands on the line that names a definition reports nothing: only the row behind the name
can be wrong, and it does not begin the line. -/
theorem reports_nameLine {l : Line} (made : l.IsMade) (written : ∀ t ∈ l.tokens, t.text ≠ [])
    (filled : l.isBlank = false) (outside : l.isIndented = false) (found : l.IsFoundBy lineAt) :
    Reports lineAt ((Tree.nodesFrom l.start (nameLine l)).flatMap (Node.rowFaults kind)) [] := by
  obtain ⟨name, rest, parts⟩ := made.ordered.begins filled outside
  have nameOnly : Node.rowFaults kind
      ⟨l.start, .cell .definitionName, name.map .leaf⟩ = [] := rfl
  cases more : (rest.filterMap Part.cellText?).isEmpty with
  | true =>
    have noCell : ∀ p ∈ rest, p.isCell = false := by
      intro p hp
      rw [Part.isCell, List.filterMap_eq_nil_iff.1 (List.isEmpty_iff.1 more) p hp]
      rfl
    rw [nameLine_of_noCell parts noCell, nameTree, Tree.nodesFrom, List.flatMap_cons, nameOnly,
      List.nil_append, Node.rowFaults_nodesFrom_bare]
    exact .nil
  | false =>
    obtain ⟨gaps, first, row, -, rfl, noCell⟩ := Part.exists_first_cell more
    rw [nameLine_of_cell parts noCell, nameTree, Tree.nodesFrom, List.flatMap_cons, nameOnly,
      List.nil_append, Tree.nodesFrom_append, List.flatMap_append, Node.rowFaults_nodesFrom_bare,
      List.nil_append, Tree.nodesFrom, Tree.nodesFrom, List.flatMap_singleton, Node.rowFaults]
    obtain ⟨tokens, ofTokens⟩ := made.parts
    have cell (ts : List Token) (inside : Part.cell ts ∈ l.parts) : 0 < Token.sizeOf ts := by
      refine Token.sizeOf_pos (fun t ht => written t ?_)
        (Part.of_cell_mem_ofTokens (ofTokens ▸ inside)).1
      exact List.mem_flatMap.2 ⟨.cell ts, inside, ht⟩
    have before := cell name (by rw [parts]; exact List.mem_cons_self)
    have after := cell first (by rw [parts]; simp)
    have size : Token.sizeOf l.tokens =
        Token.sizeOf name + Token.sizeOf (gaps.flatMap Part.tokens) +
          Token.sizeOf first + Token.sizeOf (row.flatMap Part.tokens) := by
      simp only [Line.tokens, parts, List.flatMap_cons, List.flatMap_append, Token.sizeOf_append,
        Part.tokens]
      omega
    generalize fault : Node.rowFault? kind _ = fault?
    cases fault? with
    | none => exact .nil
    | some fault =>
      obtain ⟨unknown, rfl⟩ := Node.unknownSetting_of_rowFault? bodies
        (RowForm.kind_shapeInBody_mem _) fault
      refine .inline (found.inside _ ?_ ?_) .nil
      · rw [Tree.leavesOf_map_leaf]
        dsimp only
        omega
      · rw [Tree.leavesOf_map_leaf, Part.leavesOf_flatMap_bare, Line.span, Span.stop, size]
        dsimp only
        omega

omit bodies in
theorem exists_nameLine_eq_cons {l : Line} {name : List Token} {rest : List Part}
    (parts : l.parts = .cell name :: rest) : ∃ more, nameLine l = nameTree name :: more := by
  rw [nameLine, parts]
  dsimp only
  split <;> exact ⟨_, rfl⟩

/-- A definition reports its faults. -/
theorem reports_parse {k : NodeKind} (isDefinition : k = .testCase ∨ k = .userKeyword)
    {d : Definition} (made : ∀ l ∈ d.lines, l.IsMade)
    (written : ∀ l ∈ d.lines, ∀ t ∈ l.tokens, t.text ≠ []) (filled : d.first.isBlank = false)
    {offset : Nat} (located : Line.AreLocated offset d.lines)
    (found : ∀ l ∈ d.lines, l.IsFoundBy lineAt) :
    Reports lineAt ((Tree.nodesFrom offset [(parse k d).value]).flatMap (Node.faultsIn kind))
      (parse k d).errors := by
  have rows (ls : List Line) (offset : Nat) (located : Line.AreLocated offset ls)
      (found : ∀ l ∈ ls, l.IsFoundBy lineAt) :
      Reports lineAt ((Tree.nodesFrom offset
        (Item.parseAll RowForm.ofBody (Item.ofLines ls)).value).flatMap (Node.rowFaults kind))
        (Item.parseAll RowForm.ofBody (Item.ofLines ls)).errors :=
    Item.reports_ofLines (fun _ filled start => RowForm.rowFault?_ofBody filled start bodies)
      located found
  have isDefinition' : k.isDefinition = true := by rcases isDefinition with rfl | rfl <;> rfl
  have faults (children : List Tree) :
      (Tree.nodesFrom offset [.node k children]).flatMap (Node.faultsIn kind) =
        Node.place ⟨offset, k, children⟩ (Node.nameFault? ⟨offset, k, children⟩) ++
          (Tree.nodesFrom offset children).flatMap (Node.rowFaults kind) := by
    rw [Tree.nodesFrom, Tree.nodesFrom, List.flatMap_singleton, Node.faultsIn, if_pos isDefinition']
    rfl
  obtain ⟨place, below⟩ := located
  obtain ⟨foundFirst, foundBody⟩ := List.forall_mem_cons.1 found
  rw [parse]
  cases indented : d.first.isIndented with
  | true =>
    have unnamed := Item.cellTexts_parseAll RowForm.ofBody (d.first :: d.body) .ofBody
    rw [if_pos rfl, faults, Node.nameFault?, Node.isEmpty_cellsOf, unnamed]
    have here : lineAt offset = some d.first := place ▸ foundFirst.here
    exact .reported here (rows (d.first :: d.body) offset ⟨place, below⟩ found)
  | false =>
    have madeFirst := made d.first List.mem_cons_self
    obtain ⟨name, rest, parts⟩ := madeFirst.ordered.begins filled indented
    obtain ⟨more, line⟩ := exists_nameLine_eq_cons parts
    have named (body : List Tree) :
        Node.nameFault? ⟨offset, k, nameLine d.first ++ body⟩ = none := by
      rw [Node.nameFault?, Node.isEmpty_cellsOf, line]
      rfl
    have onLine := reports_nameLine bodies madeFirst (written d.first List.mem_cons_self) filled
      indented foundFirst
    rw [place] at onLine
    rw [if_neg Bool.false_ne_true, faults, named, Tree.nodesFrom_append, List.flatMap_append,
      leavesOf_nameLine]
    exact onLine.append (rows d.body _ below foundBody)

end Definition

namespace Node

/-- A row or definition of a section reports what its kind says. -/
theorem faultsIn_of_row {kind : HeadingKind} {n : Node} (h : n.kind.isDefinition = false) :
    n.faultsIn kind = n.rowFaults kind := by
  rw [faultsIn, h, if_neg Bool.false_ne_true]

end Node

namespace Item

theorem faultsIn_parseAll {kind : HeadingKind} {form : Row → RowForm}
    (used : RowForm.InUse form) (offset : Nat) (ls : List Line) :
    (Tree.nodesFrom offset (parseAll form (ofLines ls)).value).flatMap (Node.faultsIn kind) =
      (Tree.nodesFrom offset (parseAll form (ofLines ls)).value).flatMap (Node.rowFaults kind) := by
  refine List.flatMap_congr fun n hn => Node.faultsIn_of_row ?_
  have inside := Node.tree_mem_of_mem_nodes
    (n := ⟨offset, .document, (parseAll form (ofLines ls)).value⟩) hn
  rcases mem_value_parseAll inside with gap | ⟨r, filled, same⟩
  · rw [Node.kind_of_isGap gap]
    rfl
  · exact Node.IsRow.isDefinition_eq_false ⟨r, filled, same⟩ used

end Item

namespace SectionLines

variable {text : Text} {s : SectionLines} {offset : Nat}

/-- Definitions one behind the other report their faults. -/
theorem reports_definitions {kind : HeadingKind} (bodies : kind.holdsBodies = true) {k : NodeKind}
    (isDefinition : k = .testCase ∨ k = .userKeyword) {ds : List Definition}
    (made : ∀ d ∈ ds, (∀ l ∈ d.lines, l.IsMade ∧ ∀ t ∈ l.tokens, t.text ≠ []) ∧
      d.first.isBlank = false)
    (located : Line.AreLocated offset (ds.flatMap Definition.lines))
    (found : ∀ l ∈ ds.flatMap Definition.lines, l.IsFoundBy lineAt) :
    Reports lineAt
      ((Tree.nodesFrom offset (ds.map fun d => (Definition.parse k d).value)).flatMap
        (Node.faultsIn kind))
      (Parsed.sequence (ds.map (Definition.parse k))).errors := by
  induction ds generalizing offset with
  | nil => exact .nil
  | cons d ds ih =>
    obtain ⟨⟨lines, filled⟩, others⟩ := List.forall_mem_cons.1 made
    rw [List.flatMap_cons, Line.areLocated_append] at located
    rw [List.flatMap_cons, List.forall_mem_append] at found
    have first := Definition.reports_parse bodies isDefinition (fun l hl => (lines l hl).1)
      (fun l hl => (lines l hl).2) filled located.1 found.1
    have split : Tree.nodesFrom offset ((d :: ds).map fun d => (Definition.parse k d).value) =
        Tree.nodesFrom offset [(Definition.parse k d).value] ++
          Tree.nodesFrom (offset + Token.sizeOf (d.lines.flatMap Line.tokens))
            (ds.map fun d => (Definition.parse k d).value) := by
      rw [List.map_cons, ← List.singleton_append, Tree.nodesFrom_append, Tree.leavesOf_singleton,
        Definition.leaves_parse]
    rw [split, List.flatMap_append]
    exact first.append (ih others located.2 found.2)

/-- No token of a line of a document is empty. -/
theorem text_ne_nil_of_mem_lines (h : s ∈ ofText text) {l : Line} (hl : l ∈ s.lines) {t : Token}
    (ht : t ∈ l.tokens) : t.text ≠ [] := by
  have inside : l ∈ linesOf (tokenize text) := by
    rw [← flatten_ofText]
    exact List.mem_append_right _ (List.mem_flatMap.2 ⟨s, h, hl⟩)
  have whole : t ∈ tokenize text := by
    rw [← flatMap_tokens_linesOf (tokenize text)]
    exact List.mem_flatMap.2 ⟨l, inside, ht⟩
  exact Token.text_ne_nil_of_mem_tokenize whole

/-- The body of a section that holds definitions reports its faults. -/
theorem reports_parseAll (h : s ∈ ofText text) {kind : HeadingKind}
    (bodies : kind.holdsBodies = true) {k : NodeKind}
    (isDefinition : k = .testCase ∨ k = .userKeyword) (located : Line.AreLocated offset s.body)
    (found : ∀ l ∈ s.body, l.IsFoundBy lineAt) :
    Reports lineAt ((Tree.nodesFrom offset (Definition.parseAll k s.body).value).flatMap
      (Node.faultsIn kind)) (Definition.parseAll k s.body).errors := by
  have body := Definition.ofLines_flatten s.body
  rw [← body, Line.areLocated_append] at located
  rw [← body, List.forall_mem_append] at found
  have made : ∀ d ∈ (Definition.ofLines s.body).2,
      (∀ l ∈ d.lines, l.IsMade ∧ ∀ t ∈ l.tokens, t.text ≠ []) ∧ d.first.isBlank = false := by
    intro d hd
    obtain ⟨lines, filled⟩ := of_mem_definitions h hd
    refine ⟨fun l hl => ⟨lines l hl, fun t => text_ne_nil_of_mem_lines h ?_⟩, filled⟩
    rw [SectionLines.lines, ← body]
    exact List.mem_cons_of_mem _ (List.mem_append_right _ (List.mem_flatMap.2 ⟨d, hd, hl⟩))
  have blanks : (Tree.nodesFrom offset ((Definition.ofLines s.body).1.flatMap Line.bare)).flatMap
      (Node.faultsIn kind) = [] := by
    have parts : (Definition.ofLines s.body).1.flatMap Line.bare =
        ((Definition.ofLines s.body).1.flatMap Line.parts).flatMap Part.bare := by
      rw [List.flatMap_assoc]
      rfl
    rw [parts, List.flatMap_eq_nil_iff]
    exact fun n hn => Node.faultsIn_of_comment (Node.kind_of_mem_nodesFrom_bare hn) kind
  have errors : (Definition.parseAll k s.body).errors =
      (Parsed.sequence ((Definition.ofLines s.body).2.map (Definition.parse k))).errors := rfl
  rw [Definition.value_parseAll, errors, Tree.nodesFrom_append, List.flatMap_append, blanks,
    List.nil_append, Line.leavesOf_flatMap_bare]
  exact reports_definitions bodies isDefinition made located.2 found.2

/-- The body of a section reports its faults. -/
theorem reports_parseBody (h : s ∈ ofText text) (located : Line.AreLocated offset s.body)
    (found : ∀ l ∈ s.body, l.IsFoundBy lineAt) :
    Reports lineAt ((Tree.nodesFrom offset s.parseBody.value).flatMap (Node.faultsIn s.kind))
      s.parseBody.errors := by
  rw [parseBody]
  cases s.kind with
  | settings =>
    rw [Item.faultsIn_parseAll .ofSetting]
    exact Item.reports_ofLines (fun _ filled => RowForm.rowFault?_ofSetting filled) located found
  | variableTable =>
    rw [Item.faultsIn_parseAll .ofVariable]
    exact Item.reports_ofLines (fun _ filled => RowForm.rowFault?_ofVariable filled) located found
  | testCases => exact reports_parseAll h rfl (.inl rfl) located found
  | tasks => exact reports_parseAll h rfl (.inl rfl) located found
  | keywords => exact reports_parseAll h rfl (.inr rfl) located found
  | comments =>
    rw [Item.faultsIn_parseAll .plain]
    exact Item.reports_ofLines (fun _ _ _ => rfl) located found
  | unknown =>
    rw [Item.faultsIn_parseAll .plain]
    exact Item.reports_ofLines (fun _ _ _ => rfl) located found

/-- A section reports its faults. -/
theorem reports_parse (h : s ∈ ofText text) (located : Line.AreLocated offset s.lines)
    (found : ∀ l ∈ s.lines, l.IsFoundBy lineAt) :
    Reports lineAt (Node.sectionFaults ⟨offset, .headed,
      .node .heading s.heading.bare :: s.parseBody.value⟩) s.parse.errors := by
  obtain ⟨place, below⟩ := located
  obtain ⟨heading, body⟩ := List.forall_mem_cons.1 found
  have announced : Node.announcedKind ⟨offset, .headed,
      .node .heading s.heading.bare :: s.parseBody.value⟩ = s.kind :=
    announced_heading h
  have nodes : Node.nodes ⟨offset, .headed, .node .heading s.heading.bare :: s.parseBody.value⟩ =
      ⟨offset, .heading, s.heading.bare⟩ ::
        Tree.nodesFrom (offset + Token.sizeOf s.heading.tokens) s.parseBody.value := by
    rw [Node.nodes, Tree.nodesFrom, Line.leavesOf_bare]
  have noFault : Node.faultsIn s.kind ⟨offset, .heading, s.heading.bare⟩ = [] := rfl
  have here : lineAt offset = some s.heading := place ▸ heading.here
  rw [Node.sectionFaults, announced, nodes, List.flatMap_cons, noFault, List.nil_append, parse]
  refine Reports.append ?_ (reports_parseBody h below body)
  split
  · exact .reported here .nil
  · exact .nil

end SectionLines

namespace Line

theorem AreLocated.le_start {offset : Nat} {ls : List Line} (located : AreLocated offset ls)
    {l : Line} (h : l ∈ ls) : offset ≤ l.start := by
  induction ls generalizing offset with
  | nil => cases h
  | cons m ls ih =>
    rcases List.mem_cons.1 h with rfl | h
    · exact located.1.ge
    · have := ih located.2 h
      omega

/-- Lines one behind the other are found where they begin, if none of them is empty. -/
theorem AreLocated.isFoundBy {offset : Nat} {ls : List Line} (located : AreLocated offset ls)
    (filled : ∀ l ∈ ls, 0 < Token.sizeOf l.tokens) {l : Line} (h : l ∈ ls) :
    l.IsFoundBy fun place => ls.find? fun l => l.start == place := by
  induction ls generalizing offset with
  | nil => cases h
  | cons m ls ih =>
    obtain ⟨rfl, below⟩ := located
    obtain ⟨first, others⟩ := List.forall_mem_cons.1 filled
    rcases List.mem_cons.1 h with rfl | h
    · refine ⟨List.find?_cons_of_pos (beq_self_eq_true _), fun place after before => ?_⟩
      refine List.find?_eq_none.2 (List.forall_mem_cons.2 ⟨?_, fun k hk => ?_⟩)
      · simp [after.ne]
      · have later := below.le_start hk
        have before : place < l.start + Token.sizeOf l.tokens := before
        simp only [beq_iff_eq]
        omega
    · have behind := below.le_start h
      have found := ih below others h
      have other {place : Nat} (ge : l.start ≤ place) : (m.start == place) = false := by
        rw [beq_eq_false_iff_ne]
        omega
      refine ⟨?_, fun place after before => ?_⟩
      · rw [List.find?_cons_of_neg (by simp [other le_rfl])]
        exact found.here
      · rw [List.find?_cons_of_neg (by simp [other after.le])]
        exact found.inside place after before

end Line

/-- The line of a text that begins at an offset. -/
def lineBeginningAt (text : Text) (offset : Nat) : Option Line :=
  (linesOf (tokenize text)).find? fun l => l.start == offset

/-- The lines of a text are found where they begin. -/
theorem Line.isFoundBy_lineBeginningAt {text : Text} {l : Line}
    (h : l ∈ linesOf (tokenize text)) : l.IsFoundBy (lineBeginningAt text) :=
  (areLocated_linesOf (tokenize text)).isFoundBy (fun _ => sizeOf_pos_of_mem_linesOf) h

/-- The sections of a document report its faults. -/
theorem reports_sections {text : Text} {lineAt : Nat → Option Line} {ss : List SectionLines}
    (h : ∀ s ∈ ss, s ∈ SectionLines.ofText text) {offset : Nat}
    (located : Line.AreLocated offset (ss.flatMap SectionLines.lines))
    (found : ∀ l ∈ ss.flatMap SectionLines.lines, l.IsFoundBy lineAt) :
    Reports lineAt
      (((Tree.nodesFrom offset (ss.map fun s => s.parse.value)).filter
        fun n => n.kind == .headed).flatMap Node.sectionFaults)
      (Parsed.sequence (ss.map SectionLines.parse)).errors := by
  induction ss generalizing offset with
  | nil => exact .nil
  | cons s ss ih =>
    obtain ⟨first, rest⟩ := List.forall_mem_cons.1 h
    rw [List.flatMap_cons, Line.areLocated_append] at located
    rw [List.flatMap_cons, List.forall_mem_append] at found
    have reported := SectionLines.reports_parse first located.1 found.1
    have size : Token.sizeOf (Tree.leavesOf
        (.node .heading s.heading.bare :: s.parseBody.value)) =
        Token.sizeOf (s.lines.flatMap Line.tokens) :=
      congrArg Token.sizeOf (SectionLines.leaves_parse s)
    rw [List.map_cons, SectionLines.value_parse, Tree.nodesFrom, List.filter_cons_of_pos rfl,
      List.flatMap_cons, size]
    exact reported.append (ih rest located.2 found.2)

/-- A text reports the faults of its tree. -/
theorem reports_parse (text : Text) :
    Reports (lineBeginningAt text) (parse text).value.root.faults (parse text).errors := by
  rw [Node.faults, Node.sections_eq, errors_parse]
  refine reports_sections (fun _ hs => hs) (areLocated_sections text) fun l hl => ?_
  refine Line.isFoundBy_lineBeginningAt ?_
  rw [← SectionLines.flatten_ofText]
  exact List.mem_append_right _ hl

/-- The errors of a text are the faults of its tree, each one on the line that begins with the node
that has it, and in their order. A fault is left out only where no line begins with its node, and
then it is that of a bracket setting. -/
theorem errors_eq_faults (text : Text) :
    (parse text).errors = ((parse text).value.root.faults.filterMap fun f =>
        (lineBeginningAt text f.offset).map fun l => ⟨f.fault, l.span⟩) ∧
      (∀ f ∈ (parse text).value.root.faults, lineBeginningAt text f.offset = none →
        ∃ name, f.fault = .unknownSetting name) ∧
      (∀ e ∈ (parse text).errors, ∃ l ∈ linesOf (tokenize text), e.span = l.span) ∧
      ((parse text).errors = [] ↔
        ∀ f ∈ (parse text).value.root.faults, lineBeginningAt text f.offset = none) := by
  have reports := reports_parse text
  have errors := reports.errors_eq
  refine ⟨errors, reports.unknownSetting_of_inside, fun e he => ?_, ?_⟩
  · rw [errors] at he
    obtain ⟨f, -, he⟩ := List.mem_filterMap.1 he
    obtain ⟨l, found, rfl⟩ := Option.map_eq_some_iff.1 he
    exact ⟨l, List.mem_of_find?_eq_some found, rfl⟩
  · rw [errors, List.filterMap_eq_nil_iff]
    simp only [Option.map_eq_none_iff]

end RobotAnalysis
