import RobotAnalysis.Proofs.FaithfulFindings
import RobotAnalysis.Proofs.SymbolOrder

/-!
# Variables of definitions

A usage is resolved to the variables of the definition around it before all others. Which variables
these are is decided by their visibility, and a definition is taken to reach up to the offset just
after it. That is where the next definition begins, so there the variables of the definition before
come first; at all later offsets of a definition only its own are left.
-/
namespace RobotAnalysis

/-- Where a condition depends on the key alone, the first element that satisfies it is kept. -/
theorem Sequence.find?_distinctBy {α κ : Type} [DecidableEq κ] {key : α → κ} {p : α → Bool}
    (h : ∀ a b, key a = key b → p a = p b) (l : List α) :
    (distinctBy key l).find? p = l.find? p := by
  suffices select : ∀ seen : List κ, (∀ a, key a ∈ seen → p a = false) →
      (distinctBy.select key seen l).find? p = l.find? p from
    select [] fun _ ha => absurd ha List.not_mem_nil
  induction l with
  | nil => exact fun _ _ => rfl
  | cons a l ih =>
    intro seen passed
    rw [distinctBy.select, List.find?_cons]
    split
    · rename_i known
      rw [ih seen passed, passed a known]
    · rw [List.find?_cons]
      cases holds : p a with
      | true => rfl
      | false =>
        refine ih _ fun b hb => ?_
        rcases List.mem_cons.1 hb with same | known
        · rw [h b a same, holds]
        · exact passed b known

namespace Findings

variable {file : FileId} {v : Variable} {body sec : Node}

/-- The variables that the rows of a definition assign. -/
def localsOf (file : FileId) (body : Node) : List Variable :=
  let scope := if body.kind = .testCase then VariableScope.test else .keyword
  body.bodyRows.flatMap fun row =>
    (row.cellsOf .assignment).flatMap (assignedBy file scope body.span)

theorem visibility_of_mem_assignedBy {scope : VariableScope} {span : Span} {c : Cell}
    (h : v ∈ assignedBy file scope span c) : v.visibility = .within file span := by
  obtain ⟨token, -, rfl⟩ := List.mem_map.1 h
  rfl

theorem visibility_of_mem_localsOf (h : v ∈ localsOf file body) :
    v.visibility = .within file body.span := by
  obtain ⟨row, -, h⟩ := List.mem_flatMap.1 h
  obtain ⟨cell, -, h⟩ := List.mem_flatMap.1 h
  exact visibility_of_mem_assignedBy h

theorem isConfined_of_everywhere (h : v.visibility = .everywhere) : v.isConfined = false := by
  rw [Variable.isConfined, h]

theorem isConfined_of_within {owner : FileId} {span : Span}
    (h : v.visibility = .within owner span) : v.isConfined = true := by
  rw [Variable.isConfined, h]

/-- A row confines only what it assigns. -/
theorem filter_vars_ofBodyRow (scope : VariableScope) (span : Span) (row : Node) :
    (ofBodyRow file scope span row).vars.filter Variable.isConfined =
      (row.cellsOf .assignment).flatMap (assignedBy file scope span) := by
  have found : (ofBodyRow file scope span row).vars =
      (row.cellsOf .assignment).flatMap (assignedBy file scope span) ++ setBy file row ++
        [] ++ [] ++ [] := rfl
  have set : (setBy file row).filter Variable.isConfined = [] :=
    List.filter_eq_nil_iff.2 fun v hv => by
      simp [isConfined_of_everywhere (visibility_of_mem_setBy hv)]
  simp only [found, List.append_nil, List.filter_append, set, List.filter_eq_self]
  intro v hv
  obtain ⟨cell, -, hv⟩ := List.mem_flatMap.1 hv
  exact isConfined_of_within (visibility_of_mem_assignedBy hv)

/-- A definition confines only what its rows assign. -/
theorem filter_vars_ofDefinition (body : Node) :
    (ofDefinition file body).vars.filter Variable.isConfined = localsOf file body := by
  have names : (concat ((body.firstCell? .definitionName).toList.map (ofName file body))).vars =
      [] := by
    refine part_concat_map_eq_nil vars rfl (fun _ _ => rfl) fun c => ?_
    rw [ofName]
    split <;> rfl
  change List.filter _ ((concat _).vars ++ (concat _).vars) = _
  rw [names, part_concat_map vars rfl (fun _ _ => rfl), List.nil_append, List.filter_flatMap,
    localsOf]
  simp only [filter_vars_ofBodyRow]

/-- A section confines only what its definitions assign. -/
theorem filter_vars_ofSection (sec : Node) :
    (ofSection file sec).vars.filter Variable.isConfined =
      if sec.headingKind.holdsBodies then sec.definitions.flatMap (localsOf file) else [] := by
  have definitions : (concat (sec.definitions.map (ofDefinition file))).vars.filter
      Variable.isConfined = sec.definitions.flatMap (localsOf file) := by
    rw [part_concat_map vars rfl (fun _ _ => rfl), List.filter_flatMap]
    simp only [filter_vars_ofDefinition]
  have rows {found : List Variable} (h : ∀ v ∈ found, v.visibility = .everywhere) :
      found.filter Variable.isConfined = [] :=
    List.filter_eq_nil_iff.2 fun v hv => by simp [isConfined_of_everywhere (h v hv)]
  rw [ofSection]
  split <;> rename_i kind <;> rw [kind]
  · refine rows fun v hv => ?_
    rcases List.mem_append.1 hv with hv | hv
    · obtain ⟨row, -, hv⟩ := exists_of_mem_vars_concat_map hv
      rw [ofImport] at hv
      split at hv <;> cases hv
    · obtain ⟨row, -, hv⟩ := exists_of_mem_vars_concat_map hv
      cases hv
  · refine rows fun v hv => ?_
    obtain ⟨row, -, hv⟩ := exists_of_mem_vars_concat_map hv
    obtain ⟨cell, -, declared⟩ := List.mem_flatMap.1 hv
    exact visibility_of_mem_declaredBy declared
  iterate 3 exact definitions
  iterate 2 rfl

end Findings

namespace Document

variable {d : Document} {text : Text} {n m : Node}

/-- The definitions that are read: those in sections whose heading announces definitions. -/
def bodies (d : Document) : List Node :=
  (d.source.tree.root.sections.filter fun sec => sec.headingKind.holdsBodies).flatMap
    Node.definitions

/-- The variables of a document that are confined to definitions, in the order of the text. -/
theorem filter_vars_sections (d : Document) :
    (d.sections.flatMap fun s => s.found.vars).filter Variable.isConfined =
      d.bodies.flatMap (Findings.localsOf d.id) := by
  rw [sections, SectionModel.ofTree, List.flatMap_map, List.filter_flatMap, bodies]
  simp only [Findings.filter_vars_ofSection]
  induction d.source.tree.root.sections with
  | nil => rfl
  | cons sec secs ih =>
    rw [List.flatMap_cons, ih, List.filter_cons]
    split <;> simp [*]

theorem mem_bodies (parsed : d.source.tree = (parse text).value) (h : n ∈ d.bodies) :
    n ∈ (parse text).value.allNodes ∧ n.kind.isDefinition = true := by
  obtain ⟨sec, hsec, hn⟩ := List.mem_flatMap.1 h
  have mem := List.mem_of_mem_filter hsec
  rw [parsed] at mem
  exact Node.mem_allNodes_of_mem_definitions mem hn

/-- The definitions that are read stand one behind the other. -/
theorem pairwise_bodies (parsed : d.source.tree = (parse text).value) :
    d.bodies.Pairwise fun n m => n.span.stop ≤ m.start := by
  let definition? (n : Node) : Option Node := if n.kind.isDefinition then some n else none
  have inSection (sec : Node) : sec.definitions.Sublist (sec.below.filterMap definition?) := by
    have same : sec.definitions = sec.nodes.filterMap definition? := by
      rw [Node.definitions, ← List.filterMap_eq_filter]
      rfl
    rw [same]
    exact sec.nodes_sublist_below.filterMap definition?
  have inTree : d.bodies.Sublist ((parse text).value.allNodes.filterMap definition?) := by
    rw [bodies, parsed, allNodes_parse, Node.sections, Node.nodesOf, List.filter_filter]
    exact (Node.flatMap_filter_sublist_below inSection _).trans
      ((List.sublist_cons_self _ _).filterMap definition?)
  refine List.Pairwise.sublist inTree (List.pairwise_filterMap.2 ?_)
  refine (Tree.pairwise_nodesIn 0 (parse text).value).imp_of_mem ?_
  intro n m hn _ order k first l second
  simp only [definition?, Option.ite_none_right_eq_some, Option.some.injEq] at first second
  obtain ⟨isDefinition, rfl⟩ := first
  obtain ⟨isOther, rfl⟩ := second
  refine order.resolve_left fun inside => ?_
  rw [Node.isDefinition_eq_false_of_mem_below hn isDefinition inside] at isOther
  cases isOther

/-- In the definitions around an offset, the first variable that a usage refers to. -/
def findLocal? (d : Document) (usage : Text) (offset : Nat) : Option Variable :=
  (d.bodies.filter fun body => body.span.touches offset).findSome? fun body =>
    (Findings.localsOf d.id body).find? fun v => v.isUsedBy usage

/-- Whether a variable is confined to a definition around an offset and a usage refers to it. -/
def isLocalUse (d : Document) (usage : Text) (offset : Nat) (v : Variable) : Bool :=
  v.isConfined && (v.isVisibleAt d.id offset && v.isUsedBy usage)

theorem find?_localsOf (d : Document) (body : Node) (usage : Text) (offset : Nat) :
    (Findings.localsOf d.id body).find? (fun v => v.isVisibleAt d.id offset && v.isUsedBy usage) =
      if body.span.touches offset then
        (Findings.localsOf d.id body).find? fun v => v.isUsedBy usage
      else none := by
  have visible (v : Variable) (hv : v ∈ Findings.localsOf d.id body) :
      v.isVisibleAt d.id offset = body.span.touches offset := by
    rw [Variable.isVisibleAt_of_within (Findings.visibility_of_mem_localsOf hv), beq_self_eq_true,
      Bool.true_and]
  split
  · rename_i touches
    rw [← List.head?_filter, ← List.head?_filter]
    refine congrArg List.head? (List.filter_congr fun v hv => ?_)
    rw [visible v hv, touches, Bool.true_and]
  · rename_i apart
    exact List.find?_eq_none.2 fun v hv => by simp [visible v hv, apart]

theorem isLocalUse_congr (d : Document) (usage : Text) (offset : Nat) (v w : Variable)
    (same : v.identity = w.identity) :
    d.isLocalUse usage offset v = d.isLocalUse usage offset w := by
  obtain ⟨text, visibility⟩ := Prod.mk.inj same
  simp only [isLocalUse, Variable.isConfined, Variable.isVisibleAt, Variable.isUsedBy,
    Variable.pattern, text, visibility]

/-- The first local variable of a document that a usage refers to stands in a definition around the
offset. -/
theorem find?_vars (d : Document) (usage : Text) (offset : Nat) :
    d.vars.find? (d.isLocalUse usage offset) = d.findLocal? usage offset := by
  calc d.vars.find? (d.isLocalUse usage offset)
    _ = (d.sections.flatMap fun s => s.found.vars).find? (d.isLocalUse usage offset) :=
      Sequence.find?_distinctBy (d.isLocalUse_congr usage offset) _
    _ = ((d.sections.flatMap fun s => s.found.vars).filter Variable.isConfined).find?
          fun v => v.isVisibleAt d.id offset && v.isUsedBy usage := by
      rw [List.find?_filter]
      exact congrArg (List.find? · _) (funext fun v => by simp [isLocalUse])
    _ = d.bodies.findSome? fun body => if body.span.touches offset then
          (Findings.localsOf d.id body).find? fun v => v.isUsedBy usage else none := by
      rw [filter_vars_sections, List.find?_flatMap]
      simp only [find?_localsOf]
    _ = d.findLocal? usage offset := by
      rw [findLocal?]
      induction d.bodies with
      | nil => rfl
      | cons body bodies ih =>
        rw [List.findSome?_cons, List.filter_cons, ih]
        cases body.span.touches offset <;> simp [List.findSome?_cons]

/-- A local variable is found if a definition around the offset assigns one for the usage. -/
theorem exists_findLocal? {usage : Text} {offset : Nat} {body : Node} {v : Variable}
    (around : body ∈ d.bodies.filter fun body => body.span.touches offset)
    (hv : v ∈ Findings.localsOf d.id body) (used : v.isUsedBy usage = true) :
    ∃ w, d.findLocal? usage offset = some w := by
  refine Option.ne_none_iff_exists'.1 fun none => ?_
  exact List.find?_eq_none.1 (List.findSome?_eq_none_iff.1 none body around) v hv used

/-- A local variable that is found is assigned in a definition around the offset. -/
theorem exists_of_findLocal? {usage : Text} {offset : Nat} {v : Variable}
    (h : d.findLocal? usage offset = some v) :
    ∃ body ∈ d.bodies, body.span.touches offset = true ∧ v ∈ Findings.localsOf d.id body ∧
      v.isUsedBy usage = true := by
  obtain ⟨body, hbody, found⟩ := List.exists_of_findSome?_eq_some h
  obtain ⟨mem, touches⟩ := List.mem_filter.1 hbody
  have used := List.find?_some found
  exact ⟨body, mem, touches, List.mem_of_find?_eq_some found, used⟩

end Document

namespace Workspace

variable {ws : Workspace} {d : Document} {text usage : Text} {body other : Node} {offset : Nat}
  {v : Variable}

/-- A local variable in sight is one of the document itself. -/
theorem mem_vars_of_isLocalUse (known : ws.document? d.id = some d) (hv : v ∈ ws.visibleVariables d)
    (isLocal : d.isLocalUse usage offset v = true) : v ∈ d.vars := by
  simp only [Document.isLocalUse, Bool.and_eq_true] at isLocal
  obtain ⟨confined, visible, -⟩ := isLocal
  have notEverywhere (everywhere : v.visibility = .everywhere) : v ∈ d.vars := by
    rw [Findings.isConfined_of_everywhere everywhere] at confined
    cases confined
  rcases visibility_of_mem_visibleVariables hv with everywhere | own | ⟨e, found, imported⟩
  · exact notEverywhere everywhere
  · exact own
  · rcases e.visibility_of_mem_vars imported with everywhere | ⟨sec, -, body, -, within⟩
    · exact notEverywhere everywhere
    · -- What another document confines is visible only there.
      rw [Variable.isVisibleAt_of_within within, Bool.and_eq_true, beq_iff_eq] at visible
      rw [visible.1, known] at found
      exact Option.some.inj found ▸ imported

/-- Among all variables in sight the local ones are those of the document itself. -/
theorem find?_visibleVariables (known : ws.document? d.id = some d) (usage : Text) (offset : Nat) :
    (ws.visibleVariables d).find? (d.isLocalUse usage offset) = d.findLocal? usage offset := by
  have reserved : ws.builtInVariables.find? (d.isLocalUse usage offset) = none := by
    refine List.find?_eq_none.2 fun v hv => ?_
    have everywhere : v.visibility = .everywhere := by
      rw [builtInVariables, BuiltIn.vars] at hv
      split at hv
      · obtain ⟨entry, -, rfl⟩ := List.mem_map.1 hv
        rfl
      · cases hv
    simp [Document.isLocalUse, Findings.isConfined_of_everywhere everywhere]
  have inOrder : (ws.visibleVariables d).find? (d.isLocalUse usage offset) =
      (d.vars.find? (d.isLocalUse usage offset)).or
        (((ws.visibleImports d).flatMap ws.variablesOfTarget).find?
          (d.isLocalUse usage offset)) := by
    rw [visibleVariables, Variable.distinct,
      Sequence.find?_distinctBy (d.isLocalUse_congr usage offset), List.find?_append,
      List.find?_append, reserved, Option.none_or]
  rw [← d.find?_vars]
  cases own : d.vars.find? (d.isLocalUse usage offset) with
  | some v => rw [inOrder, own, Option.some_or]
  | none =>
    refine List.find?_eq_none.2 fun v hv isLocal => ?_
    exact List.find?_eq_none.1 own v (mem_vars_of_isLocalUse known hv isLocal) isLocal

/-- A usage is resolved to a local variable if there is one, else to one that is visible
everywhere. -/
theorem resolveVariable?_eq (known : ws.document? d.id = some d) (usage : Text) (offset : Nat) :
    (Scope.ofDocument ws d).resolveVariable? usage offset =
      (d.findLocal? usage offset).or ((ws.visibleVariables d).find? fun v =>
        v.isVisibleAt d.id offset && v.isUsedBy usage) := by
  rw [← find?_visibleVariables known, Scope.resolveVariable?, Scope.variablesAt, List.filter_filter,
    List.find?_filter, List.head?_filter]
  congr 2
  · funext v
    simp only [Document.isLocalUse, Scope.ofDocument, Bool.and_eq_true, Bool.decide_and,
      Bool.decide_eq_true]
    grind
  · funext v
    rw [Bool.and_comm]
    rfl

/-- A local variable to which a usage is resolved is the first one that is found. -/
theorem findLocal?_of_resolveVariable? (known : ws.document? d.id = some d)
    (resolved : (Scope.ofDocument ws d).resolveVariable? usage offset = some v)
    (confined : v.isConfined = true) : d.findLocal? usage offset = some v := by
  rw [resolveVariable?_eq known] at resolved
  cases found : d.findLocal? usage offset with
  | some w =>
    rw [found] at resolved
    exact resolved
  | none =>
    rw [found, Option.none_or] at resolved
    have holds := List.find?_some resolved
    rw [← find?_visibleVariables known, List.find?_eq_none] at found
    refine absurd ?_ (found v (List.mem_of_find?_eq_some resolved))
    rw [Document.isLocalUse, confined, Bool.true_and]
    exact holds

end Workspace

/-- Whether a variable is declared in some bytes of a document. -/
def Variable.StandsIn (v : Variable) (file : FileId) (outer : Span) : Prop :=
  ∃ place, v.location = .document file place ∧ outer.Covers place

/-- Whether variables of another definition reach a usage in a definition: the usage is where the
definition begins, and one that ends there assigns a variable to which the usage refers. -/
def Document.Leaks (d : Document) (body : Node) (usage : Text) (offset : Nat) : Prop :=
  offset = body.start ∧ ∃ other ∈ d.bodies, other.span.stop = body.start ∧
    ∃ v ∈ Findings.localsOf d.id other, v.isUsedBy usage = true

/-- What a definition assigns is declared in it and in no other definition. -/
theorem Findings.isDefinitionAround_of_mem_localsOf {text : Text} {file : FileId} {body : Node}
    {v : Variable} (mem : body ∈ (parse text).value.allNodes)
    (isDefinition : body.kind.isDefinition = true) (hv : v ∈ localsOf file body) :
    ∃ place, v.location = .document file place ∧ body.IsDefinitionAround text place := by
  obtain ⟨row, hrow, h⟩ := List.mem_flatMap.1 hv
  obtain ⟨cell, hcell, h⟩ := List.mem_flatMap.1 h
  obtain ⟨place, location, -, -, confined⟩ := isFaithful_of_mem_assignedBy (.self mem) isDefinition
    (List.mem_of_mem_filter hrow) (Node.mem_cells_of_cellsOf hcell) h
  refine ⟨place, location, ?_⟩
  rw [visibility_of_mem_localsOf hv] at confined
  obtain everywhere | ⟨around, isAround, within⟩ := confined
  · cases everywhere
  · have covers := isAround.covers
    rw [← (Visibility.within.inj within).2] at covers
    rwa [isAround.unique body mem isDefinition covers]

namespace Document

variable {d : Document} {text usage : Text} {body other : Node} {offset : Nat} {v : Variable}

section Inside

variable (parsed : d.source.tree = (parse text).value) (mem : body ∈ (parse text).value.allNodes)
  (isDefinition : body.kind.isDefinition = true) (lower : body.start ≤ offset)
  (upper : offset < body.span.stop)

include parsed mem isDefinition lower upper

/-- Around an offset of a definition there are the definition itself and, where it begins, those
that end there. -/
theorem eq_or_ends_of_touches (h : other ∈ d.bodies) (touches : other.span.touches offset = true) :
    other = body ∨ offset = body.start ∧ other.span.stop = body.start := by
  obtain ⟨otherMem, otherIs⟩ := mem_bodies parsed h
  rw [Span.touches_iff, Node.start_span] at touches
  rcases Node.eq_or_apart_of_isDefinition otherMem mem otherIs isDefinition with same | apart
  · exact .inl same
  · omega

/-- Where variables of another definition reach a usage, the first one found is one of them. -/
theorem exists_of_leaks (leaks : d.Leaks body usage offset) :
    ∃ other ∈ d.bodies, other.span.stop = body.start ∧ ∃ v ∈ Findings.localsOf d.id other,
      d.findLocal? usage offset = some v := by
  obtain ⟨here, before, hbefore, ends, w, hw, used⟩ := leaks
  have around : before ∈ d.bodies.filter fun body => body.span.touches offset := by
    refine List.mem_filter.2 ⟨hbefore, (Span.touches_iff _ _).2 ⟨?_, by omega⟩⟩
    rw [here, ← ends]
    exact Nat.le_add_right _ _
  obtain ⟨v, first⟩ := exists_findLocal? around hw used
  obtain ⟨earlier, source, later, split, hv, passed⟩ := List.findSome?_eq_some_iff.1 first
  have hsource : source ∈ d.bodies.filter fun body => body.span.touches offset := by
    rw [split]
    exact List.mem_append_right _ List.mem_cons_self
  obtain ⟨isRead, touches⟩ := List.mem_filter.1 hsource
  refine ⟨source, isRead, ?_, v, List.mem_of_find?_eq_some hv, first⟩
  rcases eq_or_ends_of_touches parsed mem isDefinition lower upper isRead touches with rfl | ended
  · -- The definition itself comes after the one that ends where it begins.
    rw [split] at around
    have ordered := split ▸ (pairwise_bodies parsed).filter fun n : Node =>
      n.span.touches offset
    rcases List.mem_append.1 around with early | late
    · exact absurd used (List.find?_eq_none.1 (passed before early) w hw)
    · rcases List.mem_cons.1 late with rfl | late
      · exact ends
      · have behind := List.rel_of_pairwise_cons (List.pairwise_append.1 ordered).2.1 late
        have size : before.start ≤ before.span.stop := Nat.le_add_right _ _
        omega
  · exact ended.2

/-- Where no variable of another definition reaches a usage, only those of the definition do. -/
theorem mem_localsOf_of_not_leaks (tight : ¬ d.Leaks body usage offset)
    (found : d.findLocal? usage offset = some v) :
    body ∈ d.bodies ∧ v ∈ Findings.localsOf d.id body := by
  obtain ⟨source, isRead, touches, hv, used⟩ := exists_of_findLocal? found
  rcases eq_or_ends_of_touches parsed mem isDefinition lower upper isRead touches with rfl | ended
  · exact ⟨isRead, hv⟩
  · exact absurd ⟨ended.1, source, isRead, ended.2, v, hv, used⟩ tight

/-- Where a definition begins, what an earlier one assigns is not declared in it. -/
theorem not_standsIn_of_ends (h : other ∈ d.bodies) (ends : other.span.stop = body.start)
    (hv : v ∈ Findings.localsOf d.id other) : ¬ v.StandsIn d.id body.span := by
  rintro ⟨place, location, covers⟩
  obtain ⟨otherMem, otherIs⟩ := mem_bodies parsed h
  obtain ⟨place', location', around⟩ :=
    Findings.isDefinitionAround_of_mem_localsOf otherMem otherIs hv
  rw [location] at location'
  cases location'
  have same := around.unique body mem isDefinition covers
  rw [same] at upper
  omega

end Inside

end Document

namespace Workspace

variable {ws : Workspace} {d : Document} {text : Text} {body : Node} {offset : Nat}

/-- In a definition a usage is resolved to a variable that another definition confines to itself
only where the definition begins and the other one ends. Unless this happens or the definition is
not read, what the definition assigns itself comes before everything else. -/
theorem resolveVariable?_in_definition (known : ws.document? d.id = some d)
    (parsed : d.source.tree = (parse text).value) (mem : body ∈ (parse text).value.allNodes)
    (isDefinition : body.kind.isDefinition = true) (lower : body.start ≤ offset)
    (upper : offset < body.span.stop) (usage : Text) :
    ((∃ v, (Scope.ofDocument ws d).resolveVariable? usage offset = some v ∧
        v.isConfined = true ∧ ¬ v.StandsIn d.id body.span) ↔ d.Leaks body usage offset) ∧
      ((∃ v ∈ Findings.localsOf d.id body, v.isUsedBy usage = true) →
        ((∃ v ∈ Findings.localsOf d.id body,
            (Scope.ofDocument ws d).resolveVariable? usage offset = some v) ↔
          body ∈ d.bodies ∧ ¬ d.Leaks body usage offset)) := by
  have standsIn {v : Variable} (hv : v ∈ Findings.localsOf d.id body) :
      v.StandsIn d.id body.span := by
    obtain ⟨place, location, around⟩ :=
      Findings.isDefinitionAround_of_mem_localsOf mem isDefinition hv
    exact ⟨place, location, around.covers⟩
  have isConfined {owner : Node} {v : Variable} (hv : v ∈ Findings.localsOf d.id owner) :
      v.isConfined = true :=
    Findings.isConfined_of_within (Findings.visibility_of_mem_localsOf hv)
  have resolves {v : Variable} (found : d.findLocal? usage offset = some v) :
      (Scope.ofDocument ws d).resolveVariable? usage offset = some v := by
    rw [resolveVariable?_eq known, found, Option.some_or]
  by_cases leaks : d.Leaks body usage offset
  · obtain ⟨other, isRead, ends, v, hv, found⟩ :=
      Document.exists_of_leaks parsed mem isDefinition lower upper leaks
    have outside := Document.not_standsIn_of_ends parsed mem isDefinition lower upper isRead ends hv
    refine ⟨⟨fun _ => leaks, fun _ => ⟨v, resolves found, isConfined hv, outside⟩⟩, fun _ => ?_⟩
    refine ⟨fun ⟨w, hw, resolved⟩ => ?_, fun tight => absurd leaks tight.2⟩
    rw [resolves found, Option.some.injEq] at resolved
    exact absurd (standsIn hw) (resolved ▸ outside)
  · have own {v : Variable} (found : d.findLocal? usage offset = some v) :=
      Document.mem_localsOf_of_not_leaks parsed mem isDefinition lower upper leaks found
    refine ⟨⟨?_, fun h => absurd h leaks⟩, fun ⟨w, hw, used⟩ => ⟨?_, fun ⟨isRead, _⟩ => ?_⟩⟩
    · rintro ⟨v, resolved, confined, outside⟩
      have isOwn := (own (findLocal?_of_resolveVariable? known resolved confined)).2
      exact absurd (standsIn isOwn) outside
    · rintro ⟨v, hv, resolved⟩
      exact ⟨(own (findLocal?_of_resolveVariable? known resolved (isConfined hv))).1, leaks⟩
    · have touches : body.span.touches offset = true :=
        (Span.touches_iff _ _).2 ⟨lower, Nat.le_of_lt upper⟩
      obtain ⟨v, found⟩ := Document.exists_findLocal? (List.mem_filter.2 ⟨isRead, touches⟩) hw used
      exact ⟨v, (own found).2, resolves found⟩

/-- A usage at the start of a test case is resolved to a variable of the test case before. -/
theorem resolveVariable?_in_definition_start :
    let text : Text := "*** Tasks ***\nA\n    ${x}=    Get\nB\n    Log    ${x}\n".toList
    let d : Document := .ofSource ⟨0⟩ (.ofText text)
    let ws : Workspace := ⟨[(⟨"/a.robot".toList⟩, ⟨0⟩)], [d], 1, .empty, {}⟩
    ∃ body ∈ (parse text).value.allNodes, body.kind.isDefinition = true ∧ body.start = 33 ∧
      33 < body.span.stop ∧
      ∃ v, (Scope.ofDocument ws d).resolveVariable? "${x}".toList 33 = some v ∧
        v.isConfined = true ∧ ¬ v.StandsIn ⟨0⟩ body.span := by
  intro text d ws
  have second : ((parse text).value.allNodes.find? fun n => n.start == 33).map
      (fun n => (n.kind.isDefinition, n.start, n.span.stop)) = some (true, 33, 51) := by
    decide +kernel
  have first : (d.bodies.find? fun n => n.start == 14).map
      (fun n => (n.span.stop,
        (Findings.localsOf ⟨0⟩ n).any fun v => v.isUsedBy "${x}".toList)) = some (33, true) := by
    decide +kernel
  obtain ⟨body, found, fields⟩ := Option.map_eq_some_iff.1 second
  obtain ⟨isDefinition, start, stop⟩ : body.kind.isDefinition = true ∧ body.start = 33 ∧
    body.span.stop = 51 := by simpa using fields
  obtain ⟨other, foundOther, fields⟩ := Option.map_eq_some_iff.1 first
  obtain ⟨ends, v, hv, used⟩ : other.span.stop = 33 ∧
    ∃ v ∈ Findings.localsOf ⟨0⟩ other, v.isUsedBy "${x}".toList = true := by simpa using fields
  have mem := List.mem_of_find?_eq_some found
  have later : 33 < body.span.stop := by omega
  have leaks : d.Leaks body "${x}".toList 33 :=
    ⟨start.symm, other, List.mem_of_find?_eq_some foundOther, ends.trans start.symm, v, hv, used⟩
  have known : ws.document? d.id = some d := rfl
  exact ⟨body, mem, isDefinition, start, later,
    (resolveVariable?_in_definition known rfl mem isDefinition (by omega) later _).1.2 leaks⟩

end Workspace

end RobotAnalysis
