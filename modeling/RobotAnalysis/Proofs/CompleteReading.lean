import Mathlib.Data.List.Forall2
import RobotAnalysis.Document
import RobotAnalysis.Proofs.HeadingKinds
import RobotAnalysis.Proofs.SymbolReading

/-!
# When the symbol model reads a whole document

A document is read completely if every call, import, test case and keyword of its tree is found once
and in order, and every section is read as the kind that parsing took it for. The only thing that
stands in the way is a comment on a heading: the kind read off the whole line is then unknown, and
what stands in the section is dropped.
-/
namespace RobotAnalysis

namespace Findings

/-- Every kind of finding is collected in order. -/
theorem flatMap_concat {β : Type} {part : Findings → List β} (nothing : part none = [])
    (both : ∀ f g : Findings, part (f ++ g) = part f ++ part g) (fs : List Findings) :
    part (concat fs) = fs.flatMap part := by
  induction fs with
  | nil => exact nothing
  | cons f fs ih => rw [concat_cons, both, ih, List.flatMap_cons]

theorem part_concat_map {α β : Type} (part : Findings → List β) (nothing : part none = [])
    (both : ∀ f g : Findings, part (f ++ g) = part f ++ part g) (f : α → Findings) (l : List α) :
    part (concat (l.map f)) = l.flatMap fun a => part (f a) := by
  rw [flatMap_concat nothing both, List.flatMap_map]

end Findings

section Lists

variable {α β : Type} {l : List α} {f : α → List β} {p : α → Bool}

theorem flatMap_eq_filterMap_filter {g : α → Option β}
    (chosen : ∀ a ∈ l, p a = true → f a = (g a).toList)
    (other : ∀ a ∈ l, p a = false → f a = []) : l.flatMap f = (l.filter p).filterMap g := by
  induction l with
  | nil => rfl
  | cons a l ih =>
    have rest := ih (fun b hb => chosen b (List.mem_cons_of_mem _ hb))
      (fun b hb => other b (List.mem_cons_of_mem _ hb))
    rw [List.flatMap_cons, rest]
    cases h : p a with
    | true =>
      rw [List.filter_cons_of_pos h, chosen a List.mem_cons_self h]
      cases found : g a with
      | none => rw [List.filterMap_cons_none found]; rfl
      | some b => rw [List.filterMap_cons_some found]; rfl
    | false =>
      rw [List.filter_cons_of_neg (by simp [h]), other a List.mem_cons_self h, List.nil_append]

theorem forall₂_filter_flatMap {R : α → β → Prop}
    (chosen : ∀ a ∈ l, p a = true → ∃ b, f a = [b] ∧ R a b)
    (other : ∀ a ∈ l, p a = false → f a = []) : List.Forall₂ R (l.filter p) (l.flatMap f) := by
  induction l with
  | nil => exact .nil
  | cons a l ih =>
    have rest := ih (fun b hb => chosen b (List.mem_cons_of_mem _ hb))
      (fun b hb => other b (List.mem_cons_of_mem _ hb))
    rw [List.flatMap_cons]
    cases h : p a with
    | true =>
      obtain ⟨b, found, related⟩ := chosen a List.mem_cons_self h
      rw [List.filter_cons_of_pos h, found]
      exact .cons related rest
    | false =>
      rw [List.filter_cons_of_neg (by simp [h]), other a List.mem_cons_self h]
      exact rest

theorem map_eq_map_iff_of_forall₂ {γ : Type} {m : List β} {P : α → Prop} {g : α → γ} {h : β → γ}
    (paired : List.Forall₂ (fun a b => h b = g a ↔ P a) l m) :
    m.map h = l.map g ↔ ∀ a ∈ l, P a := by
  induction paired with
  | nil => simp
  | cons same _ ih =>
    rw [List.map_cons, List.map_cons, List.cons.injEq, List.forall_mem_cons, same, ih]

end Lists

/-- The nodes of some kind in the order of the text, wherever they stand. -/
def Tree.allNodesOf (t : Tree) (kind : NodeKind) : List Node :=
  t.allNodes.filter fun n => n.kind == kind

/-- An import node and what it imports. -/
structure Node.Imports (n : Node) (d : ImportDeclaration) : Prop where
  kind : ∃ name, n.firstCell? .settingName = some name ∧
    ImportKind.ofSetting? name.text = some d.kind
  target : ∃ argument, n.firstCell? .argument = some argument ∧ argument.text = d.target ∧
    argument.span = d.span
  alias_eq : d.alias? = Findings.aliasOf? (n.cellsOf .argument)

/-- What it means that the symbol model of a text is a complete reading of its tree. -/
structure ReadsCompletely (file : FileId) (text : Text) (sections : List SectionModel) : Prop where
  /-- Every section is read as the kind that parsing took it for. -/
  kinds : sections.map SectionModel.kind = (SectionLines.ofText text).map SectionLines.kind
  calls : SectionModel.calls sections =
    ((parse text).value.allNodesOf (.cell .keywordCall)).map fun n => ⟨n.text, n.span⟩
  testCases : SectionModel.testCases sections =
    ((parse text).value.allNodesOf .testCase).filterMap fun n =>
      (n.firstCell? .definitionName).map fun name => ⟨name.text, name.span, n.span⟩
  keywords : (sections.flatMap fun s => s.found.keywords) =
    ((parse text).value.allNodesOf .userKeyword).filterMap fun n =>
      (n.firstCell? .definitionName).map fun name =>
        .declare none name.text
          (!n.declaredArguments.isEmpty || !(VariableToken.all name.text).isEmpty)
          (.document file name.span)
  imports : List.Forall₂ Node.Imports
    (((parse text).value.allNodesOf .importing).filter fun n => (n.firstCell? .argument).isSome)
    (SectionModel.imports sections)

namespace Node

/-- The kind of a section as it is read off the line of its heading. -/
theorem headingKind_of_section {n : Node} {s : SectionLines} (h : n.tree = s.parse.value) :
    n.headingKind = HeadingKind.ofText (Token.textOf s.heading.tokens).trimEnd := by
  obtain ⟨-, children⟩ := children_of_tree (h.trans s.value_parse)
  have heading : n.heading? = some ⟨n.start, .heading, s.heading.bare⟩ := by
    rw [heading?, nodesOf, nodes, children]
    rfl
  rw [headingKind, heading]
  simp only [headingText, text, Line.leavesOf_bare]

end Node

theorem sections_nodesFrom (start : Nat) (ss : List SectionLines) :
    List.Forall₂ (fun s n => n.tree = s.parse.value) ss
      ((Tree.nodesFrom start (ss.map fun s => s.parse.value)).filter
        fun n => n.kind == .headed) := by
  induction ss generalizing start with
  | nil => exact .nil
  | cons s ss ih =>
    rw [List.map_cons, s.value_parse, Tree.nodesFrom, List.filter_cons_of_pos (by rfl)]
    exact .cons s.value_parse.symm (ih _)

/-- The sections of a parsed tree are those of the text. -/
theorem sections_parse (text : Text) :
    List.Forall₂ (fun s n => s.heading.IsProper ∧ n.tree = s.parse.value) (SectionLines.ofText text)
      (parse text).value.root.sections := by
  refine (List.forall₂_and_left _ _).2 ⟨fun s mem => ?_, ?_⟩
  · exact Line.isProper_of_mem_linesOf (SectionLines.heading_mem_linesOf mem)
  · rw [value_parse, Tree.root, Node.sections, Node.nodesOf, Node.nodes, preambleTrees]
    split
    · exact sections_nodesFrom 0 _
    · exact sections_nodesFrom _ _

/-- The two readings of a heading agree unless it names a kind before a comment. -/
theorem Node.headingKind_eq_iff {n : Node} {s : SectionLines} (proper : s.heading.IsProper)
    (tree : n.tree = s.parse.value) :
    n.headingKind = s.kind ↔ (s.heading.HasComment → s.kind = .unknown) := by
  rw [headingKind_of_section tree]
  by_cases comment : s.heading.HasComment
  · rw [SectionLines.ofText_heading_of_comment proper comment]
    exact ⟨fun same _ => same.symm, fun unknown => (unknown comment).symm⟩
  · rw [SectionLines.ofText_heading_of_noComment proper comment]
    exact ⟨fun _ has => absurd has comment, fun _ => rfl⟩

variable {file : FileId} {text : Text}

/-- When the model reads the kind of every section as parsing did. -/
theorem kinds_eq_iff :
    (SectionModel.ofTree file (parse text).value).map SectionModel.kind =
        (SectionLines.ofText text).map SectionLines.kind ↔
      ∀ s ∈ SectionLines.ofText text, s.heading.HasComment → s.kind = .unknown := by
  rw [SectionModel.ofTree, List.map_map]
  refine map_eq_map_iff_of_forall₂ ((sections_parse text).imp fun s n paired => ?_)
  exact Node.headingKind_eq_iff paired.1 paired.2

/-- Outside its sections a document reports nothing. -/
theorem concat_reported (text : Text) :
    Findings.concat ((parse text).value.allNodes.map (Node.reported file)) =
      Findings.concat ((parse text).value.root.sections.map (Node.reports file)) := by
  have root : (parse text).value.root.reported file = .none := by
    rw [value_parse]
    rfl
  have whole : Findings.concat ((parse text).value.allNodes.map (Node.reported file)) =
      (parse text).value.root.reports file := by
    rw [allNodes_parse, Node.reports]
  rw [whole, Node.reports_eq, root, Findings.none_append]
  refine Findings.concat_map_filter fun n hn noSection => ?_
  rcases mem_nodes_root hn with ⟨preamble, gaps⟩ | ⟨s, -, tree⟩
  · refine Node.reports_of_gaps gaps ?_
    rw [Node.reported, preamble]
  · simp [(Node.children_of_tree (tree.trans s.value_parse)).1] at noSection

/-- With the kinds of all sections read as parsing did, what the model finds is what the nodes of
the tree report. -/
theorem concat_found
    (kinds : ∀ s ∈ SectionLines.ofText text, s.heading.HasComment → s.kind = .unknown) :
    (Findings.concat
        ((SectionModel.ofTree file (parse text).value).map SectionModel.found)).symbols =
      Findings.concat ((parse text).value.allNodes.map (Node.reported file)) := by
  rw [concat_reported, SectionModel.ofTree, List.map_map, Findings.symbols_concat_map]
  refine congrArg _ (List.map_congr_left fun n hn => ?_)
  obtain ⟨mem, headed⟩ := List.mem_filter.1 hn
  rcases mem_nodes_root mem with ⟨preamble, -⟩ | ⟨s, mem, tree⟩
  · simp [preamble] at headed
  · have proper := Line.isProper_of_mem_linesOf (SectionLines.heading_mem_linesOf mem)
    have kind := (Node.headingKind_eq_iff proper tree).2 (kinds s mem)
    exact (Node.reports_of_section tree kind).symm

/-- One kind of finding in all sections is what the nodes of the tree report of it. -/
theorem flatMap_found {β : Type} {part : Findings → List β} (nothing : part .none = [])
    (both : ∀ f g : Findings, part (f ++ g) = part f ++ part g)
    (symbol : ∀ f : Findings, part f.symbols = part f)
    (kinds : ∀ s ∈ SectionLines.ofText text, s.heading.HasComment → s.kind = .unknown) :
    ((SectionModel.ofTree file (parse text).value).flatMap fun s => part s.found) =
      (parse text).value.allNodes.flatMap fun n => part (n.reported file) := by
  have same := congrArg part (@concat_found file text kinds)
  rw [symbol, Findings.flatMap_concat nothing both, Findings.flatMap_concat nothing both] at same
  simpa only [List.flatMap_map] using same

namespace Node

/-- An import node comes from a row that names an import setting first. -/
theorem exists_settingName_of_importing {n : Node} (mem : n ∈ (parse text).value.allNodes)
    (kind : n.kind = .importing) :
    ∃ name imported, n.firstCell? .settingName = some name ∧
      ImportKind.ofSetting? name.text = some imported := by
  rcases form_of_mem_allNodes mem with frame | ⟨other, d, definition, tree⟩ |
    ⟨form, used, r, filled, tree⟩ | piece
  · simp [kind] at frame
  · obtain ⟨_, node, -⟩ := Definition.exists_parse other d
    rw [(children_of_tree (tree.trans node)).1.symm.trans kind] at definition
    cases definition
  · obtain ⟨formed, children⟩ := children_of_tree tree
    rw [kind] at formed
    cases used with
    | ofSetting =>
      rcases RowForm.ofSetting_cases r with ⟨-, shape, named⟩ | setting | ⟨other, -⟩
      · obtain ⟨imported, isImport⟩ := Option.isSome_iff_exists.1 named
        have first := Row.head?_importing filled
        rw [shape] at children
        rw [← children, ← cells_texts, List.head?_map, Option.map_eq_some_iff] at first
        obtain ⟨name, first, same⟩ := first
        obtain ⟨rest, cells⟩ := List.head?_eq_some_iff.1 first
        simp only [Prod.mk.injEq] at same
        refine ⟨name, imported, ?_, ?_⟩
        · rw [firstCell?, cellsOf, cells, List.filter_cons_of_pos (by simp [same.1])]
          rfl
        · rw [same.2, isImport]
      · simp [setting] at formed
      · simp [other] at formed
    | ofVariable =>
      rcases (RowForm.ofVariable_cases r).1 with row | other
      · simp [row] at formed
      · simp [other] at formed
    | ofBody =>
      rcases RowForm.ofBody_cases r with ⟨other, -⟩ | body
      · simp [other] at formed
      · rw [← formed] at body
        cases body
    | plain => cases formed
  · rcases kind_of_isPiece piece with comment | ⟨_, cell⟩
    · simp [kind] at comment
    · simp [kind] at cell

/-- What a node of each kind reports. -/
theorem reported_cases (file : FileId) (n : Node) :
    (n.kind = .cell .keywordCall ∧
        n.reported file = { Findings.none with calls := [⟨n.text, n.span⟩] }) ∨
      (n.kind = .importing ∧
        n.reported file = { Findings.none with imports := (Findings.ofImport n).imports }) ∨
      (n.kind = .testCase ∧ n.reported file = { Findings.none with
        testCases := ((n.firstCell? .definitionName).map fun name =>
          ⟨name.text, name.span, n.span⟩).toList }) ∨
      (n.kind = .userKeyword ∧ n.reported file = { Findings.none with
        keywords := ((n.firstCell? .definitionName).map fun name =>
          Keyword.declare none name.text
            (!n.declaredArguments.isEmpty || !(VariableToken.all name.text).isEmpty)
            (.document file name.span)).toList }) ∨
      (n.kind ≠ .cell .keywordCall ∧ n.kind ≠ .importing ∧ n.kind ≠ .testCase ∧
        n.kind ≠ .userKeyword ∧ n.reported file = .none) := by
  rw [reported]
  split
  · rename_i kind
    exact .inl ⟨kind, rfl⟩
  · rename_i kind
    exact .inr (.inl ⟨kind, rfl⟩)
  · rename_i kind
    refine .inr (.inr (.inl ⟨kind, ?_⟩))
    cases n.firstCell? .definitionName with
    | none => rfl
    | some name =>
      rw [Option.toList_some, List.map_cons, Findings.ofName, if_pos kind]
      exact Findings.append_none _
  · rename_i kind
    refine .inr (.inr (.inr (.inl ⟨kind, ?_⟩)))
    cases n.firstCell? .definitionName with
    | none => rfl
    | some name =>
      rw [Option.toList_some, List.map_cons, Findings.ofName, if_neg (by simp [kind])]
      exact Findings.append_none _
  · rename_i noCall noImport noTestCase noKeyword
    exact .inr (.inr (.inr (.inr ⟨noCall, noImport, noTestCase, noKeyword, rfl⟩)))

/-- An import node that has an argument imports it, and one that has none imports nothing. -/
theorem imports_ofImport {n : Node} (mem : n ∈ (parse text).value.allNodes)
    (kind : n.kind = .importing) :
    ((n.firstCell? .argument).isSome = true →
        ∃ d, (Findings.ofImport n).imports = [d] ∧ n.Imports d) ∧
      ((n.firstCell? .argument).isSome = false → (Findings.ofImport n).imports = []) := by
  obtain ⟨name, imported, first, named⟩ := exists_settingName_of_importing mem kind
  have argument : (n.cellsOf .argument).head? = n.firstCell? .argument := rfl
  simp only [Findings.ofImport, first, Option.bind_some, named, argument]
  cases target : n.firstCell? .argument with
  | none => exact ⟨fun found => (by cases found), fun _ => rfl⟩
  | some c =>
    refine ⟨fun _ => ⟨_, rfl, ?_⟩, fun missing => by cases missing⟩
    exact ⟨⟨name, first, named⟩, ⟨c, target, rfl, rfl⟩, rfl⟩

end Node

/-- Where only nodes of one kind report some finding, the model finds it at the nodes of that
kind. -/
theorem flatMap_reported {β : Type} {part : Findings → List β} (kind : NodeKind)
    {chosen : Node → Option β} (nothing : part .none = [])
    (both : ∀ f g : Findings, part (f ++ g) = part f ++ part g)
    (symbol : ∀ f : Findings, part f.symbols = part f)
    (reports : ∀ n : Node, part (n.reported file) =
      if n.kind = kind then (chosen n).toList else [])
    (kinds : ∀ s ∈ SectionLines.ofText text, s.heading.HasComment → s.kind = .unknown) :
    ((SectionModel.ofTree file (parse text).value).flatMap fun s => part s.found) =
      ((parse text).value.allNodesOf kind).filterMap chosen := by
  rw [flatMap_found nothing both symbol kinds]
  refine flatMap_eq_filterMap_filter (fun n _ same => ?_) fun n _ other => ?_
  · rw [reports, if_pos (beq_iff_eq.1 same)]
  · rw [reports, if_neg (by simpa using other)]

/-- The symbol model of a text is a complete reading of its tree exactly when no heading that names
a kind of section has a comment. -/
theorem readsCompletely_iff (file : FileId) (text : Text) :
    ReadsCompletely file text (Document.ofSource file (.ofText text)).sections ↔
      ∀ s ∈ SectionLines.ofText text, s.heading.HasComment → s.kind = .unknown := by
  change ReadsCompletely file text (SectionModel.ofTree file (parse text).value) ↔ _
  refine ⟨fun complete => kinds_eq_iff.1 complete.kinds, fun kinds => ?_⟩
  constructor
  case kinds => exact kinds_eq_iff.2 kinds
  case calls =>
    rw [← List.filterMap_eq_map]
    refine flatMap_reported _ rfl (fun _ _ => rfl) (fun _ => rfl) (fun n => ?_) kinds
    rcases n.reported_cases file with ⟨k, r⟩ | ⟨k, r⟩ | ⟨k, r⟩ | ⟨k, r⟩ | ⟨k, -, -, -, r⟩ <;>
      simp [k, r, Findings.none]
  case testCases =>
    refine flatMap_reported _ rfl (fun _ _ => rfl) (fun _ => rfl) (fun n => ?_) kinds
    rcases n.reported_cases file with ⟨k, r⟩ | ⟨k, r⟩ | ⟨k, r⟩ | ⟨k, r⟩ | ⟨-, -, k, -, r⟩ <;>
      simp [k, r, Findings.none]
  case keywords =>
    refine flatMap_reported _ rfl (fun _ _ => rfl) (fun _ => rfl) (fun n => ?_) kinds
    rcases n.reported_cases file with ⟨k, r⟩ | ⟨k, r⟩ | ⟨k, r⟩ | ⟨k, r⟩ | ⟨-, -, -, k, r⟩ <;>
      simp [k, r, Findings.none]
  case imports =>
    have reports (n : Node) : (n.reported file).imports =
        if n.kind = .importing then (Findings.ofImport n).imports else [] := by
      rcases n.reported_cases file with ⟨k, r⟩ | ⟨k, r⟩ | ⟨k, r⟩ | ⟨k, r⟩ | ⟨-, k, -, -, r⟩ <;>
        simp [k, r, Findings.none]
    rw [SectionModel.imports, flatMap_found rfl (fun _ _ => rfl) (fun _ => rfl) kinds,
      Tree.allNodesOf, List.filter_filter]
    refine forall₂_filter_flatMap (fun n mem chosen => ?_) fun n mem other => ?_
    · obtain ⟨hasArgument, importing⟩ := Bool.and_eq_true_iff.1 chosen
      have kind : n.kind = .importing := beq_iff_eq.1 importing
      rw [reports, if_pos kind]
      exact (Node.imports_ofImport mem kind).1 hasArgument
    · rw [reports]
      by_cases kind : n.kind = .importing
      · rw [if_pos kind]
        exact (Node.imports_ofImport mem kind).2 (by simpa [kind] using other)
      · rw [if_neg kind]

end RobotAnalysis
