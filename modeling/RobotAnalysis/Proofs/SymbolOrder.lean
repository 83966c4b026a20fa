import Mathlib.Data.List.Flatten
import Mathlib.Data.List.Nodup
import RobotAnalysis.Proofs.CellCursor

/-!
# The order of keywords and calls

The keywords and the calls of a document come from cells of its tree, each from one of its own and
in the order of the text. Cells of a parsed tree do not touch, so neither do the places of its calls
or those of its keywords.
-/
namespace RobotAnalysis

namespace Tree

mutual

/-- A node comes before those inside it and before those behind it. -/
theorem pairwise_nodesIn (start : Nat) : ∀ t : Tree,
    (nodesIn start t).Pairwise fun n m => m ∈ n.below ∨ n.span.stop ≤ m.start
  | .leaf _ => .nil
  | .node _ children =>
    List.pairwise_cons.2 ⟨fun _ inside => .inl inside, pairwise_nodesInAll start children⟩

theorem pairwise_nodesInAll (start : Nat) : ∀ ts : List Tree,
    (nodesInAll start ts).Pairwise fun n m => m ∈ n.below ∨ n.span.stop ≤ m.start
  | [] => .nil
  | t :: ts => by
    refine List.pairwise_append.2 ⟨pairwise_nodesIn start t, pairwise_nodesInAll _ ts, ?_⟩
    intro n hn m hm
    have first := within_of_mem_nodesIn start t n hn
    have second := within_of_mem_nodesInAll (start + t.size) ts m hm
    exact .inr (Nat.le_trans first.2 second.1)

end

/-- The cells of a document in the order of the text. -/
def allCells (t : Tree) : List Cell := t.allNodes.filterMap Node.cell?

end Tree

namespace Node

variable {n : Node} {role : CellKind}

/-- The text and the place of a node that is a cell with some role. -/
def mention? (role : CellKind) (n : Node) : Option Mention :=
  (n.cell?.filter fun c => c.kind == role).map fun c => ⟨c.text, c.span⟩

/-- The place of a node that is the name of a definition. -/
def nameSpan? (n : Node) : Option Span := (n.mention? .definitionName).map Mention.span

theorem mention?_eq_some_iff {m : Mention} :
    n.mention? role = some m ↔ n.cell? = some ⟨role, m.text, m.span⟩ := by
  rw [mention?]
  cases cell : n.cell? with
  | none => simp
  | some c =>
    obtain ⟨kind, text, span⟩ := c
    obtain ⟨text', span'⟩ := m
    by_cases same : kind = role <;> simp [Option.filter, same]

theorem nodes_sublist_below (n : Node) : n.nodes.Sublist n.below := by
  rw [below_eq]
  conv => arg 1; rw [← List.flatMap_singleton' n.nodes]
  exact List.Sublist.flatMap_right _ fun m _ => (List.nil_sublist _).cons_cons m

/-- The first cell with some role is a cell inside the node. -/
theorem firstCell?_sublist_below (n : Node) (role : CellKind) :
    ((n.firstCell? role).toList.map fun c => Mention.mk c.text c.span).Sublist
      (n.below.filterMap (mention? role)) := by
  have cells : n.nodes.filterMap (mention? role) =
      (n.cellsOf role).map fun c => Mention.mk c.text c.span := by
    rw [cellsOf, cells, ← List.filterMap_eq_filter, List.filterMap_filterMap, List.map_filterMap]
    refine List.filterMap_congr fun m _ => ?_
    cases cell : m.cell? with
    | none => simp [mention?, cell]
    | some c => simp [mention?, cell, Option.filter, Option.guard]
  refine List.Sublist.trans ?_ ((nodes_sublist_below n).filterMap _)
  rw [cells, firstCell?]
  refine List.Sublist.map _ ?_
  cases n.cellsOf role with
  | nil => exact List.nil_sublist _
  | cons c cells => exact (List.nil_sublist cells).cons_cons c

/-- What is found at some children is found inside the node. -/
theorem flatMap_filter_sublist_below {β : Type} {f : Node → List β} {g : Node → Option β}
    {p : Node → Bool} (h : ∀ m, (f m).Sublist (m.below.filterMap g)) (n : Node) :
    ((n.nodes.filter p).flatMap f).Sublist (n.below.filterMap g) := by
  have inside (m : Node) : (f m).Sublist ((m :: m.below).filterMap g) :=
    (h m).trans ((List.sublist_cons_self m m.below).filterMap g)
  rw [below_eq, List.filterMap_flatMap]
  exact (List.filter_sublist.flatMap f).trans (List.Sublist.flatMap_right _ fun m _ => inside m)

end Node

namespace Findings

variable {file : FileId}

/-- What finds nothing of some kind finds nothing of it in a row. -/
theorem part_concat_map_eq_nil {α β : Type} (part : Findings → List β)
    (nothing : part none = []) (both : ∀ f g : Findings, part (f ++ g) = part f ++ part g)
    {f : α → Findings} {l : List α} (h : ∀ a, part (f a) = []) : part (concat (l.map f)) = [] := by
  rw [part_concat_map part nothing both]
  exact List.flatMap_eq_nil_iff.2 fun a _ => h a

/-- The calls of a setting are among its cells. -/
theorem calls_ofSetting_sublist (n : Node) :
    (ofSetting n).calls.Sublist (n.below.filterMap (Node.mention? .keywordCall)) := by
  have calls := congrArg Findings.calls (symbols_ofSetting n)
  change (ofSetting n).calls = _ at calls
  rw [calls]
  exact n.firstCell?_sublist_below .keywordCall

/-- The calls of a row of a body are among its cells. -/
theorem calls_ofBodyRow_sublist (scope : VariableScope) (body : Span) (n : Node) :
    (ofBodyRow file scope body n).calls.Sublist
      (n.below.filterMap (Node.mention? .keywordCall)) := by
  have calls := congrArg Findings.calls (symbols_ofBodyRow file scope body n)
  change (ofBodyRow file scope body n).calls = _ at calls
  rw [calls]
  exact n.firstCell?_sublist_below .keywordCall

theorem calls_ofDefinition_sublist (n : Node) :
    (ofDefinition file n).calls.Sublist (n.below.filterMap (Node.mention? .keywordCall)) := by
  have name (c : Cell) : (ofName file n c).calls = [] := by
    rw [ofName]
    split <;> rfl
  change ((concat _).calls ++ (concat _).calls).Sublist _
  rw [part_concat_map_eq_nil calls rfl (fun _ _ => rfl) name,
    part_concat_map calls rfl (fun _ _ => rfl), List.nil_append]
  exact Node.flatMap_filter_sublist_below (calls_ofBodyRow_sublist _ _) n

/-- The calls that a section finds are among its cells, in their order. -/
theorem calls_ofSection_sublist (sec : Node) :
    (ofSection file sec).calls.Sublist (sec.below.filterMap (Node.mention? .keywordCall)) := by
  have definitions : (concat (sec.definitions.map (ofDefinition file))).calls.Sublist
      (sec.below.filterMap (Node.mention? .keywordCall)) := by
    rw [part_concat_map calls rfl (fun _ _ => rfl)]
    exact Node.flatMap_filter_sublist_below calls_ofDefinition_sublist sec
  have imports (row : Node) : (ofImport row).calls = [] := by
    rw [ofImport]
    split <;> rfl
  have table (row : Node) : (ofVariableRow file row).calls = [] := rfl
  rw [ofSection]
  split
  · change ((concat _).calls ++ (concat _).calls).Sublist _
    rw [part_concat_map_eq_nil calls rfl (fun _ _ => rfl) imports,
      part_concat_map calls rfl (fun _ _ => rfl), List.nil_append]
    exact Node.flatMap_filter_sublist_below calls_ofSetting_sublist sec
  · rw [part_concat_map_eq_nil calls rfl (fun _ _ => rfl) table]
    exact List.nil_sublist _
  iterate 3 exact definitions
  iterate 2 exact List.nil_sublist _

/-- The places of the keywords that are found. -/
def keywordSpans (f : Findings) : List Span := f.keywords.filterMap fun k => k.location.span?

theorem keywordSpans_append (f g : Findings) :
    (f ++ g).keywordSpans = f.keywordSpans ++ g.keywordSpans :=
  List.filterMap_append

/-- A user keyword is declared in its name. -/
theorem keywordSpans_ofDefinition_sublist (n : Node) :
    (ofDefinition file n).keywordSpans.Sublist (n.below.filterMap Node.nameSpan?) := by
  have rows (scope : VariableScope) (row : Node) :
      (ofBodyRow file scope n.span row).keywordSpans = [] := by
    have keywords := congrArg Findings.keywords (symbols_ofBodyRow file scope n.span row)
    change (ofBodyRow file scope n.span row).keywords = _ at keywords
    rw [keywordSpans, keywords]
    rfl
  have name (c : Cell) : (ofName file n c).keywordSpans.Sublist [c.span] := by
    rw [ofName]
    split
    · exact List.nil_sublist _
    · exact .refl _
  rw [ofDefinition, keywordSpans_append,
    part_concat_map_eq_nil keywordSpans rfl keywordSpans_append (rows _),
    part_concat_map keywordSpans rfl keywordSpans_append, List.append_nil]
  have named := (n.firstCell?_sublist_below .definitionName).map Mention.span
  rw [List.map_map, List.map_filterMap] at named
  refine List.Sublist.trans ?_ named
  rw [List.map_eq_flatMap]
  exact List.Sublist.flatMap_right _ fun c _ => name c

/-- The keywords of a section are declared in cells that are names, in their order. -/
theorem keywordSpans_ofSection_sublist (sec : Node) :
    (ofSection file sec).keywordSpans.Sublist (sec.below.filterMap Node.nameSpan?) := by
  have definitions : (concat (sec.definitions.map (ofDefinition file))).keywordSpans.Sublist
      (sec.below.filterMap Node.nameSpan?) := by
    rw [part_concat_map keywordSpans rfl keywordSpans_append]
    exact Node.flatMap_filter_sublist_below keywordSpans_ofDefinition_sublist sec
  have imports (row : Node) : (ofImport row).keywordSpans = [] := by
    rw [ofImport]
    split <;> rfl
  have settings (row : Node) : (ofSetting row).keywordSpans = [] := rfl
  have table (row : Node) : (ofVariableRow file row).keywordSpans = [] := rfl
  rw [ofSection]
  split
  · rw [keywordSpans_append, part_concat_map_eq_nil keywordSpans rfl keywordSpans_append imports,
      part_concat_map_eq_nil keywordSpans rfl keywordSpans_append settings]
    exact List.nil_sublist _
  · rw [part_concat_map_eq_nil keywordSpans rfl keywordSpans_append table]
    exact List.nil_sublist _
  iterate 3 exact definitions
  iterate 2 exact List.nil_sublist _

end Findings

/-- The cells of a parsed tree lie one behind the other, with something between them. -/
theorem pairwise_cells (text : Text) :
    (parse text).value.allCells.Pairwise fun c d => c.span.stop < d.span.start := by
  refine List.pairwise_filterMap.2 ((Tree.pairwise_nodesIn 0 _).imp_of_mem ?_)
  intro n m hn hm order c cell d other
  rw [Node.span_of_cell? cell, Node.span_of_cell? other]
  have isCell := Node.isCell_of_cell? cell
  have isOther := Node.isCell_of_cell? other
  rcases order with inside | behind
  · rw [Node.below_eq_nil (Node.isPiece_of_cell hn isCell)] at inside
    cases inside
  · exact Nat.lt_of_le_of_ne behind (Node.stop_ne_start_of_cells hn isCell hm isOther)

/-- The same of the mentions that play one role. -/
theorem pairwise_mentions (text : Text) (role : CellKind) :
    ((parse text).value.allNodes.filterMap (Node.mention? role)).Pairwise
      fun c e => c.span.stop < e.span.start := by
  have ofCells : (parse text).value.allNodes.filterMap (Node.mention? role) =
      ((parse text).value.allCells.filter fun c => c.kind == role).map
        fun c => ⟨c.text, c.span⟩ := by
    rw [Tree.allCells, List.filter_filterMap, List.map_filterMap]
    rfl
  rw [ofCells]
  exact List.pairwise_map.2 ((pairwise_cells text).sublist List.filter_sublist)

namespace Document

variable {d : Document} {text : Text}

/-- What the sections of a parsed tree find is found among its nodes. -/
theorem flatMap_sections_sublist {β : Type} {part : Findings → List β} {g : Node → Option β}
    (parsed : d.source.tree = (parse text).value)
    (inside : ∀ sec, (part (Findings.ofSection d.id sec)).Sublist (sec.below.filterMap g)) :
    (d.sections.flatMap fun s => part s.found).Sublist
      ((parse text).value.allNodes.filterMap g) := by
  rw [sections, SectionModel.ofTree, parsed, List.flatMap_map, allNodes_parse]
  refine List.Sublist.trans ?_ ((List.sublist_cons_self _ _).filterMap g)
  exact Node.flatMap_filter_sublist_below inside _

theorem calls_sublist (parsed : d.source.tree = (parse text).value) :
    d.calls.Sublist ((parse text).value.allNodes.filterMap (Node.mention? .keywordCall)) :=
  flatMap_sections_sublist parsed Findings.calls_ofSection_sublist

/-- The calls of a document lie one behind the other, with something between them. -/
theorem pairwise_calls (parsed : d.source.tree = (parse text).value) :
    d.calls.Pairwise fun c e => c.span.stop < e.span.start :=
  (pairwise_mentions text .keywordCall).sublist (calls_sublist parsed)

/-- A call is a cell of the document. -/
theorem exists_cell_of_mem_calls (parsed : d.source.tree = (parse text).value) {c : Mention}
    (h : c ∈ d.calls) : ∃ n ∈ (parse text).value.allNodes,
      n.cell? = some ⟨.keywordCall, c.text, c.span⟩ := by
  obtain ⟨n, hn, mention⟩ := List.mem_filterMap.1 ((calls_sublist parsed).subset h)
  exact ⟨n, hn, Node.mention?_eq_some_iff.1 mention⟩

/-- Two calls are not in the same place. -/
theorem eq_of_span_calls (parsed : d.source.tree = (parse text).value) {c e : Mention}
    (hc : c ∈ d.calls) (he : e ∈ d.calls) (same : c.span = e.span) : c = e := by
  have places : (d.calls.map Mention.span).Nodup := by
    refine List.pairwise_map.2 ((pairwise_calls parsed).imp fun {c e} apart same => ?_)
    rw [same, Span.stop] at apart
    omega
  exact List.inj_on_of_nodup_map places hc he same

/-- The names in which the keywords of a document are declared lie one behind the other. -/
theorem pairwise_keywordSpans (parsed : d.source.tree = (parse text).value) :
    (d.sections.flatMap fun s => s.found.keywordSpans).Pairwise
      fun s t => s.stop < t.start := by
  refine List.Pairwise.sublist
    (flatMap_sections_sublist parsed Findings.keywordSpans_ofSection_sublist) ?_
  have names : (parse text).value.allNodes.filterMap Node.nameSpan? =
      ((parse text).value.allNodes.filterMap (Node.mention? .definitionName)).map Mention.span :=
    (List.map_filterMap ..).symm
  rw [names]
  exact List.pairwise_map.2 (pairwise_mentions text .definitionName)

theorem mem_sections_of_mem_keywords {k : Keyword} (h : k ∈ d.keywords) :
    k ∈ d.sections.flatMap fun s => s.found.keywords :=
  Sequence.mem_of_mem_distinctBy h

/-- A keyword of a document stands in a place of the document. -/
theorem exists_span_of_mem_sections {k : Keyword}
    (h : k ∈ d.sections.flatMap fun s => s.found.keywords) :
    ∃ span, k.location = .document d.id span := by
  obtain ⟨s, hs, hk⟩ := List.mem_flatMap.1 h
  have file := (standIn_of_mem_sections hs).keywords k hk
  cases place : k.location with
  | document other span =>
    rw [place] at file
    cases file
    exact ⟨span, rfl⟩
  | library _ _ =>
    rw [place] at file
    cases file

/-- A keyword of a document is declared in a cell that is a name. -/
theorem exists_cell_of_mem_keywords (parsed : d.source.tree = (parse text).value) {k : Keyword}
    (h : k ∈ d.keywords) : ∃ n ∈ (parse text).value.allNodes, ∃ c, n.cell? = some c ∧
      c.kind = .definitionName ∧ k.location = .document d.id c.span := by
  have found := mem_sections_of_mem_keywords h
  obtain ⟨span, place⟩ := exists_span_of_mem_sections found
  obtain ⟨s, hs, hk⟩ := List.mem_flatMap.1 found
  have mem : span ∈ d.sections.flatMap fun s => s.found.keywordSpans :=
    List.mem_flatMap.2 ⟨s, hs, List.mem_filterMap.2 ⟨k, hk, by rw [place]; rfl⟩⟩
  have inTree :=
    (flatMap_sections_sublist parsed Findings.keywordSpans_ofSection_sublist).subset mem
  obtain ⟨n, hn, name⟩ := List.mem_filterMap.1 inTree
  obtain ⟨m, mention, rfl⟩ := Option.map_eq_some_iff.1 name
  exact ⟨n, hn, _, Node.mention?_eq_some_iff.1 mention, rfl, place⟩

/-- Two keywords of a document are not declared in the same place. -/
theorem eq_of_location_keywords (parsed : d.source.tree = (parse text).value) {k l : Keyword}
    (hk : k ∈ d.keywords) (hl : l ∈ d.keywords) (same : k.location = l.location) : k = l := by
  have places : ((d.sections.flatMap fun s => s.found.keywords).map Keyword.location).Nodup := by
    have apart := pairwise_keywordSpans parsed
    simp only [Findings.keywordSpans, ← List.filterMap_flatMap] at apart
    refine List.pairwise_map.2 ((List.pairwise_filterMap.1 apart).imp_of_mem ?_)
    intro k l hk _ behind same
    obtain ⟨span, place⟩ := exists_span_of_mem_sections hk
    have before := behind span (by rw [place]; rfl) span (by rw [← same, place]; rfl)
    rw [Span.stop] at before
    omega
  exact List.inj_on_of_nodup_map places (mem_sections_of_mem_keywords hk)
    (mem_sections_of_mem_keywords hl) same

end Document

end RobotAnalysis
