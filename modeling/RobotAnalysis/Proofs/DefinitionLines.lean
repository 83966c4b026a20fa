import RobotAnalysis.Proofs.Lossless
import RobotAnalysis.Proofs.NodeExtents
import RobotAnalysis.Proofs.SectionContents

/-!
# Definitions begin lines

The lines before a definition are read before it, the heading of its section among them. Each of
them is followed by another line, so it ends with a line break: that is the token before a
definition.
-/
namespace RobotAnalysis

/-- A group of tokens that another group follows ends with a line break. -/
theorem getLast?_of_splitLines {ts l m : List Token} {xs ys : List (List Token)}
    (h : splitLines ts = xs ++ l :: m :: ys) : ∃ t, l.getLast? = some t ∧ t.kind = .newline := by
  induction ts generalizing xs l with
  | nil => cases xs <;> cases h
  | cons t ts ih =>
    rw [splitLines] at h
    split at h
    · rename_i newline
      cases xs with
      | nil =>
        obtain ⟨rfl, -⟩ := List.cons.inj h
        exact ⟨t, rfl, newline⟩
      | cons x xs => exact ih (List.cons.inj h).2
    · split at h
      · have short := congrArg List.length h
        simp only [List.length_append, List.length_cons, List.length_nil] at short
        omega
      · rename_i g gs found
        cases xs with
        | nil =>
          obtain ⟨rfl, rfl⟩ := List.cons.inj h
          obtain ⟨last, isLast, newline⟩ := ih (show splitLines ts = [] ++ g :: m :: ys from found)
          exact ⟨last, by rw [List.getLast?_cons, isLast]; rfl, newline⟩
        | cons x xs =>
          obtain ⟨-, rfl⟩ := List.cons.inj h
          exact ih (show splitLines ts = (g :: xs) ++ l :: m :: ys from found)

theorem map_tokens_linesOf (tokens : List Token) :
    (linesOf tokens).map Line.tokens = splitLines tokens := by
  have located (offset : Nat) (groups : List (List Token)) :
      (linesOf.locate offset groups).map Line.tokens = groups := by
    induction groups generalizing offset with
    | nil => rfl
    | cons ts groups ih =>
      rw [linesOf.locate, List.map_cons, ih, Line.tokens, Part.flatMap_tokens_ofTokens]
  exact located 0 _

/-- Lines that another line follows end with a line break. -/
theorem getLast?_tokens_of_linesOf {tokens : List Token} {done rest : List Line}
    (h : linesOf tokens = done ++ rest) (some : done ≠ []) (more : rest ≠ []) :
    ∃ t, (done.flatMap Line.tokens).getLast? = Option.some t ∧ t.kind = .newline := by
  obtain ⟨init, last, rfl⟩ := (List.eq_nil_or_concat done).resolve_left some
  obtain ⟨next, rest, rfl⟩ := List.exists_cons_of_ne_nil more
  have groups : splitLines tokens =
      init.map Line.tokens ++ last.tokens :: next.tokens :: rest.map Line.tokens := by
    rw [← map_tokens_linesOf, h]
    simp
  obtain ⟨t, isLast, newline⟩ := getLast?_of_splitLines groups
  refine ⟨t, ?_, newline⟩
  rw [List.concat_eq_append, List.flatMap_append, List.flatMap_singleton, List.getLast?_append,
    isLast]
  rfl

/-- Whether lines begin where those before them end, the first one at an offset. -/
def Line.AreLocated (offset : Nat) : List Line → Prop
  | [] => True
  | l :: ls => l.start = offset ∧ AreLocated (offset + Token.sizeOf l.tokens) ls

theorem Line.areLocated_append {offset : Nat} {ls ms : List Line} :
    AreLocated offset (ls ++ ms) ↔ AreLocated offset ls ∧
      AreLocated (offset + Token.sizeOf (ls.flatMap Line.tokens)) ms := by
  induction ls generalizing offset with
  | nil => simp [AreLocated, Token.sizeOf, Token.textOf]
  | cons l ls ih =>
    rw [List.cons_append, AreLocated, AreLocated, ih, and_assoc, List.flatMap_cons,
      Token.sizeOf_append, Nat.add_assoc]

theorem areLocated_linesOf (tokens : List Token) : Line.AreLocated 0 (linesOf tokens) := by
  have located (offset : Nat) (groups : List (List Token)) :
      Line.AreLocated offset (linesOf.locate offset groups) := by
    induction groups generalizing offset with
    | nil => trivial
    | cons ts groups ih =>
      refine ⟨rfl, ?_⟩
      rw [Line.tokens, Part.flatMap_tokens_ofTokens]
      exact ih _
  exact located 0 _

/-- A line begins where the tokens of the lines before it end. -/
theorem start_of_linesOf {tokens : List Token} {done rest : List Line} {l : Line}
    (h : linesOf tokens = done ++ l :: rest) :
    l.start = Token.sizeOf (done.flatMap Line.tokens) := by
  have located := areLocated_linesOf tokens
  rw [h, Line.areLocated_append] at located
  simpa using located.2.1

/-- The lines of the sections stand behind the lines before the first heading. -/
theorem areLocated_sections (text : Text) :
    Line.AreLocated (Token.sizeOf ((SectionLines.linesBefore text).flatMap Line.tokens))
      ((SectionLines.ofText text).flatMap SectionLines.lines) := by
  have located := areLocated_linesOf (tokenize text)
  rw [← SectionLines.flatten_ofText, Line.areLocated_append, Nat.zero_add] at located
  exact located.2

/-- A list put together of some elements and the images of others, cut at an element that is not
among the former. -/
theorem exists_of_append_map_eq {α β : Type} {front xs ys : List β} {l : List α} {f : α → β} {b : β}
    (h : front ++ l.map f = xs ++ b :: ys) (new : b ∉ front) :
    ∃ before a behind, l = before ++ a :: behind ∧ xs = front ++ before.map f ∧ f a = b := by
  rcases List.append_eq_append_iff.1 h with ⟨between, split, rest⟩ | ⟨between, split, rest⟩
  · obtain ⟨before, behind, rfl, rfl, images⟩ := List.map_eq_append_iff.1 rest
    obtain ⟨a, behind, rfl, same, -⟩ := List.map_eq_cons_iff.1 images
    exact ⟨before, a, behind, rfl, split, same⟩
  · cases between with
    | nil =>
      obtain ⟨a, behind, rfl, same, -⟩ := List.map_eq_cons_iff.1 rest.symm
      exact ⟨[], a, behind, rfl, by simpa using split.symm, same⟩
    | cons c between =>
      obtain ⟨rfl, -⟩ := List.cons.inj rest
      exact absurd (split ▸ List.mem_append_right _ List.mem_cons_self) new

namespace Node

variable {text : Text} {n sec : Node} {s : SectionLines}

/-- A definition is a child of its section. -/
theorem mem_nodes_of_isDefinition (tree : sec.tree = s.parse.value) (below : n ∈ sec.below)
    (isDefinition : n.kind.isDefinition = true) :
    s.kind.holdsBodies = true ∧ n ∈ sec.nodes := by
  have other (no : n.kind.isDefinition = false) : False := by simp [no] at isDefinition
  cases inSection_of_mem_below tree below with
  | heading kind gaps => exact (other (by rw [kind]; rfl)).elim
  | piece h => exact (other (isDefinition_of_isPiece h)).elim
  | setting _ _ row => exact (other (row.isDefinition_eq_false .ofSetting)).elim
  | variableRow _ _ row => exact (other (row.isDefinition_eq_false .ofVariable)).elim
  | definition bodies mem _ _ _ _ => exact ⟨bodies, mem⟩
  | bodyRow _ _ _ _ _ row => exact (other (row.isDefinition_eq_false .ofBody)).elim
  | other _ row => exact (other (row.isDefinition_eq_false .plain)).elim

/-- The trees of a body are those of the definitions after the blank lines. -/
theorem value_parseBody_of_holdsBodies (bodies : s.kind.holdsBodies = true) :
    ∃ kind : NodeKind, kind.isDefinition = true ∧
      s.parseBody.value = (Definition.ofLines s.body).1.flatMap Line.bare ++
        (Definition.ofLines s.body).2.map fun d => (Definition.parse kind d).value := by
  rw [SectionLines.parseBody]
  cases kind : s.kind with
  | testCases | tasks => exact ⟨_, rfl, Definition.value_parseAll .testCase s.body⟩
  | keywords => exact ⟨_, rfl, Definition.value_parseAll .userKeyword s.body⟩
  | settings | variableTable | comments | unknown =>
    rw [kind] at bodies
    cases bodies

theorem mem_allNodes_of_mem_sections (h : sec ∈ (parse text).value.root.sections) :
    sec ∈ (parse text).value.allNodes :=
  mem_allNodes_of_mem_nodes (root_mem_allNodes text) (List.mem_of_mem_filter h)

/-- The sections of a document are the nodes behind its preamble. -/
theorem sections_eq (text : Text) : (parse text).value.root.sections =
    (Tree.nodesFrom (Token.sizeOf ((SectionLines.linesBefore text).flatMap Line.tokens))
      ((SectionLines.ofText text).map fun s => s.parse.value)).filter
        fun n => n.kind == .headed := by
  have preamble : ((Tree.nodesFrom 0 (preambleTrees (SectionLines.linesBefore text))).filter
      fun n => n.kind == .headed) = [] := by
    rw [preambleTrees]
    split <;> rfl
  have inRoot : (parse text).value.root.nodes =
      Tree.nodesFrom 0 (preambleTrees (SectionLines.linesBefore text) ++
        (SectionLines.ofText text).map fun s => s.parse.value) := by
    rw [value_parse]
    rfl
  rw [sections, nodesOf, inRoot, Tree.nodesFrom_append, List.filter_append, preamble,
    List.nil_append, leavesOf_preambleTrees, Nat.zero_add]

/-- The sections before a section and behind it. -/
theorem exists_split_of_mem_sections (hsec : sec ∈ (parse text).value.root.sections) :
    ∃ earlier s later, SectionLines.ofText text = earlier ++ s :: later ∧
      sec.tree = s.parse.value ∧
      sec.start = Token.sizeOf ((SectionLines.linesBefore text ++
        earlier.flatMap SectionLines.lines).flatMap Line.tokens) := by
  rw [sections_eq] at hsec
  obtain ⟨_, _, split, place⟩ := Tree.exists_split_of_mem_nodesFrom (List.mem_of_mem_filter hsec)
  obtain ⟨earlier, rest, sections, rfl, images⟩ := List.map_eq_append_iff.1 split
  obtain ⟨s, later, rfl, same, -⟩ := List.map_eq_cons_iff.1 images
  refine ⟨earlier, s, later, sections, same.symm, ?_⟩
  rw [place, Tree.leavesOf_map SectionLines.leaves_parse, List.flatMap_append,
    Token.sizeOf_append, List.flatMap_assoc]

/-- In front of a section there are whole lines. -/
theorem exists_lines_before_section (hsec : sec ∈ (parse text).value.root.sections) :
    ∃ done, ∃ s ∈ SectionLines.ofText text, ∃ behind,
      linesOf (tokenize text) = done ++ (SectionLines.lines s ++ behind) ∧
        sec.tree = s.parse.value ∧ sec.start = Token.sizeOf (done.flatMap Line.tokens) := by
  obtain ⟨earlier, s, later, sections, tree, place⟩ := exists_split_of_mem_sections hsec
  refine ⟨SectionLines.linesBefore text ++ earlier.flatMap SectionLines.lines, s,
    by simp [sections], later.flatMap SectionLines.lines, ?_, tree, place⟩
  rw [← SectionLines.flatten_ofText, sections, List.flatMap_append, List.flatMap_cons,
    List.append_assoc]

/-- Between the start of a section and a definition in it there are whole lines: the heading, blank
lines and the earlier definitions. The lines of the definition follow. -/
theorem exists_lines_before_definition (tree : sec.tree = s.parse.value) (below : n ∈ sec.below)
    (isDefinition : n.kind.isDefinition = true) :
    ∃ done, ∃ d ∈ (Definition.ofLines s.body).2, ∃ rest,
      s.lines = done ++ (d.lines ++ rest) ∧ done ≠ [] ∧
        (∃ kind, n.tree = (Definition.parse kind d).value) ∧
          n.start = sec.start + Token.sizeOf (done.flatMap Line.tokens) := by
  obtain ⟨bodies, mem⟩ := mem_nodes_of_isDefinition tree below isDefinition
  obtain ⟨kind, -, body⟩ := value_parseBody_of_holdsBodies bodies
  let blanks := (Definition.ofLines s.body).1
  let front := Tree.node .heading s.heading.bare :: blanks.flatMap Line.bare
  have children : sec.children =
      front ++ (Definition.ofLines s.body).2.map fun d => (Definition.parse kind d).value := by
    rw [(children_of_tree (tree.trans s.value_parse)).2, body]
    rfl
  rw [nodes, children] at mem
  obtain ⟨_, _, split, place⟩ := Tree.exists_split_of_mem_nodesFrom mem
  have noFront : n.tree ∉ front := by
    intro inside
    rcases List.mem_cons.1 inside with heading | inside
    · have kind := (children_of_tree heading).1
      simp [kind, NodeKind.isDefinition] at isDefinition
    · obtain ⟨l, -, inside⟩ := List.mem_flatMap.1 inside
      have comment := kind_of_isGap (Line.isGap_of_mem_bare inside)
      simp [comment, NodeKind.isDefinition] at isDefinition
  obtain ⟨earlier, d, later, definitions, rfl, same⟩ := exists_of_append_map_eq split noFront
  refine ⟨s.heading :: (blanks ++ earlier.flatMap Definition.lines), d, by simp [definitions],
    later.flatMap Definition.lines, ?_, List.cons_ne_nil _ _, ⟨kind, same.symm⟩, ?_⟩
  · rw [SectionLines.lines, ← Definition.ofLines_flatten s.body, definitions]
    simp only [List.flatMap_append, List.flatMap_cons, List.cons_append, List.append_assoc, blanks]
  · rw [place, Tree.leavesOf_append, Tree.leavesOf, Tree.leaves, Line.leavesOf_bare,
      Line.leavesOf_flatMap_bare, Tree.leavesOf_map (Definition.leaves_parse kind),
      List.flatMap_cons, List.flatMap_append, List.flatMap_assoc, List.append_assoc]

end Node

/-- The token before a definition is a line break. -/
theorem exists_newline_before {text : Text} {n : Node} (h : n ∈ (parse text).value.allNodes)
    (isDefinition : n.kind.isDefinition = true) :
    ∃ before t, before <+: tokenize text ∧ n.start = Token.sizeOf before ∧
      before.getLast? = some t ∧ t.kind = .newline := by
  obtain ⟨-, -, sec, hsec, -, below⟩ := Node.exists_section_above h (.inr (.inl isDefinition))
  obtain ⟨outer, s, -, behind, lines, tree, start⟩ := Node.exists_lines_before_section hsec
  obtain ⟨inner, d, -, rest, split, some, -, place⟩ :=
    Node.exists_lines_before_definition tree below isDefinition
  have whole : linesOf (tokenize text) = (outer ++ inner) ++ (d.lines ++ rest ++ behind) := by
    simp only [lines, split, List.append_assoc]
  obtain ⟨t, isLast, newline⟩ := getLast?_tokens_of_linesOf whole (by simp [some])
    (by simp [Definition.lines])
  have tokens : (outer ++ inner).flatMap Line.tokens ++
      (d.lines ++ rest ++ behind).flatMap Line.tokens = tokenize text := by
    rw [← List.flatMap_append, ← whole, flatMap_tokens_linesOf]
  refine ⟨(outer ++ inner).flatMap Line.tokens, t, ⟨_, tokens⟩, ?_, isLast, newline⟩
  rw [place, start, ← Token.sizeOf_append, List.flatMap_append]

end RobotAnalysis
