import RobotAnalysis.Proofs.DefinitionLines
import RobotAnalysis.Proofs.RoleSequences

/-!
# The grammar of documents

What a tree of a document can be, said without the parser: a preamble and sections one behind the
other, in every section a heading and the rows or definitions that its kind allows, in a definition
a name and rows, in a row the cells that its kind allows. Blank lines may stand between rows. Every
text is parsed to a tree of this grammar; its sections begin where the heading lines begin, and a
definition has a name if and only if its line is not indented.
-/
namespace RobotAnalysis

namespace HeadingKind

/-- The nodes that the rows of a section of some kind may become. -/
def rowKinds : HeadingKind → List NodeKind
  | .settings => [.setting, .importing, .otherRow]
  | .variableTable => [.variableRow, .otherRow]
  | .testCases | .tasks => [.testCase]
  | .keywords => [.userKeyword]
  | .comments | .unknown => [.otherRow]

end HeadingKind

namespace Tree

/-- What blank lines leave, and what stands around the cells of a row: blanks, line breaks and
comments. -/
inductive IsBlank : Tree → Prop
  | leaf {t : Token} (h : t.isTrivia = true) : IsBlank (.leaf t)
  | comment (ts : List Token) : IsBlank (.node .comment (ts.map .leaf))

/-- A row that is one of some nodes: it is made of pieces, and its cells are those that its kind
allows. -/
inductive IsRowAmong (kinds : List NodeKind) : Tree → Prop
  | row {kind : NodeKind} {children : List Tree} (allowed : kind ∈ kinds)
      (pieces : ∀ t ∈ children, t.IsPiece) (cells : RowCells kind (cellTexts children)) :
      IsRowAmong kinds (.node kind children)

/-- What stands in a definition below its name. -/
def InBody (t : Tree) : Prop :=
  t.IsBlank ∨ t.IsRowAmong [.callRow, .controlRow, .bracketRow, .otherRow]

/-- The children of a definition: its name if it has one, and the rows of its body. -/
inductive AreDefinition : Bool → List Tree → Prop
  | named (name : List Token) {body : List Tree} (h : ∀ t ∈ body, t.InBody) :
      AreDefinition true (.node (.cell .definitionName) (name.map .leaf) :: body)
  | unnamed {body : List Tree} (h : ∀ t ∈ body, t.InBody) : AreDefinition false body

/-- What stands in a section below its heading: blank lines, and the rows or definitions that its
kind allows. -/
inductive InSection (kind : HeadingKind) : Tree → Prop
  | blank {t : Tree} (h : t.IsBlank) : InSection kind t
  | row {t : Tree} (h : t.IsRowAmong kind.rowKinds) : InSection kind t
  | definition {k : NodeKind} {children : List Tree} (isDefinition : k.isDefinition = true)
      (allowed : k ∈ kind.rowKinds) {named : Bool} (h : AreDefinition named children) :
      InSection kind (.node k children)

/-- A token that stands by itself. -/
def leaf? : Tree → Option Token
  | .leaf t => some t
  | .node _ _ => none

/-- The kind that a heading announces, whose comment is left out. -/
def announced (heading : List Tree) : HeadingKind :=
  HeadingKind.ofText (Token.textOf (heading.filterMap leaf?))

/-- A section: a heading, and what its kind allows. -/
inductive IsSection : Tree → Prop
  | mk {heading body : List Tree} (plain : ∀ t ∈ heading, t.IsGap)
      (h : ∀ t ∈ body, t.InSection (announced heading)) :
      IsSection (.node .headed (.node .heading heading :: body))

/-- The lines before the first section. -/
inductive IsPreamble : Tree → Prop
  | mk {children : List Tree} (plain : ∀ t ∈ children, t.IsGap) :
      IsPreamble (.node .preamble children)

end Tree

/-- Whether nodes stand one behind the other from one offset to another. -/
def Node.AreContiguous (start : Nat) : List Node → Nat → Prop
  | [], stop => start = stop
  | n :: ns, stop => n.start = start ∧ AreContiguous n.span.stop ns stop

/-- Whether a tree is that of a document with some text. -/
structure Tree.IsDocument (text : Text) (t : Tree) : Prop where
  /-- A document is a preamble, if it has one, and sections. -/
  parts : ∃ preamble sections, t = .node .document (preamble ++ sections) ∧ preamble.length ≤ 1 ∧
    (∀ p ∈ preamble, p.IsPreamble) ∧ ∀ s ∈ sections, s.IsSection
  /-- These reach from the start of the text to its end. -/
  contiguous : Node.AreContiguous 0 t.root.nodes text.byteSize
  /-- There is one section for each heading line, and it begins there. -/
  headings : t.root.sections.map Node.start =
    ((linesOf (tokenize text)).filter Line.isHeading).map Line.start
  /-- A definition begins at a line, and it has a name if and only if that line is not indented. -/
  definitions : ∀ n ∈ t.allNodes, n.kind.isDefinition = true →
    ∃ l ∈ linesOf (tokenize text), l.start = n.start ∧ Tree.AreDefinition (!l.isIndented) n.children

namespace Part

/-- Outside cells a line leaves blanks and comments. -/
theorem isBlank_of_mem_bare {ts : List Token} {p : Part} (h : p ∈ ofTokens ts)
    (noCell : p.isCell = false) {t : Tree} (ht : t ∈ p.bare) : t.IsBlank := by
  cases p with
  | gap token =>
    have trivia := (isProper_of_mem_ofTokens _ h).2
    rw [bare, List.mem_singleton] at ht
    exact ht ▸ .leaf trivia
  | cell us => cases noCell
  | comment us =>
    rw [bare, List.mem_singleton] at ht
    exact ht ▸ .comment us

theorem isBlank_of_mem_flatMap_bare {ts : List Token} {ps : List Part}
    (h : ∀ p ∈ ps, p ∈ ofTokens ts ∧ p.isCell = false) {t : Tree} (ht : t ∈ ps.flatMap bare) :
    t.IsBlank := by
  obtain ⟨p, hp, ht⟩ := List.mem_flatMap.1 ht
  exact isBlank_of_mem_bare (h p hp).1 (h p hp).2 ht

end Part

namespace Line

/-- Whether a line is made of tokens as the lines of a document are. -/
structure IsMade (l : Line) : Prop where
  parts : ∃ ts, l.parts = Part.ofTokens ts
  ordered : l.IsOrdered

theorem isMade_of_mem_linesOf {tokens : List Token} {l : Line} (h : l ∈ linesOf tokens) :
    l.IsMade := by
  obtain ⟨ts, -, parts⟩ := exists_of_mem_locate h
  exact ⟨⟨ts, parts⟩, isOrdered_of_mem_linesOf h⟩

/-- A blank line leaves blanks and comments. -/
theorem IsMade.isBlank_of_mem_bare {l : Line} (h : l.IsMade) (blank : l.isBlank = true) {t : Tree}
    (ht : t ∈ l.bare) : t.IsBlank := by
  obtain ⟨ts, parts⟩ := h.parts
  have noCells : l.parts.filterMap Part.cellText? = [] := List.isEmpty_iff.1 blank
  have outside : ∀ p ∈ l.parts, p ∈ Part.ofTokens ts ∧ p.isCell = false := by
    intro p hp
    rw [Part.isCell, List.filterMap_eq_nil_iff.1 noCells p hp, ← parts]
    exact ⟨hp, rfl⟩
  exact Part.isBlank_of_mem_flatMap_bare outside ht

end Line

namespace RowForm

/-- The node of a row is a row of the grammar. -/
theorem InUse.isRowAmong {form : Row → RowForm} (used : InUse form) {r : Row}
    (filled : r.head.isBlank = false) {kinds : List NodeKind} (allowed : (form r).kind ∈ kinds) :
    (parse form r).value.IsRowAmong kinds :=
  .row allowed (fun _ ht => Row.isPiece_of_mem_trees ht) (used.rowCells filled)

theorem kind_shapeInBody_mem (first : Text) :
    (shapeInBody first).1 ∈ [.callRow, .controlRow, .bracketRow, .otherRow] := by
  rw [shapeInBody]
  split_ifs <;> simp

end RowForm

namespace Item

theorem isBlank_of_mem_ofLines {ls : List Line} {l : Line} (h : .blank l ∈ ofLines ls) :
    l ∈ ls ∧ l.isBlank = true := by
  refine ⟨?_, isGrouped_of_mem_ofLines _ h⟩
  rw [← flatMap_lines_ofLines ls]
  exact List.mem_flatMap.2 ⟨_, h, List.mem_singleton_self l⟩

/-- Lines that are read row by row become blanks and rows. -/
theorem isBlank_or_row {form : Row → RowForm} {ls : List Line} (made : ∀ l ∈ ls, l.IsMade)
    {t : Tree} (h : t ∈ (parseAll form (ofLines ls)).value) :
    t.IsBlank ∨ ∃ r : Row, r.head.isBlank = false ∧ t = (RowForm.parse form r).value := by
  rw [value_parseAll] at h
  obtain ⟨item, mem, ht⟩ := List.mem_flatMap.1 h
  cases item with
  | blank l =>
    obtain ⟨inside, blank⟩ := isBlank_of_mem_ofLines mem
    exact .inl ((made l inside).isBlank_of_mem_bare blank ht)
  | row r => exact .inr ⟨r, isBlank_head_of_mem_ofLines mem, List.mem_singleton.1 ht⟩

/-- Lines of a body. -/
theorem inBody_of_mem {ls : List Line} (made : ∀ l ∈ ls, l.IsMade) {t : Tree}
    (h : t ∈ (parseAll RowForm.ofBody (ofLines ls)).value) : t.InBody := by
  rcases isBlank_or_row made h with blank | ⟨r, filled, rfl⟩
  · exact .inl blank
  · exact .inr (RowForm.InUse.ofBody.isRowAmong filled (RowForm.kind_shapeInBody_mem r.name))

end Item

namespace Definition

/-- The line that names a definition: the name, and a row behind it if there is another cell. -/
theorem areDefinition_nameLine {l : Line} (made : l.IsMade) (filled : l.isBlank = false)
    (outside : l.isIndented = false) {body : List Tree} (h : ∀ t ∈ body, t.InBody) :
    Tree.AreDefinition true (nameLine l ++ body) := by
  obtain ⟨ts, ofTokens⟩ := made.parts
  obtain ⟨name, rest, parts⟩ := made.ordered.begins filled outside
  have inside : ∀ p ∈ rest, p ∈ Part.ofTokens ts := by
    intro p hp
    rw [← ofTokens, parts]
    exact List.mem_cons_of_mem _ hp
  have blank {ps : List Part} (sub : ∀ p ∈ ps, p ∈ rest ∧ p.isCell = false) :
      ∀ t ∈ ps.flatMap Part.bare, t.InBody := fun t ht =>
    .inl (Part.isBlank_of_mem_flatMap_bare (fun p hp => ⟨inside p (sub p hp).1, (sub p hp).2⟩) ht)
  cases more : (rest.filterMap Part.cellText?).isEmpty with
  | true =>
    have noCell : ∀ p ∈ rest, p.isCell = false := by
      intro p hp
      rw [Part.isCell, List.filterMap_eq_nil_iff.1 (List.isEmpty_iff.1 more) p hp]
      rfl
    rw [nameLine_of_noCell parts noCell]
    exact .named name (List.forall_mem_append.2 ⟨blank fun p hp => ⟨hp, noCell p hp⟩, h⟩)
  | false =>
    obtain ⟨gaps, first, row, -, rfl, noCell⟩ := Part.exists_first_cell more
    have gapBlank := blank fun p hp => ⟨List.mem_append_left _ hp, noCell p hp⟩
    have inline : Tree.InBody (.node (RowForm.shapeInBody (Token.textOf first)).1
        ((Roles.start (RowForm.shapeInBody (Token.textOf first)).2).assign
          (.cell first :: row)).1) := by
      refine .inr (.row (RowForm.kind_shapeInBody_mem _)
        (fun _ ht => Roles.isPiece_of_mem_assign ht) ?_)
      rw [Roles.cellTexts_assign]
      exact RowForm.rowCells_shapeInBody _ _
    rw [nameLine_of_cell parts noCell]
    refine .named name (List.forall_mem_append.2 ⟨?_, h⟩)
    exact List.forall_mem_append.2 ⟨gapBlank, List.forall_mem_singleton.2 inline⟩

/-- A definition is named if and only if its first line is not indented. -/
theorem exists_parse_areDefinition (kind : NodeKind) {d : Definition}
    (made : ∀ l ∈ d.lines, l.IsMade) (filled : d.first.isBlank = false) :
    ∃ children, (parse kind d).value = .node kind children ∧
      Tree.AreDefinition (!d.first.isIndented) children := by
  obtain ⟨first, others⟩ := List.forall_mem_cons.1 made
  rw [parse]
  cases indented : d.first.isIndented with
  | true => exact ⟨_, rfl, .unnamed fun t ht => Item.inBody_of_mem made ht⟩
  | false =>
    exact ⟨_, rfl, areDefinition_nameLine first filled indented
      fun t ht => Item.inBody_of_mem others ht⟩

end Definition

namespace SectionLines

variable {text : Text} {s : SectionLines}

theorem isMade_of_mem_lines (h : s ∈ ofText text) : ∀ l ∈ s.lines, l.IsMade := by
  intro l hl
  have inside : l ∈ linesOf (tokenize text) := by
    rw [← flatten_ofText]
    exact List.mem_append_right _ (List.mem_flatMap.2 ⟨s, h, hl⟩)
  exact Line.isMade_of_mem_linesOf inside

/-- A section is a heading line and lines that are none. -/
theorem isHeading_of_mem_ofText (h : s ∈ ofText text) :
    s.heading.isHeading = true ∧ ∀ l ∈ s.body, l.isHeading = false := by
  obtain ⟨g, hg, rfl⟩ := List.mem_map.1 h
  exact Sequence.of_mem_groupAt_snd hg

/-- The definitions of a section are made of its lines. -/
theorem of_mem_definitions (h : s ∈ ofText text) {d : Definition}
    (hd : d ∈ (Definition.ofLines s.body).2) :
    (∀ l ∈ d.lines, l.IsMade) ∧ d.first.isBlank = false := by
  obtain ⟨-, blocks, -⟩ := Definition.ofLines_spec (isHeading_of_mem_ofText h).2
  refine ⟨fun l hl => isMade_of_mem_lines h l (List.mem_cons_of_mem _ ?_), (blocks d hd).filled⟩
  rw [← Definition.ofLines_flatten s.body]
  exact List.mem_append_right _ (List.mem_flatMap.2 ⟨d, hd, hl⟩)

theorem inSection_of_definitions (h : s ∈ ofText text) {kind : NodeKind}
    (isDefinition : kind.isDefinition = true) (allowed : kind ∈ s.kind.rowKinds) {t : Tree}
    (ht : t ∈ (Definition.parseAll kind s.body).value) : t.InSection s.kind := by
  rw [Definition.value_parseAll] at ht
  rcases List.mem_append.1 ht with ht | ht
  · obtain ⟨l, hl, ht⟩ := List.mem_flatMap.1 ht
    obtain ⟨blanks, -, -⟩ := Definition.ofLines_spec (isHeading_of_mem_ofText h).2
    have inside : l ∈ s.lines := by
      refine List.mem_cons_of_mem _ ?_
      rw [← Definition.ofLines_flatten s.body]
      exact List.mem_append_left _ hl
    exact .blank ((isMade_of_mem_lines h l inside).isBlank_of_mem_bare (blanks l hl) ht)
  · obtain ⟨d, hd, rfl⟩ := List.mem_map.1 ht
    obtain ⟨made, filled⟩ := of_mem_definitions h hd
    obtain ⟨children, tree, definition⟩ := Definition.exists_parse_areDefinition kind made filled
    rw [tree]
    exact .definition isDefinition allowed definition

theorem inSection_of_rows (h : s ∈ ofText text) {form : Row → RowForm} (used : RowForm.InUse form)
    (allowed : ∀ r, (form r).kind ∈ s.kind.rowKinds) {t : Tree}
    (ht : t ∈ (Item.parseAll form (Item.ofLines s.body)).value) : t.InSection s.kind := by
  have made : ∀ l ∈ s.body, l.IsMade := fun l hl =>
    isMade_of_mem_lines h l (List.mem_cons_of_mem _ hl)
  rcases Item.isBlank_or_row made ht with blank | ⟨r, filled, rfl⟩
  · exact .blank blank
  · exact .row (used.isRowAmong filled (allowed r))

/-- What stands in a section is what its kind allows. -/
theorem inSection_of_mem_parseBody (h : s ∈ ofText text) {t : Tree} (ht : t ∈ s.parseBody.value) :
    t.InSection s.kind := by
  rw [parseBody] at ht
  cases kind : s.kind with
  | settings =>
    rw [kind] at ht
    refine kind ▸ inSection_of_rows h .ofSetting (fun r => ?_) ht
    rcases RowForm.ofSetting_cases r with ⟨importing, -⟩ | setting | ⟨other, -⟩ <;>
      simp [HeadingKind.rowKinds, *]
  | variableTable =>
    rw [kind] at ht
    refine kind ▸ inSection_of_rows h .ofVariable (fun r => ?_) ht
    obtain ⟨variableRow | other, -⟩ := RowForm.ofVariable_cases r <;>
      simp [HeadingKind.rowKinds, *]
  | testCases | tasks =>
    rw [kind] at ht
    exact kind ▸ inSection_of_definitions h rfl (by simp [kind, HeadingKind.rowKinds]) ht
  | keywords =>
    rw [kind] at ht
    exact kind ▸ inSection_of_definitions h rfl (by simp [kind, HeadingKind.rowKinds]) ht
  | comments | unknown =>
    rw [kind] at ht
    refine kind ▸ inSection_of_rows h .plain (fun r => ?_) ht
    simp [kind, HeadingKind.rowKinds, RowForm.plain]

end SectionLines

namespace Part

/-- Whether a part is a comment. -/
def isComment : Part → Bool
  | .comment _ => true
  | .gap _ | .cell _ => false

/-- The trees of a line that are no nodes hold the tokens outside comments. -/
theorem filterMap_leaf?_flatMap_bare (ps : List Part) :
    (ps.flatMap bare).filterMap Tree.leaf? = (ps.filter fun p => !p.isComment).flatMap tokens := by
  have leaves (ts : List Token) : (ts.map Tree.leaf).filterMap Tree.leaf? = ts := by
    induction ts with
    | nil => rfl
    | cons t ts ih => exact congrArg _ ih
  induction ps with
  | nil => rfl
  | cons p ps ih =>
    rw [List.flatMap_cons, List.filterMap_append, ih]
    cases p with
    | gap t => rfl
    | cell ts =>
      rw [bare, leaves]
      rfl
    | comment ts => rfl

/-- The parts of a line are some without comments and some without cells. -/
theorem InOrder.exists_split {ps : List Part} (h : InOrder ps) : ∃ front back, ps = front ++ back ∧
    (∀ p ∈ front, p.isComment = false) ∧ ∀ p ∈ back, p.isCell = false := by
  induction ps with
  | nil => exact ⟨[], [], rfl, nofun, nofun⟩
  | cons p ps ih =>
    cases p with
    | gap t =>
      obtain ⟨front, back, rfl, noComment, noCell⟩ := ih h
      exact ⟨.gap t :: front, back, rfl, List.forall_mem_cons.2 ⟨rfl, noComment⟩, noCell⟩
    | cell ts =>
      obtain ⟨front, back, rfl, noComment, noCell⟩ := ih h
      exact ⟨.cell ts :: front, back, rfl, List.forall_mem_cons.2 ⟨rfl, noComment⟩, noCell⟩
    | comment ts =>
      refine ⟨[], .comment ts :: ps, rfl, nofun, List.forall_mem_cons.2 ⟨rfl, fun p hp => ?_⟩⟩
      obtain ⟨t, rfl⟩ := h p hp
      rfl

end Part

namespace Line

/-- Parts without cells at the end of a line do not count for the text of its cells. -/
theorem cellsText_append {a b : Nat} (front : List Part) {back : List Part}
    (h : ∀ p ∈ back, p.isCell = false) :
    (Line.mk a (front ++ back)).cellsText = (Line.mk b front).cellsText := by
  have outside : ∀ p ∈ back, (!p.isCell) = true := fun p hp => by simp [h p hp]
  rw [cellsText, cellsText, List.dropWhile_append]
  split
  · rename_i gone
    have none_left : (back.dropWhile fun p => !p.isCell) = [] := List.dropWhile_eq_nil_iff.2 outside
    rw [none_left, List.isEmpty_iff.1 gone]
  · rw [Sequence.dropTrailing_append _ outside]

/-- The line with its comment taken off. -/
def withoutComment (l : Line) : Line := ⟨l.start, l.parts.filter fun p => !p.isComment⟩

theorem not_hasComment_withoutComment (l : Line) : ¬ l.withoutComment.HasComment := by
  rintro ⟨ts, mem⟩
  have kept := (List.mem_filter.1 mem).2
  cases kept

theorem IsProper.withoutComment {l : Line} (h : l.IsProper) : l.withoutComment.IsProper :=
  ⟨fun t ht => h.gaps t (List.mem_of_mem_filter ht),
    fun ts hts => h.comments ts (List.mem_of_mem_filter hts)⟩

theorem cellsText_withoutComment {l : Line} (ordered : l.IsOrdered) :
    l.withoutComment.cellsText = l.cellsText := by
  obtain ⟨front, back, parts, noComment, noCell⟩ := ordered.inOrder.exists_split
  have kept : (front.filter fun p => !p.isComment) = front := by
    refine List.filter_eq_self.2 fun p hp => ?_
    rw [noComment p hp]
    rfl
  have whole : l = ⟨l.start, front ++ back⟩ := by rw [← parts]
  have bare : l.withoutComment = ⟨l.start, front ++ back.filter fun p => !p.isComment⟩ := by
    rw [withoutComment, parts, List.filter_append, kept]
  rw [bare, whole, cellsText_append (b := 0) front noCell,
    cellsText_append (b := 0) front fun p hp => noCell p (List.mem_of_mem_filter hp)]

/-- The tokens of a line outside its comment spell its cells, up to blanks around them. -/
theorem trim_textOf_leaves {l : Line} (proper : l.IsProper) (ordered : l.IsOrdered) :
    (Token.textOf (l.bare.filterMap Tree.leaf?)).trim = l.cellsText.trim := by
  rw [bare, Part.filterMap_leaf?_flatMap_bare, ← cellsText_withoutComment ordered]
  exact proper.withoutComment.trim_textOf l.not_hasComment_withoutComment

end Line

/-- A heading announces the kind by which its section is read. -/
theorem SectionLines.announced_heading {text : Text} {s : SectionLines} (h : s ∈ ofText text) :
    Tree.announced s.heading.bare = s.kind := by
  have inside := heading_mem_linesOf h
  exact HeadingKind.ofText_congr (Line.trim_textOf_leaves (Line.isProper_of_mem_linesOf inside)
    (isOrdered_of_mem_linesOf inside))

theorem SectionLines.isSection_parse {text : Text} {s : SectionLines} (h : s ∈ ofText text) :
    s.parse.value.IsSection := by
  rw [s.value_parse]
  refine .mk (fun t ht => Line.isGap_of_mem_bare ht) fun t ht => ?_
  rw [announced_heading h]
  exact inSection_of_mem_parseBody h ht

theorem isPreamble_of_mem {lines : List Line} {t : Tree} (h : t ∈ preambleTrees lines) :
    t.IsPreamble := by
  rw [preambleTrees] at h
  split at h
  · cases h
  · rw [List.mem_singleton.1 h]
    refine .mk fun u hu => ?_
    obtain ⟨l, -, hu⟩ := List.mem_flatMap.1 hu
    exact Line.isGap_of_mem_bare hu

theorem length_preambleTrees_le (lines : List Line) : (preambleTrees lines).length ≤ 1 := by
  rw [preambleTrees]
  split <;> simp

/-- Trees that are nodes stand one behind the other. -/
theorem Node.areContiguous_nodesFrom (start : Nat) {ts : List Tree}
    (h : ∀ t ∈ ts, t.isNode = true) : AreContiguous start (Tree.nodesFrom start ts)
      (start + Token.sizeOf (Tree.leavesOf ts)) := by
  induction ts generalizing start with
  | nil => rfl
  | cons t ts ih =>
    obtain ⟨first, rest⟩ := List.forall_mem_cons.1 h
    cases t with
    | leaf t => cases first
    | node kind children =>
      rw [Tree.nodesFrom, Tree.sizeOf_leavesOf_cons, ← Nat.add_assoc]
      exact ⟨rfl, ih _ rest⟩

namespace SectionLines

/-- Sections begin where their headings do. -/
theorem map_start_nodesFrom {start : Nat} {ss : List SectionLines}
    (h : Line.AreLocated start (ss.flatMap lines)) :
    ((Tree.nodesFrom start (ss.map fun s => s.parse.value)).filter fun n => n.kind == .headed).map
      Node.start = ss.map fun s => s.heading.start := by
  induction ss generalizing start with
  | nil => rfl
  | cons s ss ih =>
    rw [List.flatMap_cons, Line.areLocated_append] at h
    obtain ⟨⟨place, -⟩, rest⟩ := h
    rw [List.map_cons, value_parse, Tree.nodesFrom, List.filter_cons_of_pos rfl]
    have size : Token.sizeOf (Tree.leavesOf (.node .heading s.heading.bare :: s.parseBody.value)) =
        Token.sizeOf (s.lines.flatMap Line.tokens) := congrArg Token.sizeOf (leaves_parse s)
    rw [size, List.map_cons, ih rest, ← place, List.map_cons]

/-- The headings of the sections are the heading lines. -/
theorem filter_isHeading_linesOf (text : Text) :
    (linesOf (tokenize text)).filter Line.isHeading = (ofText text).map heading := by
  have before : (linesBefore text).filter Line.isHeading = [] := by
    refine List.filter_eq_nil_iff.2 fun l hl => ?_
    rw [Sequence.of_mem_groupAt_fst hl]
    exact Bool.false_ne_true
  have sections {ss : List SectionLines} (h : ∀ s ∈ ss, s ∈ ofText text) :
      (ss.flatMap lines).filter Line.isHeading = ss.map heading := by
    induction ss with
    | nil => rfl
    | cons s ss ih =>
      obtain ⟨first, rest⟩ := List.forall_mem_cons.1 h
      obtain ⟨isHeading, noHeading⟩ := isHeading_of_mem_ofText first
      have body : s.body.filter Line.isHeading = [] := by
        refine List.filter_eq_nil_iff.2 fun l hl => ?_
        rw [noHeading l hl]
        exact Bool.false_ne_true
      rw [List.flatMap_cons, List.filter_append, ih rest, lines, List.filter_cons_of_pos isHeading,
        body]
      rfl
  rw [← flatten_ofText, List.filter_append, before, sections fun _ hs => hs]
  rfl

end SectionLines

/-- A definition begins at a line, and has a name if and only if that line is not indented. -/
theorem exists_line_of_isDefinition {text : Text} {n : Node}
    (h : n ∈ (parse text).value.allNodes) (isDefinition : n.kind.isDefinition = true) :
    ∃ l ∈ linesOf (tokenize text), l.start = n.start ∧
      Tree.AreDefinition (!l.isIndented) n.children := by
  obtain ⟨-, -, sec, hsec, -, below⟩ := Node.exists_section_above h (.inr (.inl isDefinition))
  obtain ⟨outer, s, hs, behind, lines, tree, start⟩ := Node.exists_lines_before_section hsec
  obtain ⟨inner, d, hd, rest, split, -, ⟨kind, same⟩, place⟩ :=
    Node.exists_lines_before_definition tree below isDefinition
  have whole : linesOf (tokenize text) =
      (outer ++ inner) ++ d.first :: (d.body ++ rest ++ behind) := by
    simp only [lines, split, Definition.lines, List.append_assoc, List.cons_append]
  obtain ⟨made, filled⟩ := SectionLines.of_mem_definitions hs hd
  obtain ⟨children, parsed, definition⟩ := Definition.exists_parse_areDefinition kind made filled
  obtain ⟨-, rfl⟩ := Node.children_of_tree (same.trans parsed)
  refine ⟨d.first, by simp [whole], ?_, definition⟩
  rw [start_of_linesOf whole, place, start, List.flatMap_append, Token.sizeOf_append]

/-- Every text is parsed to a tree of the grammar. -/
theorem isDocument_parse (text : Text) : (parse text).value.IsDocument text := by
  have tree := value_parse text
  have isNode : ∀ t ∈ preambleTrees (SectionLines.linesBefore text) ++
      (SectionLines.ofText text).map fun s => s.parse.value, t.isNode = true := by
    intro t ht
    rcases List.mem_append.1 ht with ht | ht
    · cases isPreamble_of_mem ht
      rfl
    · obtain ⟨s, -, rfl⟩ := List.mem_map.1 ht
      rfl
  constructor
  case parts =>
    refine ⟨_, _, tree, length_preambleTrees_le _, fun p hp => isPreamble_of_mem hp, ?_⟩
    intro t ht
    obtain ⟨s, hs, rfl⟩ := List.mem_map.1 ht
    exact SectionLines.isSection_parse hs
  case contiguous =>
    have leaves : Token.sizeOf (parse text).value.leaves = text.byteSize := by
      rw [leaves_parse, Token.sizeOf, textOf_tokenize]
    have reach := Node.areContiguous_nodesFrom 0 isNode
    rw [tree] at leaves ⊢
    rw [Nat.zero_add] at reach
    exact leaves ▸ reach
  case headings =>
    rw [SectionLines.filter_isHeading_linesOf, List.map_map, Node.sections_eq]
    exact SectionLines.map_start_nodesFrom (areLocated_sections text)
  case definitions => exact fun n hn => exists_line_of_isDefinition hn

end RobotAnalysis
