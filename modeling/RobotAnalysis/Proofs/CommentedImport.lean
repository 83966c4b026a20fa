import RobotAnalysis.Document
import RobotAnalysis.Proofs.CommentedLine
import RobotAnalysis.Proofs.DocumentGrammar
import RobotAnalysis.Proofs.FoundSymbols
import RobotAnalysis.Proofs.SectionIndependence

/-!
# An import turned into a comment

A row of one line that imports something can be turned into a comment of its size. In the tree the
node of the row gives way to a comment, and everything else stays where it is. So all that the
document loses is the import itself and the variables used in its row.
-/
namespace RobotAnalysis

namespace Sequence

theorem groupAt_of_outside {α : Type} {p : α → Bool} {l : List α} (h : ∀ a ∈ l, p a = false) :
    groupAt p l = (l, []) := by
  simpa [groupAt] using groupAt_append_of_outside h []

/-- Elements that have been grouped are grouped in the same way again. -/
theorem groupAt_of_groups {α : Type} {p : α → Bool} {before : List α} {groups : List (α × List α)}
    (outside : ∀ a ∈ before, p a = false)
    (inside : ∀ g ∈ groups, p g.1 = true ∧ ∀ a ∈ g.2, p a = false) :
    groupAt p (before ++ groups.flatMap fun g => g.1 :: g.2) = (before, groups) := by
  induction groups generalizing before with
  | nil => rw [List.flatMap_nil, List.append_nil, groupAt_of_outside outside]
  | cons g groups ih =>
    obtain ⟨⟨begins, body⟩, rest⟩ := List.forall_mem_cons.1 inside
    have first : ∀ a ∈ ((g :: groups).flatMap fun g => g.1 :: g.2).head?, p a = true := by
      rintro _ ⟨⟩
      exact begins
    rw [groupAt_append first, groupAt_of_outside outside, List.flatMap_cons, List.cons_append,
      groupAt_cons_of_pos begins, ih body rest, List.nil_append]

end Sequence

namespace Item

variable {form : Row → RowForm} {start : Nat} {items before behind : List Item} {n : Node}

theorem flatMap_tokens_lines (items : List Item) :
    (items.flatMap lines).flatMap Line.tokens = items.flatMap tokens := by
  rw [List.flatMap_assoc]
  refine List.flatMap_congr fun item _ => ?_
  cases item with
  | blank l => exact List.flatMap_singleton ..
  | row r => rfl

/-- The row that a node among the trees of some items is made of, and the items before it. -/
theorem exists_of_mem_nodesFrom (h : n ∈ Tree.nodesFrom start (parseAll form items).value)
    (kind : n.kind ≠ .comment) :
    ∃ before r behind, items = before ++ .row r :: behind ∧
      n.tree = (RowForm.parse form r).value ∧
      n.start = start + Token.sizeOf (before.flatMap tokens) := by
  induction items generalizing start with
  | nil => cases h
  | cons item items ih =>
    rw [parseAll_cons, Tree.nodesFrom_append] at h
    rcases List.mem_append.1 h with here | later
    · cases item with
      | blank l =>
        have gaps : n.tree.IsGap :=
          Line.isGap_of_mem_bare (l := l)
            (Node.tree_mem_of_mem_nodes (n := ⟨start, .error, l.bare⟩) here)
        exact absurd (Node.kind_of_isGap gaps) kind
      | row r =>
        cases List.mem_singleton.1 here
        exact ⟨[], r, items, rfl, rfl, rfl⟩
    · obtain ⟨before, r, behind, rfl, tree, place⟩ := ih later
      refine ⟨item :: before, r, behind, rfl, tree, ?_⟩
      rw [place, leavesOf_parse, List.flatMap_cons, Token.sizeOf_append, Nat.add_assoc]

/-- The row in question, or another row of one line in front of it, is replaced when this is true of
the items behind it. -/
theorem ofLines_blank_of_single {ls : List Line} {l l' c : Line} {items : List Item}
    (blank : c.isBlank = true) (filled : ¬ l'.isBlank = true) (same : ofLines ls = items)
    (first : ∀ s, items.head? = some (.row s) → s.head.isContinuation = false)
    (ih : ∀ before, items = before ++ .row ⟨l, []⟩ :: behind →
      ofLines (before.flatMap lines ++ c :: behind.flatMap lines) = before ++ .blank c :: behind)
    (h : .row ⟨l', []⟩ :: items = before ++ .row ⟨l, []⟩ :: behind) :
    ofLines (before.flatMap lines ++ c :: behind.flatMap lines) = before ++ .blank c :: behind := by
  cases before with
  | nil =>
    obtain ⟨-, rfl⟩ := List.cons.inj h
    rw [List.flatMap_nil, List.nil_append, ofLines, if_pos blank, ← same, flatMap_lines_ofLines]
    rfl
  | cons item before =>
    obtain ⟨rfl, rfl⟩ := List.cons.inj h
    have back := ih before rfl
    rw [List.flatMap_cons, List.append_assoc, lines, List.singleton_append, ofLines,
      if_neg filled, back]
    cases before with
    | nil => rfl
    | cons item before =>
      cases item with
      | blank _ => rfl
      | row s =>
        have begins := first s rfl
        simp [begins]

/-- Where a row of one line becomes a blank line, no other row is read differently: the row was not
continued, and no row continues behind a blank line. -/
theorem ofLines_blank {ls : List Line} {l c : Line} (blank : c.isBlank = true)
    (h : ofLines ls = before ++ .row ⟨l, []⟩ :: behind) :
    ofLines (before.flatMap lines ++ c :: behind.flatMap lines) = before ++ .blank c :: behind := by
  induction ls using ofLines.induct generalizing before with
  | case1 =>
    rw [ofLines] at h
    cases before <;> cases h
  | case2 l' ls isBlank ih =>
    rw [ofLines, if_pos isBlank] at h
    cases before with
    | nil => cases h
    | cons item before =>
      obtain ⟨rfl, rest⟩ := List.cons.inj h
      rw [List.flatMap_cons, List.append_assoc, lines, List.singleton_append, ofLines,
        if_pos isBlank, ih rest]
      rfl
  | case3 l' ls filled next items found continues ih =>
    rw [ofLines, if_neg filled, found] at h
    simp only [continues, if_true] at h
    cases before with
    | nil => cases h
    | cons item before =>
      obtain ⟨rfl, rfl⟩ := List.cons.inj h
      have back : ofLines ((Item.row next :: before).flatMap lines ++ c :: behind.flatMap lines) =
          (Item.row next :: before) ++ .blank c :: behind := ih found
      rw [List.flatMap_cons, List.append_assoc, lines, List.cons_append, ofLines, if_neg filled]
      rw [List.flatMap_cons, List.append_assoc, lines] at back
      rw [back]
      simp [continues]
  | case4 l' ls filled next items found begins ih =>
    rw [ofLines, if_neg filled, found] at h
    simp only [begins, Bool.false_eq_true, if_false] at h
    refine ofLines_blank_of_single blank filled found ?_ (fun before h => ih (found.trans h)) h
    rintro _ ⟨⟩
    simpa using begins
  | case5 l' ls filled noRow ih =>
    rw [ofLines_cons_of_noRow filled noRow] at h
    refine ofLines_blank_of_single blank filled rfl (fun s first => ?_) (fun before h => ih h) h
    obtain ⟨items, found⟩ := List.head?_eq_some_iff.1 first
    exact absurd found (noRow _ _)

end Item

namespace SectionLines

/-- Lines that are put together as sections are divided into these sections. -/
theorem ofText_eq {text : Text} {before : List Line} {ss : List SectionLines}
    (whole : linesOf (tokenize text) = before ++ ss.flatMap lines)
    (outside : ∀ l ∈ before, l.isHeading = false)
    (inside : ∀ s ∈ ss, s.heading.isHeading = true ∧ ∀ l ∈ s.body, l.isHeading = false) :
    linesBefore text = before ∧ ofText text = ss := by
  have divided : ∀ g ∈ ss.map fun s => (s.heading, s.body),
      g.1.isHeading = true ∧ ∀ l ∈ g.2, l.isHeading = false := by
    simpa [List.forall_mem_map] using inside
  have grouped := Sequence.groupAt_of_groups outside divided
  have same : (ss.map fun s => (s.heading, s.body)).flatMap (fun g => g.1 :: g.2) =
      ss.flatMap lines := List.flatMap_map ..
  rw [same, ← whole] at grouped
  rw [linesBefore, ofText, grouped, List.map_map]
  exact ⟨rfl, List.map_id ss⟩

/-- A line of a section may become a line that is no heading. -/
theorem ofText_replace {text text' : Text} {earlier later : List SectionLines} {s : SectionLines}
    {l c : Line} {front back : List Line} (body : s.body = front ++ l :: back)
    (sections : ofText text = earlier ++ s :: later)
    (whole : linesOf (tokenize text') = linesBefore text ++
      (earlier ++ ⟨s.heading, front ++ c :: back⟩ :: later).flatMap lines)
    (noHeading : c.isHeading = false) :
    linesBefore text' = linesBefore text ∧
      ofText text' = earlier ++ ⟨s.heading, front ++ c :: back⟩ :: later := by
  have inside : ∀ s ∈ ofText text, s.heading.isHeading = true ∧ ∀ l ∈ s.body, l.isHeading = false :=
    fun s hs => isHeading_of_mem_ofText hs
  simp only [sections, List.forall_mem_append, List.forall_mem_cons] at inside
  obtain ⟨before, ⟨begins, rest⟩, behind⟩ := inside
  simp only [body, List.forall_mem_append, List.forall_mem_cons] at rest
  refine ofText_eq whole (fun l hl => Sequence.of_mem_groupAt_fst hl) ?_
  simp only [List.forall_mem_append, List.forall_mem_cons]
  exact ⟨before, ⟨begins, rest.1, noHeading, rest.2.2⟩, behind⟩

/-- The lines before an item of a section. -/
def linesAhead (text : Text) (earlier : List SectionLines) (s : SectionLines) (front : List Item) :
    List Line :=
  linesBefore text ++ earlier.flatMap lines ++ s.heading :: front.flatMap Item.lines

/-- The lines behind an item of a section. -/
def linesBehind (back : List Item) (later : List SectionLines) : List Line :=
  back.flatMap Item.lines ++ later.flatMap lines

end SectionLines

namespace Text

/-- The text with other text in the place of some bytes. -/
def splice (t : Text) (s : Span) (new : Text) : Text :=
  takeBytes s.start t ++ (new ++ dropBytes s.stop t)

theorem splice_append (before piece new after : Text) :
    splice (before ++ (piece ++ after)) ⟨byteSize before, byteSize piece⟩ new =
      before ++ (new ++ after) := by
  have stop : (Span.mk (byteSize before) (byteSize piece)).stop = byteSize (before ++ piece) := by
    rw [byteSize_append]
    rfl
  have back := dropBytes_byteSize_append (before ++ piece) after
  rw [List.append_assoc] at back
  rw [splice, takeBytes_byteSize_append, stop, back]

end Text

namespace Node

variable {text : Text} {sec row : Node}

/-- A row of one line that imports something, among the lines and sections around it. -/
structure IsImportLine (text : Text) (sec row : Node) (earlier later : List SectionLines)
    (s : SectionLines) (l : Line) (front back : List Item) : Prop where
  sections : SectionLines.ofText text = earlier ++ s :: later
  sec_tree : sec.tree = s.parse.value
  sec_start : sec.start = Token.sizeOf ((SectionLines.linesBefore text ++
    earlier.flatMap SectionLines.lines).flatMap Line.tokens)
  kind : s.kind = .settings
  items : Item.ofLines s.body = front ++ .row ⟨l, []⟩ :: back
  row_tree : row.tree = (RowForm.parse RowForm.ofSetting ⟨l, []⟩).value
  row_start : row.start = sec.start + Token.sizeOf (s.heading.tokens ++ front.flatMap Item.tokens)

variable {earlier later : List SectionLines} {s : SectionLines} {l : Line} {front back : List Item}

/-- Only sections of settings import something. -/
theorem kind_of_mem_parseBody (inside : row.tree ∈ s.parseBody.value)
    (isImport : row.kind = .importing) : s.kind = .settings := by
  have other {kind : NodeKind} {children : List Tree} (same : row.tree = .node kind children)
      (differs : kind ≠ .importing) : False :=
    differs ((children_of_tree same).1.symm.trans isImport)
  have body := SectionLines.holds_of_mem_parseBody inside
  generalize kind : s.kind = kind at body
  generalize same : row.tree = t at body
  cases body with
  | gap gap =>
    have comment := kind_of_isGap (same ▸ gap)
    simp [isImport] at comment
  | setting r filled => rfl
  | variableRow r filled =>
    refine (other same ?_).elim
    dsimp only [RowForm.ofVariable]
    split <;> simp [RowForm.plain]
  | testCase _ d | keyword d =>
    obtain ⟨_, node, -⟩ := Definition.exists_parse _ d
    exact (other (same.trans node) (by simp)).elim
  | other _ r filled => exact (other same (by simp [RowForm.plain])).elim

/-- The lines around a row in a section. -/
theorem linesOf_of_items {r : Row}
    (sections : SectionLines.ofText text = earlier ++ s :: later)
    (items : Item.ofLines s.body = front ++ .row r :: back) :
    linesOf (tokenize text) = SectionLines.linesAhead text earlier s front ++
      r.head :: (r.continuations ++ SectionLines.linesBehind back later) := by
  have body : s.body = front.flatMap Item.lines ++
      (r.head :: r.continuations ++ back.flatMap Item.lines) := by
    rw [← Item.flatMap_lines_ofLines s.body, items, List.flatMap_append, List.flatMap_cons]
    rfl
  rw [← SectionLines.flatten_ofText, sections, List.flatMap_append, List.flatMap_cons,
    SectionLines.lines, body, SectionLines.linesAhead, SectionLines.linesBehind]
  simp

theorem exists_isImportLine (hsec : sec ∈ (parse text).value.root.sections)
    (hrow : row ∈ sec.nodesOf .importing) (single : '\n' ∉ row.text.dropLast) :
    ∃ earlier later s l front back, IsImportLine text sec row earlier later s l front back := by
  obtain ⟨mem, isImport⟩ := List.mem_filter.1 hrow
  have kind : row.kind = .importing := by simpa using isImport
  obtain ⟨earlier, s, later, sections, tree, start⟩ := exists_split_of_mem_sections hsec
  have children := (children_of_tree (tree.trans s.value_parse)).2
  have settings : s.kind = .settings := by
    have inside := tree_mem_of_mem_nodes mem
    rw [children] at inside
    refine kind_of_mem_parseBody ((List.mem_cons.1 inside).resolve_left fun heading => ?_) kind
    simp [(children_of_tree heading).1] at kind
  have body : s.parseBody = Item.parseAll RowForm.ofSetting (Item.ofLines s.body) := by
    rw [SectionLines.parseBody, settings]
  rw [nodes, children, body, Tree.nodesFrom] at mem
  have below := (List.mem_cons.1 mem).resolve_left fun same => by simp [same] at kind
  obtain ⟨front, r, back, items, rowTree, place⟩ :=
    Item.exists_of_mem_nodesFrom below (by simp [kind])
  have rowText : row.text = Token.textOf r.tokens := by
    rw [Node.text, (children_of_tree rowTree).2, Row.leavesOf_trees]
  have conts : r.continuations = [] := 
    eq_nil_of_single (linesOf_of_items sections items) (rowText ▸ single)
  obtain ⟨l, conts⟩ := r
  subst conts
  refine ⟨earlier, later, s, l, front, back, sections, tree, start, settings, items, rowTree, ?_⟩
  rw [place, Token.sizeOf_append, Line.leavesOf_bare, Nat.add_assoc]

/-- The node of a section that begins at an offset. -/
def ofSectionLines (start : Nat) (s : SectionLines) : Node :=
  ⟨start, .headed, .node .heading s.heading.bare :: s.parseBody.value⟩

/-- The sections of a document, around one of them. -/
theorem sections_root (sections : SectionLines.ofText text = earlier ++ s :: later) {start : Nat}
    (here : start = Token.sizeOf
      ((SectionLines.linesBefore text ++ earlier.flatMap SectionLines.lines).flatMap Line.tokens)) :
    (parse text).value.root.sections =
      ((Tree.nodesFrom (Token.sizeOf ((SectionLines.linesBefore text).flatMap Line.tokens))
          (earlier.map fun s => s.parse.value)).filter fun n => n.kind == .headed) ++
        ofSectionLines start s ::
          (Tree.nodesFrom (start + Token.sizeOf (s.lines.flatMap Line.tokens))
            (later.map fun s => s.parse.value)).filter fun n => n.kind == .headed := by
  have size : Token.sizeOf ((SectionLines.linesBefore text).flatMap Line.tokens) +
      Token.sizeOf (Tree.leavesOf (earlier.map fun s => s.parse.value)) = start := by
    rw [Tree.leavesOf_map SectionLines.leaves_parse, here, List.flatMap_append,
      Token.sizeOf_append, List.flatMap_assoc]
  have leaves : Token.sizeOf (Tree.leavesOf (.node .heading s.heading.bare :: s.parseBody.value)) =
      Token.sizeOf (s.lines.flatMap Line.tokens) := by
    rw [← s.leaves_parse, s.value_parse, Tree.leaves]
  rw [sections_eq, sections, List.map_append, List.map_cons, s.value_parse,
    Tree.nodesFrom_append, List.filter_append, size, Tree.nodesFrom, leaves]
  rfl

/-- The nodes of a section of settings, around an item of it. -/
theorem nodes_ofSectionLines {item : Item} (settings : s.kind = .settings)
    (items : Item.ofLines s.body = front ++ item :: back) {start place : Nat}
    (here : place = start + Token.sizeOf (s.heading.tokens ++ front.flatMap Item.tokens)) :
    (ofSectionLines start s).nodes = ⟨start, .heading, s.heading.bare⟩ ::
      (Tree.nodesFrom (start + Token.sizeOf s.heading.tokens)
          (Item.parseAll RowForm.ofSetting front).value ++
        (Tree.nodesFrom place (Item.parse RowForm.ofSetting item).value ++
          Tree.nodesFrom (place + Token.sizeOf item.tokens)
            (Item.parseAll RowForm.ofSetting back).value)) := by
  have body : s.parseBody.value = (Item.parseAll RowForm.ofSetting front).value ++
      ((Item.parse RowForm.ofSetting item).value ++
        (Item.parseAll RowForm.ofSetting back).value) := by
    rw [SectionLines.parseBody, settings]
    simp only [items, Item.value_parseAll, List.flatMap_append, List.flatMap_cons]
  rw [nodes, ofSectionLines, body, Tree.nodesFrom, Tree.nodesFrom_append, Tree.nodesFrom_append,
    Item.leavesOf_items, Item.leavesOf_parse, Line.leavesOf_bare, Nat.add_assoc start,
    ← Token.sizeOf_append, here]

namespace IsImportLine

variable (h : IsImportLine text sec row earlier later s l front back)

include h

theorem linesOf : linesOf (tokenize text) = SectionLines.linesAhead text earlier s front ++
    l :: SectionLines.linesBehind back later :=
  linesOf_of_items h.sections h.items

theorem body : s.body = front.flatMap Item.lines ++ l :: back.flatMap Item.lines := by
  rw [← Item.flatMap_lines_ofLines s.body, h.items, List.flatMap_append, List.flatMap_cons]
  rfl

theorem eq_ofSectionLines : sec = ofSectionLines sec.start s := by
  obtain ⟨kind, children⟩ := children_of_tree (h.sec_tree.trans s.value_parse)
  cases sec
  cases kind
  cases children
  rfl

theorem text_row : row.text = Token.textOf l.tokens := by
  rw [Node.text, (children_of_tree h.row_tree).2, Row.leavesOf_trees, Row.tokens,
    List.flatMap_nil, List.append_nil]

theorem start : row.start =
    Token.sizeOf ((SectionLines.linesAhead text earlier s front).flatMap Line.tokens) := by
  rw [h.row_start, h.sec_start, ← Token.sizeOf_append, ← Item.flatMap_tokens_lines,
    ← List.flatMap_cons, ← List.flatMap_append]
  rfl

/-- The bytes of the row are those of its line. -/
theorem splice_eq (comment : Text) : text.splice row.span comment =
    Token.textOf ((SectionLines.linesAhead text earlier s front).flatMap Line.tokens) ++
      (comment ++
        Token.textOf ((SectionLines.linesBehind back later).flatMap Line.tokens)) := by
  have written :
      Token.textOf ((RobotAnalysis.linesOf (tokenize text)).flatMap Line.tokens) = text := by
    rw [flatMap_tokens_linesOf, textOf_tokenize]
  rw [h.linesOf, List.flatMap_append, List.flatMap_cons, Token.textOf, List.flatMap_append,
    List.flatMap_append] at written
  have spliced := Text.splice_append
    (Token.textOf ((SectionLines.linesAhead text earlier s front).flatMap Line.tokens))
    (Token.textOf l.tokens) comment
    (Token.textOf ((SectionLines.linesBehind back later).flatMap Line.tokens))
  rw [Node.span, h.start, h.text_row, Token.sizeOf, ← spliced]
  exact congrArg (fun t => Text.splice t _ comment) written.symm

/-- Where the row becomes a comment the sections have the same lines otherwise. -/
theorem exists_comment {comment : Text} (isComment : Text.IsCommentFor row.text comment) :
    ∃ c : Line, c.isBlank = true ∧ Token.sizeOf c.tokens = Token.sizeOf l.tokens ∧
      SectionLines.linesBefore (text.splice row.span comment) = SectionLines.linesBefore text ∧
      SectionLines.ofText (text.splice row.span comment) = earlier ++
        ⟨s.heading, front.flatMap Item.lines ++ c :: back.flatMap Item.lines⟩ :: later := by
  obtain ⟨c, blank, -, size, lines⟩ := linesOf_comment h.linesOf (h.text_row ▸ isComment)
  rw [← h.splice_eq] at lines
  have noHeading : c.isHeading = false := by
    rw [Line.isBlank, List.isEmpty_iff] at blank
    rw [Line.isHeading, blank]
    simp
  refine ⟨c, blank, size, SectionLines.ofText_replace h.body h.sections ?_ noHeading⟩
  simpa [SectionLines.lines, SectionLines.linesAhead, SectionLines.linesBehind] using lines

end IsImportLine

/-- Whether a section holds what another one holds, with comments in the place of a row. -/
inductive CommentsOut (sec row : Node) : Node → Prop
  | mk {sec' heading : Node} {before comments behind : List Node} (kind : heading.kind = .heading)
      (old : sec.nodes = heading :: (before ++ row :: behind))
      (new : sec'.nodes = heading :: (before ++ (comments ++ behind)))
      (blank : ∀ n ∈ comments, n.kind = .comment) : CommentsOut sec row sec'

/-- In a section a row may become a blank line: only its node does. -/
theorem commentsOut_of_items {s' : SectionLines} {c : Line}
    (h : IsImportLine text sec row earlier later s l front back)
    (sameHeading : s'.heading = s.heading)
    (items : Item.ofLines s'.body = front ++ .blank c :: back)
    (size : Token.sizeOf c.tokens = Token.sizeOf l.tokens) :
    CommentsOut sec row (ofSectionLines sec.start s') := by
  have sameKind : s'.kind = s.kind :=
    congrArg (fun l : Line => HeadingKind.ofText l.cellsText) sameHeading
  have old := nodes_ofSectionLines h.kind h.items h.row_start
  have new := nodes_ofSectionLines (sameKind.trans h.kind) items (sameHeading ▸ h.row_start)
  have here : Tree.nodesFrom row.start
      (Item.parse RowForm.ofSetting (.row ⟨l, []⟩)).value = [row] := by
    change Tree.nodesFrom row.start [(RowForm.parse RowForm.ofSetting ⟨l, []⟩).value] = [row]
    rw [← h.row_tree]
    rfl
  have sizes : Token.sizeOf (Item.tokens (.blank c)) =
      Token.sizeOf (Item.tokens (.row ⟨l, []⟩)) := by
    simpa [Item.tokens, Row.tokens] using size
  rw [← h.eq_ofSectionLines, here] at old
  rw [sameHeading, sizes] at new
  refine .mk rfl old new fun n hn => ?_
  exact kind_of_isGap (Line.isGap_of_mem_bare (l := c)
    (tree_mem_of_mem_nodes (n := ⟨row.start, .error, c.bare⟩) hn))

/-- A row of one line that imports something may become a comment: only its node does. -/
theorem exists_commentsOut {comment : Text} (hsec : sec ∈ (parse text).value.root.sections)
    (hrow : row ∈ sec.nodesOf .importing) (single : '\n' ∉ row.text.dropLast)
    (isComment : Text.IsCommentFor row.text comment) :
    ∃ before behind sec', (parse text).value.root.sections = before ++ sec :: behind ∧
      (parse (text.splice row.span comment)).value.root.sections = before ++ sec' :: behind ∧
      CommentsOut sec row sec' := by
  obtain ⟨earlier, later, s, l, front, back, h⟩ := exists_isImportLine hsec hrow single
  obtain ⟨c, blank, size, sameBefore, sections⟩ := h.exists_comment isComment
  let s' : SectionLines := ⟨s.heading, front.flatMap Item.lines ++ c :: back.flatMap Item.lines⟩
  have items : Item.ofLines s'.body = front ++ .blank c :: back := Item.ofLines_blank blank h.items
  have sizes : Token.sizeOf (s'.lines.flatMap Line.tokens) =
      Token.sizeOf (s.lines.flatMap Line.tokens) := by
    simp only [SectionLines.lines, s', h.body, List.flatMap_append, List.flatMap_cons,
      Token.sizeOf_append, size]
  have old := sections_root h.sections h.sec_start
  have new := sections_root sections (sameBefore ▸ h.sec_start)
  rw [← h.eq_ofSectionLines] at old
  rw [sameBefore, sizes] at new
  exact ⟨_, _, _, old, new, commentsOut_of_items h rfl items size⟩

end Node

namespace Findings

variable {sec sec' row : Node}

theorem headingKind_of_commentsOut (h : sec.CommentsOut row sec') :
    sec'.headingKind = sec.headingKind := by
  obtain ⟨kind, old, new, -⟩ := h
  simp [Node.headingKind, Node.heading?, Node.nodesOf, old, new, kind]

theorem vars_ofImport (row : Node) : (ofImport row).vars = [] := by
  rw [ofImport]
  dsimp only
  split <;> rfl

/-- What is found in a section where a row that imports something has become a comment. -/
theorem exists_ofSection_of_commentsOut (h : sec.CommentsOut row sec')
    (isImport : row.kind = .importing) (settings : sec.headingKind = .settings) (file : FileId) :
    ∃ before behind, ofSection file sec = before ++ (ofImport row ++ behind) ∧
      ofSection file sec' = before ++ behind := by
  have sameKind := headingKind_of_commentsOut h
  obtain ⟨kind, old, new, blank⟩ := h
  rename_i heading before comments behind
  have noComments {kind : NodeKind} (differs : kind ≠ .comment) :
      (comments.filter fun n => n.kind == kind) = [] := by
    refine List.filter_eq_nil_iff.2 fun n hn => ?_
    simpa [blank n hn] using differs.symm
  have sameSettings : sec'.nodesOf .setting = sec.nodesOf .setting := by
    simp [Node.nodesOf, old, new, kind, isImport, noComments]
  have oldImports : sec.nodesOf .importing = (before.filter fun n => n.kind == .importing) ++
      row :: behind.filter fun n => n.kind == .importing := by
    simp [Node.nodesOf, old, kind, isImport]
  have newImports : sec'.nodesOf .importing = (before.filter fun n => n.kind == .importing) ++
      behind.filter fun n => n.kind == .importing := by
    simp [Node.nodesOf, new, kind, noComments]
  refine ⟨concat ((before.filter fun n => n.kind == .importing).map ofImport),
    concat ((behind.filter fun n => n.kind == .importing).map ofImport) ++
      concat ((sec.nodesOf .setting).map ofSetting), ?_, ?_⟩
  · rw [ofSection, settings]
    simp only [oldImports, List.map_append, List.map_cons, concat_append, concat_cons, append_assoc]
  · rw [ofSection, sameKind, settings]
    simp only [newImports, sameSettings, List.map_append, concat_append, append_assoc]

end Findings

namespace Document

/-- The rows that import something, in the order of the text. -/
def importRows (d : Document) : List Node :=
  (d.source.tree.root.sections.filter fun sec => sec.headingKind == .settings).flatMap fun sec =>
    sec.nodesOf .importing

/-- Whether a document declares and uses what another one does, apart from what a row imports and
the variables used there. -/
structure LacksImport (d : Document) (row : Node) (d' : Document) : Prop where
  id : d'.id = d.id
  keywords : d'.keywords = d.keywords
  testCases : d'.testCases = d.testCases
  vars : d'.vars = d.vars
  calls : d'.calls = d.calls
  imports : ∃ before behind, d.imports = before ++ ((Findings.ofImport row).imports ++ behind) ∧
    d'.imports = before ++ behind
  usages : ∃ before behind, d.usages = before ++ ((Findings.ofImport row).usages ++ behind) ∧
    d'.usages = before ++ behind

/-- A document in which a row of one line that imports something has become a comment. -/
theorem lacksImport {d d' : Document} {text comment : Text} {row : Node}
    (parsed : d.source.tree = (parse text).value) (hrow : row ∈ d.importRows)
    (single : '\n' ∉ row.text.dropLast) (isComment : Text.IsCommentFor row.text comment)
    (id : d'.id = d.id)
    (parsed' : d'.source.tree = (parse (text.splice row.span comment)).value) :
    d.LacksImport row d' := by
  obtain ⟨sec, hsec, hrow⟩ := List.mem_flatMap.1 hrow
  obtain ⟨hsec, settings⟩ := List.mem_filter.1 hsec
  rw [parsed] at hsec
  obtain ⟨before, behind, sec', old, new, commentsOut⟩ :=
    Node.exists_commentsOut hsec hrow single isComment
  have isImport : row.kind = .importing := by simpa using (List.mem_filter.1 hrow).2
  obtain ⟨front, back, found, found'⟩ := Findings.exists_ofSection_of_commentsOut commentsOut
    isImport (by simpa using settings) d.id
  have sections : d.sections = SectionModel.ofTree d.id (parse text).value := by
    rw [Document.sections, parsed]
  have sections' : d'.sections =
      SectionModel.ofTree d.id (parse (text.splice row.span comment)).value := by
    rw [Document.sections, parsed', id]
  rw [SectionModel.ofTree, old, List.map_append, List.map_cons, found] at sections
  rw [SectionModel.ofTree, new, List.map_append, List.map_cons, found'] at sections'
  have symbols := Findings.symbols_ofImport row
  -- Of all that is found in the row only imports and usages are left.
  have same {α : Type} (of : Findings → List α) (append : ∀ f g, of (f ++ g) = of f ++ of g)
      (nothing : of (Findings.ofImport row) = []) :
      (d'.sections.flatMap fun s => of s.found) = d.sections.flatMap fun s => of s.found := by
    simp only [sections, sections', List.flatMap_append, List.flatMap_cons, append, nothing,
      List.nil_append]
  have fewer {α : Type} (of : Findings → List α) (append : ∀ f g, of (f ++ g) = of f ++ of g) :
      ∃ before behind, (d.sections.flatMap fun s => of s.found) =
          before ++ (of (Findings.ofImport row) ++ behind) ∧
        (d'.sections.flatMap fun s => of s.found) = before ++ behind := by
    let findings := fun sec => of (Findings.ofSection d.id sec)
    refine ⟨before.flatMap findings ++ of front, of back ++ behind.flatMap findings, ?_, ?_⟩
    · simp only [sections, List.flatMap_append, List.flatMap_cons, List.flatMap_map, append,
        List.append_assoc, findings]
    · simp only [sections', List.flatMap_append, List.flatMap_cons, List.flatMap_map, append,
        List.append_assoc, findings]
  exact {
    id := id
    keywords := congrArg Keyword.distinct
      (same Findings.keywords (fun _ _ => rfl) (congrArg Findings.keywords symbols))
    testCases := same Findings.testCases (fun _ _ => rfl) (congrArg Findings.testCases symbols)
    vars := congrArg Variable.distinct
      (same Findings.vars (fun _ _ => rfl) (Findings.vars_ofImport row))
    calls := same Findings.calls (fun _ _ => rfl) (congrArg Findings.calls symbols)
    imports := fewer Findings.imports fun _ _ => rfl
    usages := fewer Findings.usages fun _ _ => rfl }

end Document

end RobotAnalysis
