import Mathlib.Data.List.TakeWhile
import RobotAnalysis.Proofs.EmittedRows
import RobotAnalysis.Proofs.TreeGrammar

/-!
# Emitting a whole document

Each loop of the emission reads the lines that parsing groups together: rows up to the next line
that does not continue them, definitions up to the line that begins the next one, sections up to the
next heading. So the emission of a text never gets stuck, and what the builder has been told at its
end is the parsed tree.
-/
namespace RobotAnalysis

namespace Item

/-- A row takes the continuation lines that follow it. -/
theorem ofLines_cons {l : Line} (filled : l.isBlank = false) (ls : List Line) :
    ofLines (l :: ls) = .row ⟨l, ls.takeWhile Line.isContinuation⟩ ::
      ofLines (ls.dropWhile Line.isContinuation) := by
  induction ls generalizing l with
  | nil => simp [ofLines, filled]
  | cons m ms ih =>
    rw [ofLines, if_neg (by simp [filled])]
    cases blank : m.isBlank with
    | true =>
      have stops : m.isContinuation = false := by
        by_contra continues
        rw [Line.isBlank_of_isContinuation (by simpa using continues)] at blank
        cases blank
      have items : ofLines (m :: ms) = .blank m :: ofLines ms := by rw [ofLines, if_pos blank]
      rw [items, List.takeWhile_cons_of_neg (by simp [stops]),
        List.dropWhile_cons_of_neg (by simp [stops]), items]
    | false =>
      rw [ih blank]
      cases continues : m.isContinuation with
      | true =>
        rw [List.takeWhile_cons_of_pos continues, List.dropWhile_cons_of_pos continues]
        simp only [continues, if_true]
      | false =>
        rw [List.takeWhile_cons_of_neg (by simp [continues]),
          List.dropWhile_cons_of_neg (by simp [continues]), ih blank]
        simp only [continues, Bool.false_eq_true, if_false]

theorem parseAll_cons (form : Row → RowForm) (item : Item) (items : List Item) :
    parseAll form (item :: items) =
      ⟨(parse form item).value ++ (parseAll form items).value,
        (parse form item).errors ++ (parseAll form items).errors⟩ := rfl

end Item

/-- The mark of a continuation line does not begin a heading. -/
theorem Line.isContinuation_of_isHeading {l : Line} (h : l.isHeading = true) :
    l.isContinuation = false := by
  by_contra continues
  have mark : l.cells.head? = some continuationMark := by
    simpa [isContinuation] using continues
  rw [isHeading, mark, Bool.and_eq_true] at h
  exact absurd h.2 (by decide)

namespace Definition

variable {l : Line} {name : List Token}

/-- The cell of a name. -/
def nameTree (name : List Token) : Tree := .node (.cell .definitionName) (name.map .leaf)

theorem nameLine_of_noCell {rest : List Part} (parts : l.parts = .cell name :: rest)
    (noCell : ∀ p ∈ rest, p.isCell = false) :
    nameLine l = nameTree name :: rest.flatMap Part.bare := by
  have row : (rest.dropWhile fun p => !p.isCell) = [] := by
    refine List.dropWhile_eq_nil_iff.2 fun p hp => ?_
    simp [noCell p hp]
  rw [nameLine, parts]
  simp only [row]
  rfl

theorem nameLine_of_cell {gaps row : List Part} {first : List Token}
    (parts : l.parts = .cell name :: (gaps ++ .cell first :: row))
    (noCell : ∀ p ∈ gaps, p.isCell = false) :
    nameLine l = nameTree name :: (gaps.flatMap Part.bare ++
      [.node (RowForm.shapeInBody (Token.textOf first)).1
        ((Roles.start (RowForm.shapeInBody (Token.textOf first)).2).assign
          (.cell first :: row)).1]) := by
  have all : ∀ p ∈ gaps, (!p.isCell) = true := fun p hp => by simp [noCell p hp]
  have before : (gaps ++ .cell first :: row).takeWhile (fun p => !p.isCell) = gaps := by
    rw [List.takeWhile_append_of_pos all]
    exact List.append_nil _
  have after : (gaps ++ .cell first :: row).dropWhile (fun p => !p.isCell) =
      .cell first :: row := by
    rw [List.dropWhile_append_of_pos all]
    rfl
  rw [nameLine, parts]
  simp only [before, after]
  rfl

/-- The lines of a definition: the first one may be any line of a section, the others do not begin
the next definition. -/
structure IsBlock (d : Definition) : Prop where
  filled : d.first.isBlank = false
  noHeading : d.first.isHeading = false
  body : ∀ l ∈ d.body, begins l = false ∧ l.isHeading = false

def lines (d : Definition) : List Line := d.first :: d.body

/-- Dividing a section into blank lines and definitions loses no line. -/
theorem ofLines_flatten (ls : List Line) :
    (ofLines ls).1 ++ (ofLines ls).2.flatMap lines = ls := by
  rw [ofLines]
  split
  · exact List.append_nil _
  · rename_i first rest found
    have split := List.takeWhile_append_dropWhile (p := Line.isBlank) (l := ls)
    rw [found] at split
    calc
      _ = ls.takeWhile Line.isBlank ++ first :: ((Sequence.groupAt begins rest).1 ++
            (Sequence.groupAt begins rest).2.flatMap fun g => g.1 :: g.2) := by
          simp [lines, List.flatMap_map]
      _ = ls.takeWhile Line.isBlank ++ first :: rest := by
          rw [Sequence.groupAt_flatten begins rest]
      _ = ls := split

/-- A definition after the first one begins at a line that ends the one before it. -/
theorem isBlock_of_mem_groupAt {ls : List Line} (noHeading : ∀ l ∈ ls, l.isHeading = false)
    {g : Line × List Line} (hg : g ∈ (Sequence.groupAt begins ls).2) :
    IsBlock ⟨g.1, g.2⟩ ∧ begins g.1 = true := by
  obtain ⟨start, tail⟩ := Sequence.of_mem_groupAt_snd hg
  have mem : ∀ l ∈ g.1 :: g.2, l ∈ ls := by
    intro l hl
    rw [← Sequence.groupAt_flatten begins ls]
    exact List.mem_append_right _ (List.mem_flatMap.2 ⟨g, hg, hl⟩)
  have filled : g.1.isBlank = false := by
    rw [begins, Bool.and_eq_true, Bool.and_eq_true] at start
    simpa using start.1.1
  refine ⟨⟨filled, noHeading _ (mem _ List.mem_cons_self), fun l hl => ?_⟩, start⟩
  exact ⟨tail l hl, noHeading l (mem l (List.mem_cons_of_mem _ hl))⟩

/-- A section begins with blank lines, and its definitions follow. -/
theorem ofLines_spec {ls : List Line} (noHeading : ∀ l ∈ ls, l.isHeading = false) :
    (∀ l ∈ (ofLines ls).1, l.isBlank = true) ∧ (∀ d ∈ (ofLines ls).2, d.IsBlock) ∧
      ∀ d ∈ (ofLines ls).2.tail, begins d.first = true := by
  rw [ofLines]
  split
  · rename_i blank
    exact ⟨fun l hl => List.dropWhile_eq_nil_iff.1 blank l hl, nofun, nofun⟩
  · rename_i first rest found
    have filled := List.head?_dropWhile_not Line.isBlank ls
    have inside : ∀ l ∈ first :: rest, l.isHeading = false := by
      intro l hl
      rw [← found] at hl
      exact noHeading l (List.dropWhile_subset _ hl)
    rw [found] at filled
    obtain ⟨firstInside, restInside⟩ := List.forall_mem_cons.1 inside
    have body : ∀ l ∈ (Sequence.groupAt begins rest).1,
        begins l = false ∧ l.isHeading = false := by
      intro l hl
      refine ⟨Sequence.of_mem_groupAt_fst hl, restInside l ?_⟩
      rw [← Sequence.groupAt_flatten begins rest]
      exact List.mem_append_left _ hl
    refine ⟨fun l hl => List.all_eq_true.1 List.all_takeWhile l hl, ?_, ?_⟩
    · refine List.forall_mem_cons.2 ⟨⟨filled, firstInside, body⟩, fun d hd => ?_⟩
      obtain ⟨g, hg, rfl⟩ := List.mem_map.1 hd
      exact (isBlock_of_mem_groupAt restInside hg).1
    · intro d hd
      obtain ⟨g, hg, rfl⟩ := List.mem_map.1 hd
      exact (isBlock_of_mem_groupAt restInside hg).2

end Definition

namespace SectionLines

def lines (s : SectionLines) : List Line := s.heading :: s.body

/-- A section begins with its heading and has no other heading in its body. -/
structure IsBlock (s : SectionLines) : Prop where
  heading : s.heading.isHeading = true
  body : ∀ l ∈ s.body, l.isHeading = false

/-- The lines of a text are those before the first heading and those of the sections. -/
theorem flatten_ofText (text : Text) :
    linesBefore text ++ (ofText text).flatMap lines = linesOf (tokenize text) := by
  rw [ofText, List.flatMap_map]
  exact Sequence.groupAt_flatten Line.isHeading _

end SectionLines

namespace Emission

variable {tokens : List Token} {e : Emission} {done : List BuilderCall} {l : Line}
  {ls after : List Line} {errors : List SyntaxError}

/-- An emitter of rows that makes of a row what parsing makes of it. -/
def EmitsRows (tokens : List Token) (form : Row → RowForm)
    (emit : LineEntry → Emission → Option Emission) : Prop :=
  ∀ {e : Emission} {l : Line} {ls : List Line} {done : List BuilderCall}
    {errors : List SyntaxError}, l.isBlank = false → Stands tokens e (l :: ls) done errors →
    ∃ e', emit (LineEntry.ofLine e.pos l) e = some e' ∧
      Stands tokens e' (ls.dropWhile Line.isContinuation)
        (done ++ Tree.callsOf
          [(RowForm.parse form ⟨l, ls.takeWhile Line.isContinuation⟩).value])
        (errors ++ (RowForm.parse form ⟨l, ls.takeWhile Line.isContinuation⟩).errors)

theorem Stands.emitPlain (h : Stands tokens e (l :: ls) done errors) :
    ∃ e', e.emitPlain tokens (LineEntry.ofLine e.pos l) = some e' ∧
      Stands tokens e' (ls.dropWhile Line.isContinuation)
        (done ++ Tree.callsOf [.node .otherRow
          ((Row.mk l (ls.takeWhile Line.isContinuation)).trees .other)]) errors := by
  obtain ⟨e', emitted, stands⟩ := h.emitRow .otherRow .other
  refine ⟨e', ?_, stands⟩
  rw [Emission.emitPlain, emitted]
  rfl

theorem emitsRows_plain : EmitsRows tokens (fun _ => .plain []) (emitPlain tokens) := by
  intro e l ls done errors _ h
  obtain ⟨e', emitted, stands⟩ := h.emitPlain
  refine ⟨e', emitted, ?_⟩
  rw [RowForm.parse, RowForm.plain, List.map_nil, List.append_nil]
  exact stands

theorem emitsRows_variable : EmitsRows tokens RowForm.ofVariable (emitVariable tokens) := by
  intro e l ls done errors filled h
  obtain ⟨c, first, text⟩ := LineEntry.exists_head?_cells (i := e.pos) filled
  have name : (Row.mk l (ls.takeWhile Line.isContinuation)).name = c.text := text.symm
  rw [emitVariable, LineEntry.isContinuation_ofLine, RowForm.parse, RowForm.ofVariable, name]
  by_cases alone : l.isContinuation = true
  · obtain ⟨e', emitted, stands⟩ := (h.report .variableContinuationAlone e.pos l).emitPlain
    rw [if_pos alone, if_pos alone]
    exact ⟨e', emitted, stands⟩
  · rw [if_neg alone, if_neg alone, first]
    simp only [Option.bind_eq_bind, Option.bind_some]
    by_cases whole : VariableToken.isWholeCell c.text = true
    · obtain ⟨e', emitted, stands⟩ := h.emitRow .variableRow .variableRow
      rw [if_pos whole, if_pos whole, emitted, List.map_nil, List.append_nil]
      exact ⟨e', rfl, stands⟩
    · obtain ⟨e', emitted, stands⟩ :=
        (h.report (.invalidVariableName c.text) e.pos l).emitRow .variableRow .variableRow
      rw [pos_report] at emitted
      rw [if_neg whole, if_neg whole, emitted]
      exact ⟨e', rfl, stands⟩

theorem emitsRows_body : EmitsRows tokens RowForm.ofBody (emitBodyRow tokens) := by
  intro e l ls done errors filled h
  obtain ⟨c, first, text⟩ := LineEntry.exists_head?_cells (i := e.pos) filled
  have name : (Row.mk l (ls.takeWhile Line.isContinuation)).name = c.text := text.symm
  rw [emitBodyRow, first, RowForm.parse, RowForm.ofBody, name]
  simp only [Option.bind_eq_bind, Option.bind_some]
  by_cases unknown : (Reserved.isBracketed c.text &&
      !Reserved.isKnownBracketSetting c.text) = true
  · obtain ⟨e', emitted, stands⟩ :=
      (h.report (.unknownSetting c.text) e.pos l).emitRow
        (RowForm.shapeInBody c.text).1 (RowForm.shapeInBody c.text).2
    rw [pos_report] at emitted
    rw [if_pos unknown, if_pos unknown, emitted]
    exact ⟨e', rfl, stands⟩
  · obtain ⟨e', emitted, stands⟩ := h.emitRow
      (RowForm.shapeInBody c.text).1 (RowForm.shapeInBody c.text).2
    rw [if_neg unknown, if_neg unknown, emitted, List.map_nil, List.append_nil]
    exact ⟨e', rfl, stands⟩

theorem emitsRows_setting : EmitsRows tokens RowForm.ofSetting (emitSetting tokens) := by
  intro e l ls done errors filled h
  obtain ⟨c, first, text⟩ := LineEntry.exists_head?_cells (i := e.pos) filled
  have name : (Row.mk l (ls.takeWhile Line.isContinuation)).name = c.text := text.symm
  rw [emitSetting, first, RowForm.parse, RowForm.ofSetting, name]
  simp only [Option.bind_eq_bind, Option.bind_some, LineEntry.isContinuation_ofLine]
  by_cases alone : l.isContinuation = true
  · obtain ⟨e', emitted, stands⟩ := (h.report .settingContinuationAlone e.pos l).emitPlain
    rw [if_pos alone, if_pos alone]
    exact ⟨e', emitted, stands⟩
  · rw [if_neg alone, if_neg alone]
    by_cases importing : Reserved.isImportSetting c.text = true
    · obtain ⟨e', emitted, stands⟩ := h.emitRow .importing .importing
      have count : ((Roles.start .importing).after
          (Row.mk l (ls.takeWhile Line.isContinuation)).cells).index =
            (Row.mk l (ls.takeWhile Line.isContinuation)).cellCount := by
        rw [Roles.index_after, Row.length_cells]
        exact Nat.zero_add _
      rw [if_pos importing, if_pos importing, emitted]
      simp only [Option.bind_some, count]
      by_cases few : (Row.mk l (ls.takeWhile Line.isContinuation)).cellCount < 2
      · rw [if_pos few, if_pos few]
        exact ⟨_, rfl, stands.report (.importWithoutName c.text) e.pos l⟩
      · rw [if_neg few, if_neg few, List.map_nil, List.append_nil]
        exact ⟨e', rfl, stands⟩
    · obtain ⟨e', emitted, stands⟩ := h.emitRow .setting
        (.setting (Reserved.isFixtureSetting c.text))
      rw [if_neg importing, if_neg importing, emitted, List.map_nil, List.append_nil]
      exact ⟨e', rfl, stands⟩

/-- A row that begins after some gaps inside a line. -/
theorem CaughtUp.emitRowFrom {line : LineEntry} {i : Nat} {name : CellRange} {gaps row : List Part}
    {first more : List Token} (h : CaughtUp tokens e i done)
    (left : line.Remains tokens i (gaps ++ .cell first :: row) more)
    (cells : line.cells = name :: Part.cellRanges i (gaps ++ .cell first :: row))
    (noCell : ∀ p ∈ gaps, p.isCell = false) (kind : NodeKind) (shape : RowShape) :
    ((e.bumpUntil tokens (i + (gaps.flatMap Part.tokens).length)).bind fun e =>
        ((e.start kind).emitLine tokens 1 line (.start shape)).bind fun s => some s.2.finish) =
      some { e with
        pos := line.stop
        rest := e.rest.tail
        calls := done ++ Tree.callsOf (gaps.flatMap Part.bare ++
          [.node kind ((Roles.start shape).assign (.cell first :: row)).1]) } := by
  have noComment := left.order.noComment
  have ahead := left.ahead
  rw [List.flatMap_append, List.append_assoc] at ahead
  have rest : line.cells.drop 1 =
      Part.cellRanges (i + (gaps.flatMap Part.tokens).length) (.cell first :: row) := by
    rw [cells, Part.cellRanges_append, Part.cellRanges_eq_nil i noCell]
    rfl
  have begun := caughtUp_pos tokens (Emission.start kind { e with
    pos := i + (gaps.flatMap Part.tokens).length
    calls := done ++ Tree.callsOf (gaps.flatMap Part.bare) })
  rw [(h.bare noComment ahead).bumpUntil, Option.bind_some,
    begun.emitLine (left.of_append noComment) rest, Option.bind_some]
  simp [finish, start, Tree.callsOf_append, Tree.callsOf_singleton, Tree.calls]

namespace Stands

/-- A round of a loop that passes a line is followed by the rest of the loop. -/
theorem round {condition : LineEntry → Bool} {step : LineEntry → Emission → Option Emission}
    {e' : Emission} {ls' : List Line} {done' : List BuilderCall} {errors' : List SyntaxError}
    (h : Stands tokens e (l :: ls) done errors) (h' : Stands tokens e' ls' done' errors')
    (yes : condition (LineEntry.ofLine e.pos l) = true)
    (stepped : step (LineEntry.ofLine e.pos l) e = some e') (shorter : ls'.length ≤ ls.length) :
    whileLine Emission.rest condition step e = whileLine Emission.rest condition step e' := by
  refine whileLine_step h.rest_cons yes stepped ?_
  rw [h.length_rest, h'.length_rest]
  exact Nat.lt_succ_of_le shorter

/-- A loop passes lines of which every one is passed in a single round. -/
theorem passLines {condition : LineEntry → Bool} {step : LineEntry → Emission → Option Emission}
    {bs : List Line} (inside : ∀ l ∈ bs, ∀ i, condition (LineEntry.ofLine i l) = true)
    (each : ∀ l ∈ bs, ∀ i, step (LineEntry.ofLine i l) =
      Emission.finishLine tokens (LineEntry.ofLine i l))
    (h : Stands tokens e (bs ++ after) done errors) :
    ∃ e', whileLine Emission.rest condition step e = whileLine Emission.rest condition step e' ∧
      Stands tokens e' after (done ++ Tree.callsOf (bs.flatMap Line.bare)) errors := by
  induction bs generalizing e done with
  | nil => exact ⟨e, rfl, by simpa [Tree.callsOf] using h⟩
  | cons l bs ih =>
    obtain ⟨yes, insideRest⟩ := List.forall_mem_cons.1 inside
    obtain ⟨first, eachRest⟩ := List.forall_mem_cons.1 each
    obtain ⟨e₁, passed, stands⟩ := h.finishLine
    obtain ⟨e₂, rest, final⟩ := ih insideRest eachRest stands
    have stepped : step (LineEntry.ofLine e.pos l) e = some e₁ := by rw [first, passed]
    refine ⟨e₂, ?_, ?_⟩
    · rw [h.round stands (yes e.pos) stepped (Nat.le_refl _), rest]
    · rw [List.flatMap_cons, Tree.callsOf_append, ← List.append_assoc]
      exact final

/-- The head of the lines that follow decides whether a loop ends before them. -/
theorem whileLine_end {condition : LineEntry → Bool} {step : LineEntry → Emission → Option Emission}
    (outside : ∀ l, ls.head? = some l → ∀ i, condition (LineEntry.ofLine i l) = false)
    (h : Stands tokens e ls done errors) :
    whileLine Emission.rest condition step e = some e := by
  cases ls with
  | nil => exact whileLine_nil h.rest_nil
  | cons l ls => exact whileLine_stop h.rest_cons (outside l rfl e.pos)

/-- A loop over rows makes of the lines it reads what parsing makes of them. -/
theorem emitItems {form : Row → RowForm} {emit : LineEntry → Emission → Option Emission}
    (emits : EmitsRows tokens form emit) {condition : LineEntry → Bool} {e : Emission}
    {bs : List Line} {done : List BuilderCall} {errors : List SyntaxError}
    (inside : ∀ l ∈ bs, ∀ i, condition (LineEntry.ofLine i l) = true)
    (outside : ∀ l, after.head? = some l →
      l.isContinuation = false ∧ ∀ i, condition (LineEntry.ofLine i l) = false)
    (h : Stands tokens e (bs ++ after) done errors) :
    ∃ e', whileLine Emission.rest condition (emitItem tokens emit) e = some e' ∧
      Stands tokens e' after
        (done ++ Tree.callsOf (Item.parseAll form (Item.ofLines bs)).value)
        (errors ++ (Item.parseAll form (Item.ofLines bs)).errors) := by
  match bs with
  | [] =>
    refine ⟨e, h.whileLine_end fun l head => (outside l head).2, ?_⟩
    simpa [Item.ofLines, Item.parseAll, Parsed.sequence, Tree.callsOf] using h
  | l :: bs =>
    obtain ⟨yes, insideRest⟩ := List.forall_mem_cons.1 inside
    have h : Stands tokens e (l :: (bs ++ after)) done errors := h
    cases blank : l.isBlank with
    | true =>
      have items : Item.ofLines (l :: bs) = .blank l :: Item.ofLines bs := by
        rw [Item.ofLines, if_pos blank]
      obtain ⟨e₁, passed, stands⟩ := h.finishLine
      obtain ⟨e₂, rest, final⟩ := emitItems emits insideRest outside stands
      have stepped : emitItem tokens emit (LineEntry.ofLine e.pos l) e = some e₁ := by
        rw [emitItem, LineEntry.isBlank_ofLine, if_pos blank, passed]
      refine ⟨e₂, ?_, ?_⟩
      · rw [h.round stands (yes e.pos) stepped (Nat.le_refl _), rest]
      · rw [items, Item.parseAll_cons, Tree.callsOf_append, ← List.append_assoc]
        exact final
    | false =>
      -- A row takes its continuation lines along, so the rest is not the tail of the lines. None of
      -- them lies beyond the lines of the loop, because the line after these does not continue.
      obtain ⟨taken, dropped⟩ := Sequence.takeWhile_append_of_head? bs
        (p := Line.isContinuation) (m := after) fun m head => (outside m head).1
      obtain ⟨e₁, emitted, stands⟩ := emits blank h
      rw [taken, dropped] at stands
      have insideDropped : ∀ m ∈ bs.dropWhile Line.isContinuation, ∀ i,
          condition (LineEntry.ofLine i m) = true :=
        fun m hm => insideRest m (List.dropWhile_subset _ hm)
      obtain ⟨e₂, rest, final⟩ := emitItems emits insideDropped outside stands
      have stepped : emitItem tokens emit (LineEntry.ofLine e.pos l) e = some e₁ := by
        rw [emitItem, LineEntry.isBlank_ofLine, if_neg (by simp [blank]), emitted]
      have shorter : (bs.dropWhile Line.isContinuation ++ after).length ≤ (bs ++ after).length := by
        rw [List.length_append, List.length_append]
        exact Nat.add_le_add_right (List.dropWhile_suffix _).length_le _
      refine ⟨e₂, ?_, ?_⟩
      · rw [h.round stands (yes e.pos) stepped shorter, rest]
      · rw [Item.ofLines_cons blank, Item.parseAll_cons, Tree.callsOf_append, ← List.append_assoc,
          ← List.append_assoc]
        exact final
termination_by bs.length
decreasing_by
  · exact Nat.lt_succ_of_le (List.dropWhile_suffix _).length_le
  · exact Nat.lt_succ_self _

/-- The line that names a definition is emitted as its name and the row after it. -/
theorem emitNameLine (h : Stands tokens e (l :: ls) done errors) (filled : l.isBlank = false)
    (outside : l.isIndented = false) :
    ∃ e', e.emitNameLine tokens (LineEntry.ofLine e.pos l) = some e' ∧
      Stands tokens e' ls (done ++ Tree.callsOf (Definition.nameLine l)) errors := by
  obtain ⟨name, rest, parts⟩ := (h.ordered l List.mem_cons_self).begins filled outside
  have whole := h.remains
  rw [parts] at whole
  have left : (LineEntry.ofLine e.pos l).Remains tokens (e.pos + name.length) rest _ :=
    whole.of_cons (by simp)
  have ahead : tokens.drop e.pos =
      name ++ (rest.flatMap Part.tokens ++ ls.flatMap Line.tokens) := whole.ahead_cons
  have cells : (LineEntry.ofLine e.pos l).cells =
      ⟨e.pos, e.pos + name.length, Token.textOf name⟩ ::
        Part.cellRanges (e.pos + name.length) rest := by
    rw [LineEntry.ofLine, parts]
    rfl
  obtain ⟨e₁, named, caught, sameRest, sameErrors⟩ :
      ∃ e₁, e.emitRange tokens (.cell .definitionName) e.pos (e.pos + name.length) = some e₁ ∧
        CaughtUp tokens e₁ (e.pos + name.length)
          (done ++ Tree.callsOf [Definition.nameTree name]) ∧
        e₁.rest = e.rest ∧ e₁.errors = e.errors :=
    ⟨_, h.caughtUp.emitRange ahead _, caughtUp_pos _ _, rfl, rfl⟩
  have passed : (LineEntry.ofLine e.pos l).stop = e.pos + l.tokens.length := rfl
  -- The second cell begins a row; without one the line ends after the name.
  rw [Emission.emitNameLine, cells]
  simp only [List.head?_cons, Option.bind_eq_bind, Option.bind_some, named, List.getElem?_cons_succ]
  cases found : (rest.filterMap Part.cellText?).isEmpty with
  | true =>
    have noCell : ∀ p ∈ rest, p.isCell = false := by
      intro p hp
      have none := List.filterMap_eq_nil_iff.1 (List.isEmpty_iff.1 found) p hp
      rw [Part.isCell, none]
      rfl
    rw [Part.cellRanges_eq_nil _ noCell, Definition.nameLine_of_noCell parts noCell,
      Tree.callsOf_cons, ← List.append_assoc]
    exact ⟨_, caught.finishLine left, h.pass passed (congrArg List.tail sameRest) sameErrors⟩
  | false =>
    obtain ⟨gaps, first, row, -, rfl, noCell⟩ := Part.exists_first_cell found
    have second : (Part.cellRanges (e.pos + name.length) (gaps ++ .cell first :: row))[0]? =
        some ⟨e.pos + name.length + (gaps.flatMap Part.tokens).length,
          e.pos + name.length + (gaps.flatMap Part.tokens).length + first.length,
          Token.textOf first⟩ := by
      rw [Part.cellRanges_append, Part.cellRanges_eq_nil _ noCell]
      rfl
    rw [second, Definition.nameLine_of_cell parts noCell, Tree.callsOf_cons, ← List.append_assoc]
    exact ⟨_, caught.emitRowFrom left cells noCell _ _,
      h.pass passed (congrArg List.tail sameRest) sameErrors⟩

end Stands

theorem isInSection_ofLine (i : Nat) (l : Line) :
    isInSection (LineEntry.ofLine i l) = !l.isHeading := by
  rw [isInSection, LineEntry.isHeading_ofLine]

theorem isInBody_ofLine (i : Nat) (l : Line) :
    isInBody (LineEntry.ofLine i l) = (!l.isHeading && !Definition.begins l) := by
  rw [isInBody, LineEntry.isHeading_ofLine, LineEntry.isBlank_ofLine,
    LineEntry.isContinuation_ofLine, Definition.begins]
  simp only [Bool.not_and, Bool.not_not]
  rfl

theorem isInBody_of_mem_body {d : Definition} (block : d.IsBlock) {l : Line} (hl : l ∈ d.body)
    (i : Nat) : isInBody (LineEntry.ofLine i l) = true := by
  obtain ⟨noStart, noHeading⟩ := block.body l hl
  rw [isInBody_ofLine, noStart, noHeading]
  rfl

/-- A definition ends where the next one or the next section begins. -/
theorem isInBody_of_end {l : Line} (h : Definition.begins l = true ∨ l.isHeading = true) :
    l.isContinuation = false ∧ ∀ i, isInBody (LineEntry.ofLine i l) = false := by
  rcases h with start | heading
  · have apart : l.isContinuation = false := by
      rw [Definition.begins, Bool.and_eq_true] at start
      simpa using start.2
    refine ⟨apart, fun i => ?_⟩
    rw [isInBody_ofLine, start]
    exact Bool.and_false _
  · refine ⟨Line.isContinuation_of_isHeading heading, fun i => ?_⟩
    rw [isInBody_ofLine, heading]
    rfl

namespace Stands

/-- A definition passes its lines and becomes the node that parsing makes of it. -/
theorem emitDefinition (kind : NodeKind) {d : Definition} (block : d.IsBlock)
    (outside : ∀ l, after.head? = some l → Definition.begins l = true ∨ l.isHeading = true)
    (h : Stands tokens e (d.first :: (d.body ++ after)) done errors) :
    ∃ e', e.emitDefinition tokens kind (LineEntry.ofLine e.pos d.first) = some e' ∧
      Stands tokens e' after (done ++ Tree.callsOf [(Definition.parse kind d).value])
        (errors ++ (Definition.parse kind d).errors) := by
  have inside : ∀ l ∈ d.body, ∀ i, isInBody (LineEntry.ofLine i l) = true :=
    fun l hl => isInBody_of_mem_body block hl
  have ends : ∀ l, after.head? = some l →
      l.isContinuation = false ∧ ∀ i, isInBody (LineEntry.ofLine i l) = false :=
    fun l head => isInBody_of_end (outside l head)
  rw [Emission.emitDefinition, Definition.parse]
  -- An indented first line stays where it is and becomes the first row of the body.
  by_cases indented : d.first.isIndented = true
  · have field : (LineEntry.ofLine e.pos d.first).indented = true := indented
    have first : ∀ i, isInBody (LineEntry.ofLine i d.first) = true := by
      intro i
      rw [isInBody_ofLine, block.noHeading, Definition.begins, indented]
      simp
    let fault := if kind = .testCase then SyntaxFault.missingTestCaseName else .missingKeywordName
    have reported : Stands tokens ((e.start kind).report fault (LineEntry.ofLine e.pos d.first))
        ((d.first :: d.body) ++ after) (done ++ [.start kind])
        (errors ++ [⟨fault, d.first.span⟩]) := (h.start kind).report fault e.pos d.first
    obtain ⟨e₁, looped, stands⟩ :=
      emitItems emitsRows_body (List.forall_mem_cons.2 ⟨first, inside⟩) ends reported
    rw [if_pos indented, if_pos field]
    simp only [Option.bind_eq_bind, Option.bind_some]
    refine ⟨e₁.finish, by rw [looped]; rfl, ?_⟩
    have final := stands.finish
    rw [Tree.append_callsOf_node, List.append_assoc] at final
    exact final
  · have field : ¬ (LineEntry.ofLine e.pos d.first).indented = true := indented
    obtain ⟨e₁, named, begun⟩ :=
      (h.start kind).emitNameLine block.filled (by simpa using indented)
    obtain ⟨e₂, looped, stands⟩ := emitItems emitsRows_body inside ends begun
    rw [pos_start] at named
    rw [if_neg indented, if_neg field]
    simp only [Option.bind_eq_bind]
    refine ⟨e₂.finish, by rw [named, Option.bind_some, looped]; rfl, ?_⟩
    rw [← Tree.append_callsOf_node, Tree.callsOf_append, ← List.append_assoc]
    exact stands.finish

/-- A loop over the lines of definitions makes of them what parsing makes of the definitions. -/
theorem emitDefinitions (kind : NodeKind) {ds : List Definition} (blocks : ∀ d ∈ ds, d.IsBlock)
    (begins : ∀ d ∈ ds.tail, Definition.begins d.first = true)
    (outside : ∀ l, after.head? = some l → l.isHeading = true)
    (h : Stands tokens e (ds.flatMap Definition.lines ++ after) done errors) :
    ∃ e', whileLine Emission.rest isInSection
        (emitItem tokens (Emission.emitDefinition tokens kind)) e = some e' ∧
      Stands tokens e' after
        (done ++ Tree.callsOf (Parsed.sequence (ds.map (Definition.parse kind))).value)
        (errors ++ (Parsed.sequence (ds.map (Definition.parse kind))).errors) := by
  induction ds generalizing e done errors with
  | nil =>
    refine ⟨e, h.whileLine_end fun l head i => ?_, ?_⟩
    · rw [isInSection_ofLine, outside l head]
      rfl
    · simpa [Parsed.sequence, Tree.callsOf] using h
  | cons d ds ih =>
    obtain ⟨block, restBlocks⟩ := List.forall_mem_cons.1 blocks
    have restBegins : ∀ d ∈ ds.tail, Definition.begins d.first = true :=
      fun d hd => begins d (List.mem_of_mem_tail hd)
    have next : ∀ l, (ds.flatMap Definition.lines ++ after).head? = some l →
        Definition.begins l = true ∨ l.isHeading = true := by
      intro l head
      cases ds with
      | nil => exact .inr (outside l head)
      | cons d' ds =>
        cases head
        exact .inl (begins d' List.mem_cons_self)
    have h : Stands tokens e (d.first :: (d.body ++ (ds.flatMap Definition.lines ++ after)))
        done errors := by
      simpa [Definition.lines] using h
    obtain ⟨e₁, emitted, stands⟩ := h.emitDefinition kind block next
    obtain ⟨e₂, rest, final⟩ := ih restBlocks restBegins stands
    have yes : isInSection (LineEntry.ofLine e.pos d.first) = true := by
      rw [isInSection_ofLine, block.noHeading]
      rfl
    have stepped : emitItem tokens (Emission.emitDefinition tokens kind)
        (LineEntry.ofLine e.pos d.first) e = some e₁ := by
      rw [emitItem, LineEntry.isBlank_ofLine, if_neg (by simp [block.filled]), emitted]
    have shorter : (ds.flatMap Definition.lines ++ after).length ≤
        (d.body ++ (ds.flatMap Definition.lines ++ after)).length :=
      (List.sublist_append_right _ _).length_le
    refine ⟨e₂, ?_, ?_⟩
    · rw [h.round stands yes stepped shorter, rest]
    · rw [List.map_cons, Parsed.sequence, Tree.callsOf_cons, ← List.append_assoc,
        ← List.append_assoc]
      exact final

section Bodies

variable {bs : List Line} (noHeading : ∀ l ∈ bs, l.isHeading = false)
  (outside : ∀ l, after.head? = some l → l.isHeading = true)
  (h : Stands tokens e (bs ++ after) done errors)

include noHeading in
theorem isInSection_of_mem {l : Line} (hl : l ∈ bs) (i : Nat) :
    isInSection (LineEntry.ofLine i l) = true := by
  rw [isInSection_ofLine, noHeading l hl]
  rfl

include outside in
theorem isInSection_of_head? {l : Line} (head : after.head? = some l) (i : Nat) :
    isInSection (LineEntry.ofLine i l) = false := by
  rw [isInSection_ofLine, outside l head]
  rfl

include noHeading outside h

/-- The rows of a section are emitted up to the next heading. -/
theorem emitRows {form : Row → RowForm} {emit : LineEntry → Emission → Option Emission}
    (emits : EmitsRows tokens form emit) :
    ∃ e', whileLine Emission.rest isInSection (emitItem tokens emit) e = some e' ∧
      Stands tokens e' after
        (done ++ Tree.callsOf (Item.parseAll form (Item.ofLines bs)).value)
        (errors ++ (Item.parseAll form (Item.ofLines bs)).errors) := by
  refine emitItems emits (fun l hl i => isInSection_of_mem noHeading hl i) (fun l head => ?_) h
  exact ⟨Line.isContinuation_of_isHeading (outside l head), isInSection_of_head? outside head⟩

/-- The lines of a section of definitions are emitted up to the next heading. -/
theorem emitSectionDefinitions (kind : NodeKind) :
    ∃ e', whileLine Emission.rest isInSection
        (emitItem tokens (Emission.emitDefinition tokens kind)) e = some e' ∧
      Stands tokens e' after (done ++ Tree.callsOf (Definition.parseAll kind bs).value)
        (errors ++ (Definition.parseAll kind bs).errors) := by
  have whole := Definition.ofLines_flatten bs
  obtain ⟨blank, blocks, begins⟩ := Definition.ofLines_spec noHeading
  have split : Stands tokens e ((Definition.ofLines bs).1 ++
      ((Definition.ofLines bs).2.flatMap Definition.lines ++ after)) done errors := by
    rw [← List.append_assoc, whole]
    exact h
  have inside : ∀ l ∈ (Definition.ofLines bs).1, ∀ i,
      isInSection (LineEntry.ofLine i l) = true := by
    intro l hl i
    refine isInSection_of_mem noHeading ?_ i
    rw [← whole]
    exact List.mem_append_left _ hl
  have each : ∀ l ∈ (Definition.ofLines bs).1, ∀ i,
      emitItem tokens (Emission.emitDefinition tokens kind) (LineEntry.ofLine i l) =
        Emission.finishLine tokens (LineEntry.ofLine i l) := by
    intro l hl i
    funext e
    rw [emitItem, LineEntry.isBlank_ofLine, if_pos (blank l hl)]
  obtain ⟨e₁, passed, begun⟩ := passLines inside each split
  obtain ⟨e₂, emitted, stands⟩ := emitDefinitions kind blocks begins outside begun
  refine ⟨e₂, by rw [passed, emitted], ?_⟩
  rw [Definition.parseAll, Tree.callsOf_append, ← List.append_assoc]
  exact stands

end Bodies

/-- The body of a section is emitted up to the next heading. -/
theorem emitSectionBody {s : SectionLines} (noHeading : ∀ l ∈ s.body, l.isHeading = false)
    (outside : ∀ l, after.head? = some l → l.isHeading = true)
    (h : Stands tokens e (s.body ++ after) done errors) :
    ∃ e', whileLine Emission.rest isInSection (emitItem tokens (emitInSection tokens s.kind)) e =
        some e' ∧
      Stands tokens e' after (done ++ Tree.callsOf s.parseBody.value)
        (errors ++ s.parseBody.errors) := by
  rw [SectionLines.parseBody]
  cases s.kind with
  | settings => exact emitRows noHeading outside h emitsRows_setting
  | variableTable => exact emitRows noHeading outside h emitsRows_variable
  | testCases => exact emitSectionDefinitions noHeading outside h .testCase
  | tasks => exact emitSectionDefinitions noHeading outside h .testCase
  | keywords => exact emitSectionDefinitions noHeading outside h .userKeyword
  | comments => exact emitRows noHeading outside h emitsRows_plain
  | unknown => exact emitRows noHeading outside h emitsRows_plain

/-- A section passes its lines and becomes the node that parsing makes of it. -/
theorem emitSection {s : SectionLines} (block : s.IsBlock)
    (outside : ∀ l, after.head? = some l → l.isHeading = true)
    (h : Stands tokens e (s.heading :: (s.body ++ after)) done errors) :
    ∃ e', e.emitSection tokens (LineEntry.ofLine e.pos s.heading) = some e' ∧
      Stands tokens e' after (done ++ Tree.callsOf [s.parse.value]) (errors ++ s.parse.errors) := by
  have kind : HeadingKind.ofText ((LineEntry.ofLine e.pos s.heading).cellsText tokens) =
      s.kind := by
    rw [LineEntry.cellsText_ofLine h.ahead, SectionLines.kind]
  let report := if s.kind = .unknown then
    e.report .unknownHeading (LineEntry.ofLine e.pos s.heading) else e
  have place : report.pos = e.pos := by
    simp only [report]
    split <;> rfl
  have reported : Stands tokens report (s.heading :: (s.body ++ after)) done
      (errors ++ if s.kind = .unknown then [⟨.unknownHeading, s.heading.span⟩] else []) := by
    by_cases unknown : s.kind = .unknown
    · rw [if_pos unknown, show report = _ from if_pos unknown]
      exact h.report .unknownHeading e.pos s.heading
    · rw [if_neg unknown, show report = _ from if_neg unknown, List.append_nil]
      exact h
  obtain ⟨e₁, passed, headed⟩ := ((reported.start .headed).start .heading).finishLine
  obtain ⟨e₂, looped, stands⟩ := headed.finish.emitSectionBody block.body outside
  rw [pos_start, pos_start, place] at passed
  refine ⟨e₂.finish, ?_, ?_⟩
  · rw [Emission.emitSection, kind]
    show ((report.start .headed).start .heading).finishLine tokens _ >>= _ = _
    rw [passed]
    simp only [Option.bind_eq_bind, Option.bind_some]
    rw [looped]
    rfl
  · have final := stands.finish
    rw [List.append_assoc errors] at final
    rw [SectionLines.parse, ← Tree.append_callsOf_node, Tree.callsOf_cons _ s.parseBody.value,
      ← List.append_assoc, ← Tree.append_callsOf_node]
    exact final

/-- A loop over sections makes of their lines what parsing makes of the sections. -/
theorem emitSections {ss : List SectionLines} (blocks : ∀ s ∈ ss, s.IsBlock)
    (h : Stands tokens e (ss.flatMap SectionLines.lines) done errors) :
    ∃ e', whileLine Emission.rest (fun _ => true) (Emission.emitSection tokens) e = some e' ∧
      Stands tokens e' [] (done ++ Tree.callsOf (Parsed.sequence (ss.map (·.parse))).value)
        (errors ++ (Parsed.sequence (ss.map (·.parse))).errors) := by
  induction ss generalizing e done errors with
  | nil =>
    refine ⟨e, whileLine_nil h.rest_nil, ?_⟩
    simpa [Parsed.sequence, Tree.callsOf] using h
  | cons s ss ih =>
    obtain ⟨block, restBlocks⟩ := List.forall_mem_cons.1 blocks
    have outside : ∀ l, (ss.flatMap SectionLines.lines).head? = some l → l.isHeading = true := by
      intro l head
      cases ss with
      | nil => cases head
      | cons s' ss =>
        cases head
        exact (restBlocks s' List.mem_cons_self).heading
    have h : Stands tokens e (s.heading :: (s.body ++ ss.flatMap SectionLines.lines)) done
        errors := h
    obtain ⟨e₁, emitted, stands⟩ := h.emitSection block outside
    obtain ⟨e₂, rest, final⟩ := ih restBlocks stands
    have shorter : (ss.flatMap SectionLines.lines).length ≤
        (s.body ++ ss.flatMap SectionLines.lines).length :=
      (List.sublist_append_right _ _).length_le
    refine ⟨e₂, ?_, ?_⟩
    · rw [h.round stands rfl emitted shorter, rest]
    · rw [List.map_cons, Parsed.sequence, Tree.callsOf_cons, ← List.append_assoc,
        ← List.append_assoc]
      exact final

/-- The lines before the first heading are emitted as one node, if there are any. -/
theorem emitPreamble {bs : List Line} (noHeading : ∀ l ∈ bs, l.isHeading = false)
    (outside : ∀ l, after.head? = some l → l.isHeading = true)
    (h : Stands tokens e (bs ++ after) done errors) :
    ∃ e', e.emitPreamble tokens = some e' ∧
      Stands tokens e' after (done ++ Tree.callsOf (preambleTrees bs)) errors := by
  cases bs with
  | nil =>
    have none : e.rest.head?.any isInSection = false := by
      cases after with
      | nil =>
        rw [h.rest_nil]
        rfl
      | cons l after =>
        rw [h.rest_cons]
        exact isInSection_of_head? outside rfl e.pos
    rw [Emission.emitPreamble, if_neg (by simp [none])]
    refine ⟨e, rfl, ?_⟩
    simpa [preambleTrees, Tree.callsOf] using h
  | cons l bs =>
    have inside : ∀ m ∈ l :: bs, ∀ i, isInSection (LineEntry.ofLine i m) = true :=
      fun m hm => isInSection_of_mem noHeading hm
    have begins : e.rest.head?.any isInSection = true := by
      rw [h.rest_cons]
      exact inside l List.mem_cons_self e.pos
    have each : ∀ m ∈ l :: bs, ∀ i, Emission.finishLine tokens (LineEntry.ofLine i m) =
        Emission.finishLine tokens (LineEntry.ofLine i m) := fun _ _ _ => rfl
    obtain ⟨e₁, passed, stands⟩ := passLines inside each (h.start .preamble)
    rw [Emission.emitPreamble, if_pos begins, passed,
      stands.whileLine_end fun m head => isInSection_of_head? outside head]
    refine ⟨e₁.finish, rfl, ?_⟩
    have final := stands.finish
    rw [Tree.append_callsOf_node] at final
    exact final

end Stands

theorem stands_start (text : Text) :
    Stands (tokenize text) ⟨0, LineEntry.table (tokenize text), [], []⟩
      (SectionLines.linesBefore text ++ (SectionLines.ofText text).flatMap SectionLines.lines)
      [] [] := by
  rw [SectionLines.flatten_ofText]
  exact ⟨(flatMap_tokens_linesOf _).symm, LineEntry.table_eq _,
    fun l hl => isOrdered_of_mem_linesOf hl, rfl, rfl⟩

/-- The emission of a text never gets stuck. It tells the builder the parsed tree and reports the
errors of parsing. -/
theorem ofText_eq (text : Text) :
    ∃ e, ofText text = some e ∧ e.calls = (parse text).value.calls ∧
      e.errors = (parse text).errors := by
  have blocks : ∀ s ∈ SectionLines.ofText text, s.IsBlock := by
    intro s hs
    obtain ⟨g, hg, rfl⟩ := List.mem_map.1 hs
    obtain ⟨heading, body⟩ := Sequence.of_mem_groupAt_snd hg
    exact ⟨heading, body⟩
  have outside : ∀ l, ((SectionLines.ofText text).flatMap SectionLines.lines).head? = some l →
      l.isHeading = true := by
    intro l head
    cases sections : SectionLines.ofText text with
    | nil =>
      rw [sections] at head
      cases head
    | cons s ss =>
      rw [sections] at head blocks
      cases head
      exact (blocks s List.mem_cons_self).heading
  obtain ⟨e₁, preamble, begun⟩ := ((stands_start text).start .document).emitPreamble
    (fun l hl => Sequence.of_mem_groupAt_fst hl) outside
  obtain ⟨e₂, looped, stands⟩ := begun.emitSections blocks
  have atEnd : ¬ e₂.pos < (tokenize text).length := by
    have nothing : (tokenize text).drop e₂.pos = [] := stands.ahead
    exact Nat.not_lt.2 (List.drop_eq_nil_iff.1 nothing)
  refine ⟨e₂.finish, ?_, ?_, ?_⟩
  · rw [ofText, emitDocument, preamble]
    simp only [Option.bind_eq_bind, Option.bind_some]
    rw [looped, Option.bind_some, bumpUntil, if_neg atEnd]
    rfl
  · have final := stands.finish.calls
    rw [List.append_assoc ([] ++ [BuilderCall.start .document]), ← Tree.callsOf_append,
      Tree.append_callsOf_node, Parsed.value_sequence, List.map_map] at final
    rw [final, value_parse, ← Tree.callsOf_singleton]
    rfl
  · rw [stands.finish.errors]
    simp only [parse, parseLines, SectionLines.ofText, List.map_map]
    rfl

end Emission

end RobotAnalysis
