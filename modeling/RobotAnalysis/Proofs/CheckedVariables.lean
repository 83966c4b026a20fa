import RobotAnalysis.Proofs.ByteScan

/-!
# Names and patterns are read with checks

What is cut out of a text at the offsets of its variable tokens: the inside of a token, the variable
under a cursor, the name of a variable and the literal parts between the tokens of a name. All cuts
are at ends of tokens or next to a brace, hence between characters.
-/
namespace RobotAnalysis

namespace VariableToken

variable {t text : Text} {offset : Nat} {v : VariableToken}

theorem le_start_of_mem_locate {ps : List Piece} (h : v ∈ locate offset ps) :
    offset ≤ v.span.start := by
  obtain ⟨s, place, -⟩ := shows_of_mem_locate h
  rw [place]
  exact Nat.le_add_right _ _

/-- Pieces with one token that covers all of them are this token alone. -/
theorem eq_gappedof_locate {ps : List Piece} (only : locate 0 ps = [v]) (start : v.span.start = 0)
    (stop : v.span.stop = Text.byteSize (ps.flatMap Piece.text)) : ∃ t, ps = [.token t] := by
  cases ps with
  | nil => cases only
  | cons p ps =>
    cases p with
    | char c =>
      have later : v ∈ locate (0 + c.utf8Size) ps := by
        rw [locate] at only
        exact only ▸ List.mem_cons_self
      have bound := le_start_of_mem_locate later
      have filled := c.utf8Size_pos
      omega
    | token t =>
      obtain ⟨rfl, rest⟩ := List.cons.inj only
      cases ps with
      | nil => exact ⟨t, rfl⟩
      | cons p ps =>
        cases p with
        | char c =>
          have filled := c.utf8Size_pos
          simp only [Span.stop, Piece.text, List.flatMap_cons, Text.byteSize_append,
            Text.byteSize_cons, List.cons_append] at stop
          omega
        | token u => cases rest

theorem isWholeCell_checked {cell : Text} (fits : FitWords (withoutAssignment cell)) :
    Checked.isWholeCell cell = some (isWholeCell cell) := by
  have spelled := flatMap_text_piecesAfter false (withoutAssignment cell)
  rw [Checked.isWholeCell, spans_eq fits, isWholeCell, all]
  rw [← pieces] at spelled
  generalize pieces (withoutAssignment cell) = ps at *
  rw [← spelled]
  split
  · simp [locate, Piece.text, Span.stop]
  · rename_i several
    simp only [Option.bind_eq_bind, Option.bind_some]
    split
    · rename_i s only
      obtain ⟨v, found, rfl⟩ := List.map_eq_singleton_iff.1 only
      have partly : ¬ (v.span.start = 0 ∧ v.span.stop = Text.byteSize (ps.flatMap Piece.text)) := by
        rintro ⟨start, stop⟩
        obtain ⟨t, rfl⟩ := eq_gappedof_locate found start stop
        exact several t rfl
      simpa using partly
    · rfl

/-- The inside of a token stands between an open brace and the one that closes it. -/
theorem exists_around_inner (h : v ∈ all text) : ∃ front behind,
    text = front ++ (v.inner ++ '}' :: behind) ∧ front.getLast? = some '{' ∧
      front.byteSize = v.span.start + 2 ∧
      v.span.stop = v.span.start + 2 + v.inner.byteSize + 1 := by
  obtain ⟨c, name, sigil, token⟩ := isToken_of_mem_all h
  obtain ⟨before, after, whole, place⟩ := shows_of_mem_all h
  have inside : v.inner = name := by simp [inner, token]
  have opening := Checked.byteSize_opening sigil (name ++ ['}'])
  have two : Text.byteSize [c, '{'] = 2 := Checked.byteSize_opening sigil []
  have brace : Text.byteSize ['}'] = 1 := by decide
  rw [Text.byteSize_append, brace] at opening
  rw [token] at whole place
  rw [inside, place]
  refine ⟨before ++ [c, '{'], after, by simp [whole], by simp, by rw [Text.byteSize_append, two], ?_⟩
  simp only [Span.stop, opening]
  omega

/-- The inside of a token is what stands between its braces. -/
theorem shows_inner (h : v ∈ all text) :
    text.Shows ⟨v.span.start + 2, v.inner.byteSize⟩ v.inner ∧
      v.span.stop = v.span.start + 2 + v.inner.byteSize + 1 := by
  obtain ⟨front, behind, whole, -, size, stop⟩ := exists_around_inner h
  exact ⟨⟨front, '}' :: behind, whole, by rw [size]⟩, stop⟩

theorem insideOf_eq (h : v ∈ all text) (short : v.span.stop < UInt32.size) :
    Checked.insideOf v.span = some ⟨v.span.start + 2, v.inner.byteSize⟩ := by
  have stop := (shows_inner h).2
  have inside : v.span.start + 2 ≤ v.span.stop - 1 := by omega
  simp only [Checked.insideOf, Checked.add_eq (show v.span.start + 2 < UInt32.size by omega),
    Checked.sub_eq (show 1 ≤ v.span.stop by omega), Checked.range_eq inside, Span.between,
    Option.bind_eq_bind, Option.bind_some, Option.some.injEq, Span.mk.injEq, true_and]
  omega

/-- The innermost variable of a text is one of its variables or stands inside one of them. -/
theorem shows_of_innermostAt? {s : Span} (h : innermostAt? text offset = some s) :
    ∃ token, IsToken token ∧ text.Shows s token := by
  fun_induction innermostAt? text offset generalizing s with
  | case1 => cases h
  | case2 text offset outer found =>
    cases h
    have mem := List.mem_of_find?_eq_some found
    exact ⟨_, isToken_of_mem_all mem, shows_of_mem_all mem⟩
  | case3 text offset outer found filled start inside nested found' =>
    rename_i ih
    cases h
    obtain ⟨token, form, shown⟩ := ih found'
    exact ⟨token, form, (shows_inner (List.mem_of_find?_eq_some found)).1.trans shown⟩
  | case4 text offset outer found =>
    cases h
    have mem := List.mem_of_find?_eq_some found
    exact ⟨_, isToken_of_mem_all mem, shows_of_mem_all mem⟩
  | case5 text offset outer found =>
    cases h
    have mem := List.mem_of_find?_eq_some found
    exact ⟨_, isToken_of_mem_all mem, shows_of_mem_all mem⟩

/-- The outermost variable at an offset, with its inside, is found with checks. -/
theorem innermostAt_of_find? {outer : VariableToken} (short : text.byteSize < UInt32.size)
    (found : (all text).find? (fun v => v.span.touches offset) = some outer) :
    Checked.innermostAt text offset =
      let inside : Span := ⟨outer.span.start + 2, outer.inner.byteSize⟩
      if inside.size = 0 || !inside.touches offset then some (some outer.span)
      else (Checked.sub offset inside.start).bind fun place =>
        (Checked.innermostAt outer.inner place).bind fun nested? =>
          match nested? with
          | some nested => (Checked.shift inside.start nested).bind fun s => some (some s)
          | none => some (some outer.span) := by
  have mem := List.mem_of_find?_eq_some found
  have fits := fitWords_of_byteSize short
  have cut := Checked.cut_of_shows (shows_inner mem).1
  rw [Checked.innermostAt_eq_bind, spans_eq fits]
  simp only [Option.bind_eq_bind, Option.bind_some, List.find?_map, Function.comp_def, found,
    Option.map_some, insideOf_eq mem (fits outer mem), cut]
  rfl

/-- The same where the offset lies in the inside. -/
theorem innermostAt_of_touches {outer : VariableToken} (short : text.byteSize < UInt32.size)
    (found : (all text).find? (fun v => v.span.touches offset) = some outer)
    (filled : outer.inner ≠ [])
    (inside : outer.span.start + 2 ≤ offset ∧
      offset ≤ outer.span.start + 2 + outer.inner.byteSize) :
    Checked.innermostAt text offset =
      (Checked.innermostAt outer.inner (offset - (outer.span.start + 2))).bind fun nested? =>
        match nested? with
        | some nested => (Checked.shift (outer.span.start + 2) nested).bind fun s => some (some s)
        | none => some (some outer.span) := by
  have size : outer.inner.byteSize ≠ 0 := by
    obtain ⟨c, t, whole⟩ := List.exists_cons_of_ne_nil filled
    have pos := c.utf8Size_pos
    rw [whole, Text.byteSize_cons]
    omega
  have touched : Span.touches ⟨outer.span.start + 2, outer.inner.byteSize⟩ offset = true :=
    (Span.touches_iff _ _).2 inside
  rw [innermostAt_of_find? short found]
  simp only [size, touched, Checked.sub_eq inside.1, Option.bind_some, decide_false, Bool.not_true,
    Bool.or_self, Bool.false_eq_true, if_false]

theorem innermostAt_eq (short : text.byteSize < UInt32.size) (offset : Nat) :
    Checked.innermostAt text offset = some (innermostAt? text offset) := by
  fun_induction innermostAt? text offset with
  | case1 text offset found =>
    rw [Checked.innermostAt_eq_bind, spans_eq (fitWords_of_byteSize short)]
    simp only [Option.bind_eq_bind, Option.bind_some, List.find?_map, Function.comp_def, found,
      Option.map_none]
    rfl
  | case2 text offset outer found empty =>
    rw [innermostAt_of_find? short found]
    simp [empty]
  | case3 text offset outer found filled start inside nested found' =>
    rename_i ih
    have room := (shows_inner (List.mem_of_find?_eq_some found)).1.stop_le
    obtain ⟨_, _, shown⟩ := shows_of_innermostAt? found'
    have fits := shown.stop_le
    simp only [Span.stop] at room fits
    rw [innermostAt_of_touches short found filled inside, ih (by omega), Option.bind_some, found']
    simp only
    rw [Checked.shift_eq (by simp only [Span.stop]; omega)]
    rfl
  | case4 text offset outer found filled start inside found' =>
    rename_i ih
    have room := (shows_inner (List.mem_of_find?_eq_some found)).1.stop_le
    simp only [Span.stop] at room
    rw [innermostAt_of_touches short found filled inside, ih (by omega), Option.bind_some, found']
  | case5 text offset outer found filled start outside =>
    rw [innermostAt_of_find? short found]
    have apart : Span.touches ⟨outer.span.start + 2, outer.inner.byteSize⟩ offset = false := by
      rw [Bool.eq_false_iff]
      intro touched
      exact outside ((Span.touches_iff _ _).1 touched)
    simp [apart]

/-! ## Names -/

/-- The first two bytes of a text look like the start of a variable where the characters do. -/
theorem opening_bytes_iff {t : Text} {b b' : UInt8} {bytes : List UInt8}
    (whole : Text.bytes t = b :: b' :: bytes) :
    (Checked.spellsSigil b && Checked.spells b' '{') = true ↔
      ∃ c u, isSigil c = true ∧ t = c :: '{' :: u := by
  rw [Bool.and_eq_true]
  constructor
  · rintro ⟨sigil, brace⟩
    cases t with
    | nil => cases whole
    | cons c u =>
      have announces : isSigil c = true := by
        obtain ⟨e, es, filled⟩ := List.exists_cons_of_ne_nil (Checked.utf8EncodeChar_ne_nil c)
        rw [Text.bytes_cons, filled, List.cons_append] at whole
        by_contra other
        rw [Checked.spellsSigil_of_mem (c := c) (by simp [filled, (List.cons.inj whole).1])
          (Bool.eq_false_iff.2 other)] at sigil
        cases sigil
      obtain ⟨e, single, -⟩ := Checked.exists_of_isByte (Checked.isByte_of_isSigil announces)
      rw [Text.bytes_cons, single, List.singleton_append] at whole
      have next := Checked.any_head?_bytes u
      rw [(List.cons.inj whole).2, List.head?_cons, Option.any_some, brace] at next
      obtain ⟨u', rfl⟩ := List.head?_eq_some_iff.1 (beq_iff_eq.1 next.symm)
      exact ⟨c, u', announces, rfl⟩
  · rintro ⟨c, u, sigil, rfl⟩
    obtain ⟨e, single, same⟩ := Checked.exists_of_isByte (Checked.isByte_of_isSigil sigil)
    rw [Text.bytes_cons, single, List.singleton_append] at whole
    obtain ⟨rfl, rest⟩ := List.cons.inj whole
    have next := Checked.any_head?_bytes ('{' :: u)
    rw [rest] at next
    exact ⟨by rw [Checked.spellsSigil, same, sigil], by simpa using next⟩

theorem name_eq_self {t : Text} (h : ¬ ∃ c u, isSigil c = true ∧ t = c :: '{' :: u) :
    name t = t := by
  unfold name
  split
  · rename_i c r
    rw [if_neg]
    intro opens
    exact h ⟨c, r, (Bool.and_eq_true_iff.1 opens).1, rfl⟩
  · rfl

theorem name_of_short {t : Text} (h : t.byteSize < 3) : name t = t := by
  unfold name
  split
  · rename_i c r
    rw [if_neg]
    intro opens
    rw [Bool.and_eq_true] at opens
    have size := Checked.byteSize_opening opens.1 r
    cases r with
    | nil => cases opens.2
    | cons d r =>
      have pos := d.utf8Size_pos
      have more := Text.byteSize_cons d r
      omega
  · rfl

/-- What stands between the braces of a variable is cut out next to single bytes. -/
theorem name_checked (t : Text) : Checked.name t = some (name t) := by
  rw [Checked.name]
  split
  · rename_i long
    obtain ⟨b, b', bytes, whole⟩ : ∃ b b' bytes, t.bytes = b :: b' :: bytes := by
      match h : t.bytes, long with
      | b :: b' :: bytes, _ => exact ⟨b, b', bytes, rfl⟩
    rw [Text.length_bytes] at long
    simp only [whole, List.getElem?_cons_zero, List.getElem?_cons_succ, Option.bind_eq_bind,
      Option.bind_some]
    by_cases opens : ∃ c u, isSigil c = true ∧ t = c :: '{' :: u
    · rw [(opening_bytes_iff whole).2 opens, Bool.true_and]
      obtain ⟨c, u, sigil, rfl⟩ := opens
      have size := Checked.byteSize_opening sigil u
      rw [name, sigil, Bool.true_and]
      rcases List.eq_nil_or_concat u with rfl | ⟨inside, last, rfl⟩
      · exact absurd long (by rw [size]; decide)
      · rw [List.concat_eq_append] at size ⊢
        have ends : (c :: '{' :: (inside ++ [last])).getLast? = some last :=
          List.getLast?_concat (l := c :: '{' :: inside)
        rw [ends, List.getLast?_concat, List.dropLast_concat]
        by_cases closes : last = '}'
        · subst closes
          have brace : Text.byteSize ['}'] = 1 := by decide
          have start : Text.byteSize [c, '{'] = 2 := Checked.byteSize_opening sigil []
          have cut := Checked.cutBetween_append [c, '{'] inside ['}']
          rw [Text.byteSize_append, brace] at size
          rw [Text.byteSize_append, start] at cut
          have stop : 1 + 1 + (Text.byteSize inside + 1) - 1 = 2 + Text.byteSize inside := by omega
          rw [Checked.sub_eq (by omega), size, stop]
          simpa using cut
        · simp [closes]
    · rw [Bool.eq_false_iff.2 fun h => opens ((opening_bytes_iff whole).1 h), name_eq_self opens]
      rfl
  · rename_i short
    rw [Text.length_bytes] at short
    rw [name_of_short (Nat.lt_of_not_le short)]

end VariableToken

/-! ## Patterns -/

namespace Checked

open VariableToken (Piece FitWords)

/-- The atoms of a name, as literal parts and gaps between them, are those of its pieces. `chars`
are the characters since the last token. -/
theorem atomsFrom_eq {literal : Text → List Atom} {full : List Piece → List Atom}
    (plain : ∀ cs, full (cs.map .char) = literal cs)
    (gapped : ∀ cs t ps, full (cs.map .char ++ .token t :: ps) = literal cs ++ .gap :: full ps)
    (ps : List Piece) (before chars : Text) :
    atomsFrom literal (before ++ (chars ++ ps.flatMap Piece.text)) before.byteSize
        ((VariableToken.locate (before ++ chars).byteSize ps).map VariableToken.span) =
      some (full (chars.map .char ++ ps)) := by
  induction ps generalizing before chars with
  | nil =>
    have last := cutBetween_stop before chars
    rw [Text.byteSize_append] at last
    simp [VariableToken.locate, atomsFrom, last, plain]
  | cons p ps ih =>
    cases p with
    | char c =>
      have moved := ih before (chars ++ [c])
      simpa [VariableToken.locate, Piece.text, Nat.add_assoc] using moved
    | token t =>
      have part := cutBetween_append before chars (t ++ ps.flatMap Piece.text)
      have moved := ih (before ++ chars ++ t) []
      simp only [List.append_nil, List.nil_append, List.append_assoc, List.map_nil] at moved part
      simp only [VariableToken.locate, List.map_cons, atomsFrom, List.flatMap_cons, Piece.text,
        Span.stop, part, ← Text.byteSize_append, List.append_assoc, moved, gapped,
        Option.bind_eq_bind, Option.bind_some]
      rfl

theorem atoms_eq {literal : Text → List Atom} {full : List Piece → List Atom}
    (plain : ∀ cs, full (cs.map .char) = literal cs)
    (gapped : ∀ cs t ps, full (cs.map .char ++ .token t :: ps) = literal cs ++ .gap :: full ps)
    {name : Text} (fits : FitWords name) :
    atoms literal name = some (full (VariableToken.pieces name)) := by
  have spelled := VariableToken.flatMap_text_piecesAfter false name
  rw [← VariableToken.pieces] at spelled
  have found := atomsFrom_eq plain gapped (VariableToken.pieces name) [] []
  simp only [List.nil_append, List.map_nil, Text.byteSize_nil, spelled] at found
  rw [atoms, VariableToken.spans_eq fits, VariableToken.all]
  exact found

theorem bodyOf_variable (cs t : Text) (ps : List Piece) :
    VariablePattern.bodyOf (cs.map .char ++ .token t :: ps) =
      VariablePattern.bodyOf (cs.map .char) ++ .gap :: VariablePattern.bodyOf ps := by
  induction cs with
  | nil => rfl
  | cons c cs ih =>
    rw [List.map_cons, List.cons_append, VariablePattern.bodyOf, VariablePattern.bodyOf]
    split <;> simp [ih]

theorem keywordPattern_eq {qualifier : Option Text} {name : Text} (fits : FitWords name) :
    keywordPattern qualifier name = some (.ofName qualifier name) := by
  have found : atoms keywordLiteral name = some (KeywordPattern.bodyOf false _) :=
    atoms_eq (fun _ => rfl) (KeywordPattern.bodyOf_append_token false) fits
  rw [keywordPattern, found]
  rfl

theorem variablePattern_eq {t : Text} (fits : FitWords (VariableToken.name t)) :
    variablePattern t = some (.ofDeclaration t) := by
  have found : atoms variableLiteral (VariableToken.name t) = some (VariablePattern.bodyOf _) :=
    atoms_eq (fun _ => rfl) bodyOf_variable fits
  rw [variablePattern, VariableToken.name_checked, Option.bind_eq_bind, Option.bind_some, found]
  rfl

theorem isUsedBy_eq {v : Variable} (fits : FitWords (VariableToken.name v.text)) (text : Text) :
    isUsedBy v text = some (v.isUsedBy text) := by
  rw [isUsedBy, variablePattern_eq fits]
  rfl

end Checked

/-! ## Names of functions -/

namespace Text

theorem byteSize_le_of_sublist {s t : Text} (h : s.Sublist t) : s.byteSize ≤ t.byteSize := by
  induction h with
  | slnil => exact Nat.le_refl _
  | cons c _ ih => exact Nat.le_trans ih (by simp)
  | cons_cons c _ ih => simpa using ih

end Text

namespace Name

/-- Whether a name is short, or has no brace, as the names of functions have none. -/
def Fits (name : Text) : Prop := name.byteSize < UInt32.size ∨ '{' ∉ name

theorem Fits.of_sublist {name part : Text} (h : Fits name) (inside : part.Sublist name) :
    VariableToken.FitWords part := by
  rcases h with short | noBrace
  · exact VariableToken.fitWords_of_byteSize
      (Nat.lt_of_le_of_lt (Text.byteSize_le_of_sublist inside) short)
  · exact VariableToken.fitWords_of_notMem fun brace => noBrace (inside.mem brace)

/-- A name in words is a part of the written one, or an identifier without any variable. -/
theorem Fits.ofFunction {name : Text} (h : Fits name) :
    VariableToken.FitWords (Name.ofFunction name) := by
  rw [Name.ofFunction]
  split
  · exact h.of_sublist (Text.trim_sublist name)
  · rename_i identifier
    refine VariableToken.fitWords_of_notMem fun brace => ?_
    rcases mem_splitIdentifier ((Text.trimEnd_sublist _).mem brace) with blank | inside
    · cases blank
    · have others : CharClass.continuesIdentifier '{' = false := by decide
      exact identifier (by simpa using .inr ⟨'{', inside, others⟩)

end Name

theorem Checked.declareKeyword_eq {qualifier : Option Text} {name : Text} {takesArguments : Bool}
    {location : Location} (fits : Name.Fits name) :
    declareKeyword qualifier name takesArguments location =
      some (.declare qualifier name takesArguments location) := by
  have words :
      VariableToken.FitWords (Keyword.declare qualifier name takesArguments location).name :=
    fits.ofFunction
  rw [declareKeyword, keywordPattern_eq words]
  rfl

namespace VariableToken

theorem name_sublist (t : Text) : (name t).Sublist t := by
  unfold name
  split
  · rename_i c r
    split
    · exact ((List.dropLast_sublist r).cons '{').cons c
    · exact .refl _
  · exact .refl _

theorem dropTrailing_closed {p : Char → Bool} (opens : p '}' = false) (t : Text) :
    Sequence.dropTrailing p (t ++ ['}']) = t ++ ['}'] := by
  induction t with
  | nil => simp [Sequence.dropTrailing_cons, opens]
  | cons c t ih =>
    rw [List.cons_append, Sequence.dropTrailing_cons, ih, if_neg (by simp)]

/-- A variable made of a name stays as it is made. -/
theorem text_declare_closed (name : Text) (scope : VariableScope) (visibility : Visibility)
    (location : Location) :
    (Variable.declare ('$' :: '{' :: name ++ ['}']) scope visibility location).text =
      '$' :: '{' :: name ++ ['}'] := by
  have blank : CharClass.isBlank '}' = false := by decide
  have token : IsToken ('$' :: '{' :: (name ++ ['}'])) := ⟨'$', name, rfl, rfl⟩
  have ends (p : Char → Bool) (h : p '}' = false) := dropTrailing_closed h ('$' :: '{' :: name)
  change withoutAssignment (Text.trim ('$' :: '{' :: (name ++ ['}']))) = _
  rw [withoutAssignment_trim_of_isToken token, withoutAssignment, Text.trimEnd, Text.trimEnd]
  change Sequence.dropTrailing _ (Sequence.dropTrailing _
    (Sequence.dropTrailing _ ('$' :: '{' :: name ++ ['}']))) = _
  rw [ends _ blank, ends _ (by decide), ends _ blank]

theorem name_closed (name : Text) : VariableToken.name ('$' :: '{' :: name ++ ['}']) = name := by
  change VariableToken.name ('$' :: '{' :: (name ++ ['}'])) = name
  simp [VariableToken.name, isSigil]

end VariableToken

end RobotAnalysis
