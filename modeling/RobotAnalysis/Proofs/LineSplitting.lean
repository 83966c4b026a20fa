import RobotAnalysis.Proofs.LinePieces
import RobotAnalysis.Proofs.TypedCells

/-!
# The cells of a line by its characters

The table of lines is made of tokens, and a cell is closed only where a later token ends it. Still
its cells and comments are those that are read off the characters of each line. The tokens in front
of a line are passed one by one: a separator is where the line is cut, and words and single spaces
belong to the piece behind them.
-/
namespace RobotAnalysis

namespace Token

variable {tokens ts us more : List Token} {t : Token} {offset i : Nat}

/-- The characters of tokens, the first one at `offset`. -/
def place (offset : Nat) (ts : List Token) : PlacedText := Text.place offset (textOf ts)

/-- The characters of the tokens with the numbers from `start` up to `stop`. -/
def placedSlice (tokens : List Token) (start stop : Nat) : PlacedText :=
  place (sizeOf (tokens.take start)) (slice tokens start stop)

theorem place_append (offset : Nat) (ts us : List Token) :
    place offset (ts ++ us) = place offset ts ++ place (offset + sizeOf ts) us := by
  rw [place, textOf, List.flatMap_append, Text.place_append]
  rfl

theorem place_singleton (offset : Nat) (t : Token) :
    place offset [t] = Text.place offset t.text := by
  rw [place, textOf, List.flatMap_singleton]

theorem place_cons (offset : Nat) (t : Token) (ts : List Token) :
    place offset (t :: ts) = Text.place offset t.text ++ place (offset + sizeOf [t]) ts := by
  rw [← List.singleton_append, place_append, place_singleton]

theorem sizeOf_take_add (h : tokens.drop i = ts ++ more) :
    sizeOf (tokens.take (i + ts.length)) = sizeOf (tokens.take i) + sizeOf ts := by
  rw [List.take_add, h, List.take_left, sizeOf_append]

theorem placedSlice_of_drop (h : tokens.drop i = ts ++ more) :
    placedSlice tokens i (i + ts.length) = place (sizeOf (tokens.take i)) ts := by
  rw [placedSlice, slice_of_drop h]

/-! ## Tokens in front of a line -/

/-- Words have no blanks. -/
theorem isBlank_of_word (offset : Nat) (spelled : t.IsSpelled) (word : t.isTrivia = false) :
    ∀ c ∈ Text.place offset t.text, PlacedText.isBlank c = false := by
  intro c hc
  rcases spelled.of_not_endsCell (Part.endsCell_of_word word) with ⟨space, -⟩ | ⟨-, noGap⟩
  · rw [isTrivia, space] at word
    cases word
  · exact (noGap c.2 (Text.snd_mem_of_mem_place hc)).1

/-- Behind blanks comes no blank. -/
theorem isBlank_head?_place (offset : Nat) (separate : Separate (t :: ts))
    (gap : t.kind = .space ∨ t.kind = .separator) :
    ∀ c ∈ (place offset ts).head?, PlacedText.isBlank c = false := by
  intro c hc
  have ends := separate.2.1 c.2 (Text.head?_place hc).1
  rcases gap with kind | kind
  · rw [kind] at ends
    exact ends
  · rw [kind] at ends
    exact ends

/-- A line is cut at a separator. -/
theorem cuts_place (separator : IsSeparator t.text) :
    PlacedText.cuts (Text.place offset t.text) = true := by
  have chars := Text.map_snd_place offset t.text
  have blank : ∀ c ∈ Text.place offset t.text, PlacedText.isBlank c = true :=
    fun c hc => separator.gaps c.2 (Text.snd_mem_of_mem_place hc)
  rw [PlacedText.cuts, List.all_eq_true.2 blank, Bool.true_and, Bool.or_eq_true]
  rcases separator.wide with long | tab
  · left
    rw [← chars, List.length_map] at long
    exact decide_eq_true long
  · right
    rw [← chars] at tab
    obtain ⟨c, hc, same⟩ := List.mem_map.1 tab
    exact List.any_eq_true.2 ⟨c, hc, beq_iff_eq.2 same⟩

/-- Tokens that end no cell belong to the piece behind them. -/
theorem pieces_place_append (offset : Nat) (separate : Separate (ts ++ us))
    (inside : ∀ t ∈ ts, Part.endsCell t = false) :
    PlacedText.pieces (place offset (ts ++ us)) =
      (PlacedText.pieces (place (offset + sizeOf ts) us)).modifyHead (place offset ts ++ ·) := by
  induction ts generalizing offset with
  | nil =>
    show _ = List.modifyHead id _
    rw [List.modifyHead_id]
    rfl
  | cons t ts ih =>
    obtain ⟨first, others⟩ := List.forall_mem_cons.1 inside
    have size : sizeOf (t :: ts) = sizeOf [t] + sizeOf ts := sizeOf_append [t] ts
    have rest := ih (offset + sizeOf [t]) separate.2.2 others
    have passed : PlacedText.pieces (place offset (t :: (ts ++ us))) =
        (PlacedText.pieces (place (offset + sizeOf [t]) (ts ++ us))).modifyHead
          (Text.place offset t.text ++ ·) := by
      rw [place_cons]
      rcases separate.1.of_not_endsCell first with ⟨space, text⟩ | ⟨word, -⟩
      · have ends := isBlank_head?_place (offset + sizeOf [t]) separate (.inl space)
        rw [text]
        exact PlacedText.pieces_cons_space offset ends
      · exact PlacedText.pieces_append_words (isBlank_of_word offset separate.1 word) _
    rw [List.cons_append, passed, rest, List.modifyHead_modifyHead, place_cons, size, Nat.add_assoc]
    congr 1
    funext piece
    exact (List.append_assoc _ _ piece).symm

/-- The last character of a last word is no blank. -/
theorem isBlank_getLast?_place (offset : Nat) (spelled : ∀ t ∈ ts, t.IsSpelled)
    (last : ∀ t ∈ ts.getLast?, t.isTrivia = false) :
    ∀ c ∈ (place offset ts).getLast?, PlacedText.isBlank c = false := by
  rcases List.eq_nil_or_concat ts with rfl | ⟨front, t, rfl⟩
  · nofun
  · intro c hc
    have isSpelled := spelled t (by simp)
    have some : Text.place (offset + sizeOf front) t.text ≠ [] :=
      Text.place_ne_nil _ isSpelled.text_ne_nil
    rw [List.concat_eq_append, place_append, place_singleton,
      List.getLast?_append_of_ne_nil _ some] at hc
    exact isBlank_of_word _ isSpelled (last t (by simp)) c (List.mem_of_getLast? hc)

theorem isBlank_head?_place_of_word (offset : Nat) (ts : List Token) (spelled : t.IsSpelled)
    (word : t.isTrivia = false) :
    ∀ c ∈ (place offset (t :: ts)).head?, PlacedText.isBlank c = false := by
  intro c hc
  have some : Text.place offset t.text ≠ [] := Text.place_ne_nil offset spelled.text_ne_nil
  rw [place_cons, List.head?_append_of_ne_nil _ some] at hc
  exact isBlank_of_word offset spelled word c (List.mem_of_mem_head? hc)

theorem kind_of_isTrivia (trivia : t.isTrivia = true) (noBreak : t.kind ≠ .newline) :
    t.kind = .space ∨ t.kind = .separator := by
  cases kind : t.kind with
  | space => exact .inl rfl
  | separator => exact .inr rfl
  | newline => exact absurd kind noBreak
  | word | stray => simp [isTrivia, kind, TokenKind.isTrivia] at trivia

/-! ## What a line begins with -/

/-- Blanks in front of a line fill no piece. -/
theorem filled_place_gap (separate : Separate (t :: ts))
    (gap : t.kind = .space ∨ t.kind = .separator) :
    PlacedText.filled (place offset (t :: ts)) =
      PlacedText.filled (place (offset + sizeOf [t]) ts) := by
  have ends := isBlank_head?_place (offset + sizeOf [t]) separate gap
  rw [place_cons]
  rcases gap with space | separator
  · rw [separate.1.text_of_space space]
    exact PlacedText.filled_cons_space offset ends
  · exact PlacedText.filled_append_cut (cuts_place (separate.1.isSeparator separator)) ends

/-- Behind a space comes no other blank. -/
theorem Separate.kind_of_space {u v : Token} (separate : Separate (u :: v :: ts))
    (space : u.kind = .space) : v.kind ≠ .space ∧ v.kind ≠ .separator := by
  obtain ⟨-, ends, spelled, -⟩ := separate
  rw [space, head?_textOf_cons spelled] at ends
  constructor
  · intro kind
    rw [spelled.text_of_space kind] at ends
    cases ends ' ' rfl
  · intro kind
    have separator := spelled.isSeparator kind
    obtain ⟨c, text, chars⟩ := List.exists_cons_of_ne_nil separator.ne_nil
    rw [chars] at ends
    have noGap : isGap c = false := ends c rfl
    rw [separator.gaps c (by simp [chars])] at noGap
    cases noGap

/-- Behind a cell a line is cut, or nothing but a single space comes before its end. -/
theorem pieces_place_restOfCell (separate : Separate (Part.restOfCell ts).2)
    (noBreak : ∀ t ∈ ts, t.kind ≠ .newline) :
    (∃ more, PlacedText.pieces (place offset (Part.restOfCell ts).2) = [] :: more) ∨
      ∃ o, place offset (Part.restOfCell ts).2 = [(o, ' ')] := by
  have kept : ∀ t ∈ (Part.restOfCell ts).2, t.kind ≠ .newline :=
    fun t ht => noBreak t (List.mem_of_mem_drop ht)
  have spaces := LineScan.spaces_after_cell ts
  cases rest : (Part.restOfCell ts).2 with
  | nil => exact .inl ⟨[], rfl⟩
  | cons u us =>
    rw [rest] at separate kept spaces
    have trivia : u.isTrivia = true := Part.isTrivia_of_mem_head?_restOfCell (by rw [rest]; rfl)
    cases kind : u.kind with
    | word | stray => simp [isTrivia, kind, TokenKind.isTrivia] at trivia
    | newline => exact absurd kind (kept u List.mem_cons_self)
    | separator =>
      have ends := isBlank_head?_place (offset + sizeOf [u]) separate (.inr kind)
      rw [place_cons,
        PlacedText.pieces_append_cut (cuts_place (separate.1.isSeparator kind)) ends]
      exact .inl ⟨_, rfl⟩
    | space =>
      cases us with
      | nil =>
        rw [place_cons, separate.1.text_of_space kind]
        exact .inr ⟨offset, rfl⟩
      | cons v vs =>
        -- What stands behind the space is no blank, and a word would belong to the cell.
        obtain ⟨noSpace, noSeparator⟩ := separate.kind_of_space kind
        have stays : Part.endsCell v = false := by
          rw [Part.endsCell, beq_false_of_ne noSeparator, beq_false_of_ne (kept v (by simp))]
          rfl
        have inside : Part.endsCell u = false := by rw [Part.endsCell, kind]; rfl
        rw [List.takeWhile_cons_of_pos (by simp [inside]),
          List.takeWhile_cons_of_pos (by simp [stays])] at spaces
        exact absurd (spaces v (by simp)) noSpace

/-- The cell in front of a line is its first piece. -/
theorem filled_place_cell (offset : Nat) (separate : Separate (t :: ts))
    (noBreak : ∀ t ∈ ts, t.kind ≠ .newline) (word : t.isTrivia = false) :
    PlacedText.filled (place offset (t :: ts)) =
      place offset (t :: (Part.restOfCell ts).1) ::
        PlacedText.filled
          (place (offset + sizeOf (t :: (Part.restOfCell ts).1)) (Part.restOfCell ts).2) := by
  have whole : (t :: (Part.restOfCell ts).1) ++ (Part.restOfCell ts).2 = t :: ts :=
    congrArg (t :: ·) (Part.append_restOfCell ts)
  have lastWord : ∀ u ∈ (t :: (Part.restOfCell ts).1).getLast?, u.isTrivia = false :=
    Sequence.getLast?_cons_dropTrailing word _
  rw [← whole] at separate
  have spelled := separate.of_append.1.isSpelled
  have first := isBlank_head?_place_of_word offset (Part.restOfCell ts).1 separate.1 word
  have last := isBlank_getLast?_place offset spelled lastWord
  have some : place offset (t :: (Part.restOfCell ts).1) ≠ [] := by
    rw [place_cons]
    exact List.append_ne_nil_of_left_ne_nil (Text.place_ne_nil _ separate.1.text_ne_nil) _
  rw [← whole, place_append]
  refine PlacedText.filled_append ?_ some
    (fun c hc => PlacedText.ne_space_of_not_blank (first c hc))
    (fun c hc => PlacedText.ne_space_of_not_blank (last c hc))
    (pieces_place_restOfCell separate.of_append.2 noBreak)
  rw [← place_append]
  exact pieces_place_append offset separate (Part.endsCell_of_mem_restOfCell word ts)

theorem isMarked_place (spelled : t.IsSpelled) :
    PlacedText.isMarked (place offset (t :: ts)) = Part.opensComment t := by
  obtain ⟨c, text, chars⟩ := List.exists_cons_of_ne_nil spelled.text_ne_nil
  rw [place_cons, Part.opensComment, chars]
  rfl

/-- The word that begins a comment begins the first piece. -/
theorem exists_filled_place_comment (offset : Nat) (ts : List Token) (spelled : t.IsSpelled)
    (word : t.isTrivia = false) (opens : Part.opensComment t = true) : ∃ piece more,
      PlacedText.filled (place offset (t :: ts)) = piece :: more ∧
        piece.head? = some (offset, '#') := by
  obtain ⟨c, text, chars⟩ := List.exists_cons_of_ne_nil spelled.text_ne_nil
  obtain rfl : c = '#' := by
    rw [Part.opensComment, chars, beq_iff_eq] at opens
    exact Option.some.inj opens
  have noBlank := isBlank_of_word offset spelled word
  rw [place_cons, chars]
  rw [chars] at noBlank
  exact PlacedText.exists_filled_cons (noBlank _ List.mem_cons_self) _

/-- A comment ends with the last word of its line. -/
theorem dropTrailing_place (separate : Separate (t :: ts)) (noBreak : ∀ t ∈ ts, t.kind ≠ .newline)
    (word : t.isTrivia = false) :
    Sequence.dropTrailing PlacedText.isBlank (place offset (t :: ts)) =
      place offset (t :: (Part.restOfComment ts).1) := by
  obtain ⟨dropped, whole, trivia⟩ := Sequence.exists_dropTrailing_append isTrivia ts
  have split : t :: ts = (t :: (Part.restOfComment ts).1) ++ dropped := congrArg (t :: ·) whole
  rw [split] at separate
  obtain ⟨front, back⟩ := separate.of_append
  have blank : ∀ c ∈ place (offset + sizeOf (t :: (Part.restOfComment ts).1)) dropped,
      PlacedText.isBlank c = true := by
    intro c hc
    obtain ⟨u, hu, mem⟩ := List.mem_flatMap.1 (Text.snd_mem_of_mem_place hc)
    have noNewline := noBreak u (whole ▸ List.mem_append_right _ hu)
    have spelled := back.isSpelled u hu
    show isGap c.2 = true
    rcases kind_of_isTrivia (trivia u hu) noNewline with space | separator
    · rw [spelled.text_of_space space, List.mem_singleton] at mem
      rw [mem]
      rfl
    · exact (spelled.isSeparator separator).gaps c.2 mem
  have last := isBlank_getLast?_place offset front.isSpelled
    (Sequence.getLast?_cons_dropTrailing word ts)
  rw [split, place_append, Sequence.dropTrailing_append _ blank]
  exact Sequence.dropTrailing_eq_self last

/-! ## The parts of a line -/

/-- Tokens that are passed stand before the ones behind them. -/
theorem fst_lt_of_passed {front : PlacedText} (h : tokens.drop i = ts ++ more)
    (before : ∀ c ∈ front, c.1 < sizeOf (tokens.take i)) :
    ∀ c ∈ front ++ place (sizeOf (tokens.take i)) ts,
      c.1 < sizeOf (tokens.take (i + ts.length)) := by
  intro c hc
  rw [sizeOf_take_add h]
  rcases List.mem_append.1 hc with hc | hc
  · have earlier := before c hc
    omega
  · exact (Text.fst_of_mem_place hc).2

/-- Whether the cells and the comment among the parts of tokens, the first of which has the number
`i`, are those that are read off their characters, in a line with `front` before them. -/
structure ReadsParts (tokens : List Token) (front : PlacedText) (i : Nat) (ts : List Token) :
    Prop where
  cells : (Part.cellRanges i (Part.ofTokens ts)).map (fun c => placedSlice tokens c.start c.stop) =
    PlacedText.cells (place (sizeOf (tokens.take i)) ts)
  comment : (Part.commentRange? i (Part.ofTokens ts)).map (fun r => placedSlice tokens r.1 r.2) =
    (PlacedText.mark? (place (sizeOf (tokens.take i)) ts)).map
      (PlacedText.tail (front ++ place (sizeOf (tokens.take i)) ts))

namespace ReadsParts

variable {front : PlacedText}

theorem nil (front : PlacedText) (i : Nat) : ReadsParts tokens front i [] := by
  constructor <;> rw [Part.ofTokens] <;> rfl

/-- Blanks are passed. -/
theorem gap (h : tokens.drop i = [t] ++ more) (separate : Separate (t :: ts))
    (trivia : t.isTrivia = true) (noBreak : t.kind ≠ .newline)
    (behind : ReadsParts tokens (front ++ place (sizeOf (tokens.take i)) [t]) (i + 1) ts) :
    ReadsParts tokens front i (t :: ts) := by
  have size : sizeOf (tokens.take (i + 1)) = sizeOf (tokens.take i) + sizeOf [t] :=
    sizeOf_take_add h
  have line : place (sizeOf (tokens.take i)) (t :: ts) =
      place (sizeOf (tokens.take i)) [t] ++ place (sizeOf (tokens.take (i + 1))) ts := by
    rw [← List.singleton_append, place_append, ← size]
  have filled : PlacedText.filled (place (sizeOf (tokens.take i)) (t :: ts)) =
      PlacedText.filled (place (sizeOf (tokens.take (i + 1))) ts) := by
    rw [filled_place_gap separate (kind_of_isTrivia trivia noBreak), size]
  constructor <;> rw [Part.ofTokens, if_pos trivia]
  · rw [PlacedText.cells, filled]
    exact behind.cells
  · rw [PlacedText.mark?, filled, line, ← List.append_assoc]
    exact behind.comment

/-- A comment is the rest of the line, the blanks at its end left out. -/
theorem ofComment (h : tokens.drop i = (t :: ts) ++ more) (separate : Separate (t :: ts))
    (noBreak : ∀ u ∈ ts, u.kind ≠ .newline) (word : t.isTrivia = false)
    (opens : Part.opensComment t = true)
    (before : ∀ c ∈ front, c.1 < sizeOf (tokens.take i)) :
    ReadsParts tokens front i (t :: ts) := by
  have whole : (t :: (Part.restOfComment ts).1) ++ (Part.restOfComment ts).2 = t :: ts :=
    congrArg (t :: ·) (Part.append_restOfComment ts)
  have here : tokens.drop i =
      (t :: (Part.restOfComment ts).1) ++ ((Part.restOfComment ts).2 ++ more) := by
    rw [h, ← whole, List.append_assoc]
  have starts : ∀ c ∈ (place (sizeOf (tokens.take i)) (t :: ts)).head?,
      sizeOf (tokens.take i) ≤ c.1 :=
    fun c hc => (Text.fst_of_mem_place (List.mem_of_mem_head? hc)).1
  have written : PlacedText.tail (front ++ place (sizeOf (tokens.take i)) (t :: ts))
      (sizeOf (tokens.take i), '#') =
        place (sizeOf (tokens.take i)) (t :: (Part.restOfComment ts).1) := by
    rw [PlacedText.tail_append before starts]
    exact dropTrailing_place separate noBreak word
  obtain ⟨piece, rest, filled, begins⟩ := exists_filled_place_comment
    (sizeOf (tokens.take i)) ts separate.1 word opens
  obtain ⟨noCells, mark⟩ := PlacedText.of_filled_marked filled begins
  constructor <;> rw [Part.ofTokens, if_neg (by simp [word]), if_pos opens]
  · rw [noCells, Part.cellRanges, Part.cellRanges_map_gap]
    rfl
  · rw [mark]
    show some (placedSlice tokens i (i + (t :: (Part.restOfComment ts).1).length)) = some _
    rw [written, placedSlice_of_drop here]

/-- A cell is the first piece, and reading goes on behind it. -/
theorem ofCell (h : tokens.drop i = (t :: (Part.restOfCell ts).1) ++ more)
    (separate : Separate (t :: ts)) (noBreak : ∀ u ∈ ts, u.kind ≠ .newline)
    (word : t.isTrivia = false) (noComment : ¬ Part.opensComment t = true)
    (behind : ReadsParts tokens
      (front ++ place (sizeOf (tokens.take i)) (t :: (Part.restOfCell ts).1))
      (i + (t :: (Part.restOfCell ts).1).length) (Part.restOfCell ts).2) :
    ReadsParts tokens front i (t :: ts) := by
  have size := sizeOf_take_add h
  have line : place (sizeOf (tokens.take i)) (t :: ts) =
      place (sizeOf (tokens.take i)) (t :: (Part.restOfCell ts).1) ++
        place (sizeOf (tokens.take (i + (t :: (Part.restOfCell ts).1).length)))
          (Part.restOfCell ts).2 := by
    rw [size, ← place_append]
    exact congrArg (fun us => place _ (t :: us)) (Part.append_restOfCell ts).symm
  have noMark : PlacedText.isMarked
      (place (sizeOf (tokens.take i)) (t :: (Part.restOfCell ts).1)) = false := by
    rw [isMarked_place separate.1]
    simpa using noComment
  have filled := filled_place_cell (sizeOf (tokens.take i)) separate noBreak word
  rw [← size] at filled
  obtain ⟨first, mark⟩ := PlacedText.of_filled_cell filled noMark
  constructor <;> rw [Part.ofTokens, if_neg (by simp [word]), if_neg noComment]
  · rw [first, Part.cellRanges, List.map_cons]
    show placedSlice tokens i (i + (t :: (Part.restOfCell ts).1).length) :: _ = _
    rw [placedSlice_of_drop h]
    exact congrArg _ behind.cells
  · rw [mark, line, ← List.append_assoc]
    exact behind.comment

end ReadsParts

/-- The cells and the comment among the parts of a line are read off its characters. The induction
goes over the end of the line; what has been passed of it is in front. -/
theorem readsParts (front : PlacedText) (h : tokens.drop i = ts ++ more) (separate : Separate ts)
    (noBreak : ∀ t ∈ ts, t.kind ≠ .newline)
    (before : ∀ c ∈ front, c.1 < sizeOf (tokens.take i)) : ReadsParts tokens front i ts := by
  induction ts using Part.ofTokens.induct generalizing i front with
  | case1 => exact .nil front i
  | case2 t ts trivia ih =>
    obtain ⟨first, others⟩ := List.forall_mem_cons.1 noBreak
    have here : tokens.drop i = [t] ++ (ts ++ more) := h
    have passed := fst_lt_of_passed here before
    exact .gap here separate trivia first
      (ih _ (drop_add_of_drop here) separate.2.2 others passed)
  | case3 t ts noTrivia opens =>
    exact .ofComment h separate (List.forall_mem_cons.1 noBreak).2 (by simpa using noTrivia) opens
      before
  | case4 t ts noTrivia noComment rest =>
    rename_i ih
    have whole : (t :: rest.1) ++ rest.2 = t :: ts := congrArg (t :: ·) (Part.append_restOfCell ts)
    have here : tokens.drop i = (t :: rest.1) ++ (rest.2 ++ more) := by
      rw [h, ← whole, List.append_assoc]
    have behind : Separate rest.2 := (whole ▸ separate).of_append.2
    have kept : ∀ u ∈ rest.2, u.kind ≠ .newline :=
      fun u hu => noBreak u (whole ▸ List.mem_append_right _ hu)
    have passed := fst_lt_of_passed here before
    exact .ofCell here separate (List.forall_mem_cons.1 noBreak).2 (by simpa using noTrivia)
      noComment (ih _ (drop_add_of_drop here) behind kept passed)

end Token

namespace Part

variable {t : Token} {ts : List Token}

/-! ## Line breaks -/

/-- A line break behind a comment does not belong to it. -/
theorem restOfComment_append_newline (newline : t.kind = .newline) (ts : List Token) :
    restOfComment (ts ++ [t]) = ((restOfComment ts).1, (restOfComment ts).2 ++ [t]) := by
  have trivia : ∀ u ∈ [t], u.isTrivia = true := by
    intro u hu
    rw [List.mem_singleton.1 hu, Token.isTrivia, newline]
    rfl
  have body : Sequence.dropTrailing Token.isTrivia (ts ++ [t]) = (restOfComment ts).1 :=
    Sequence.dropTrailing_append ts trivia
  have short : (restOfComment ts).1.length ≤ ts.length := Sequence.length_dropTrailing_le _ _
  rw [restOfComment, body, List.drop_append_of_le_length short]
  rfl

/-- A line break behind a cell does not belong to it. -/
theorem restOfCell_append_newline (newline : t.kind = .newline) (ts : List Token) :
    restOfCell (ts ++ [t]) = ((restOfCell ts).1, (restOfCell ts).2 ++ [t]) := by
  have inside : (ts ++ [t]).takeWhile (fun u => !endsCell u) =
      ts.takeWhile fun u => !endsCell u := by
    refine (Sequence.takeWhile_append_of_head? ts ?_).1
    rintro _ ⟨⟩
    rw [endsCell, newline]
    rfl
  have short : (restOfCell ts).1.length ≤ ts.length :=
    (restOfCell_isPrefix ts).length_le.trans (List.takeWhile_prefix _).length_le
  have body : Sequence.dropTrailing Token.isTrivia ((ts ++ [t]).takeWhile fun u => !endsCell u) =
      (restOfCell ts).1 := by
    rw [inside]
    rfl
  rw [restOfCell, body, List.drop_append_of_le_length short]
  rfl

/-- A line break is a part of its own. -/
theorem ofTokens_append_newline (newline : t.kind = .newline) (ts : List Token) :
    ofTokens (ts ++ [t]) = ofTokens ts ++ [.gap t] := by
  induction ts using ofTokens.induct with
  | case1 =>
    have trivia : t.isTrivia = true := by rw [Token.isTrivia, newline]; rfl
    have none : ofTokens [] = [] := by rw [ofTokens]
    rw [none, List.nil_append, List.nil_append, ofTokens, if_pos trivia, none]
  | case2 u us blank ih =>
    rw [List.cons_append, ofTokens, if_pos blank, ih, ofTokens, if_pos blank, List.cons_append]
  | case3 u us noTrivia opens =>
    rw [List.cons_append, ofTokens, if_neg noTrivia, if_pos opens, ofTokens, if_neg noTrivia,
      if_pos opens, restOfComment_append_newline newline]
    show comment _ :: ((restOfComment us).2 ++ [t]).map gap = comment _ :: _ ++ [gap t]
    rw [List.map_append, List.map_singleton, List.cons_append]
  | case4 u us noTrivia noComment rest ih =>
    rw [List.cons_append, ofTokens, if_neg noTrivia, if_neg noComment, ofTokens, if_neg noTrivia,
      if_neg noComment, restOfCell_append_newline newline]
    show cell _ :: ofTokens (rest.2 ++ [t]) = cell _ :: ofTokens rest.2 ++ [gap t]
    rw [ih, List.cons_append]

theorem ranges_append_gap (i : Nat) (ps : List Part) (t : Token) :
    cellRanges i (ps ++ [.gap t]) = cellRanges i ps ∧
      commentRange? i (ps ++ [.gap t]) = commentRange? i ps := by
  induction ps generalizing i with
  | nil => exact ⟨rfl, rfl⟩
  | cons p ps ih =>
    cases p with
    | gap u => exact ih _
    | cell us => exact ⟨congrArg (_ :: ·) (ih _).1, (ih _).2⟩
    | comment us => exact ⟨(ih _).1, rfl⟩

/-- The text of a cell is that of its tokens. -/
theorem text_of_mem_cellRanges {tokens more : List Token} {i : Nat} {ps : List Part}
    (h : tokens.drop i = ps.flatMap Part.tokens ++ more) :
    ∀ c ∈ cellRanges i ps, c.text = Token.textOf (Token.slice tokens c.start c.stop) := by
  induction ps generalizing i with
  | nil => simp [cellRanges]
  | cons p ps ih =>
    rw [List.flatMap_cons, List.append_assoc] at h
    have later := ih (Token.drop_add_of_drop h)
    cases p with
    | gap u => exact later
    | comment us => exact later
    | cell us =>
      refine List.forall_mem_cons.2 ⟨?_, later⟩
      exact congrArg Token.textOf (Token.slice_of_drop h).symm

end Part

namespace Token

variable {tokens ts us g more : List Token} {gs : List (List Token)} {t : Token} {offset i : Nat}

/-! ## Lines of tokens -/

/-- Line feeds are in line breaks only. -/
theorem ne_feed_of_mem_place (offset : Nat) (spelled : ∀ t ∈ ts, t.IsSpelled)
    (noBreak : ∀ t ∈ ts, t.kind ≠ .newline) : ∀ c ∈ place offset ts, c.2 ≠ '\n' := by
  intro c hc isFeed
  obtain ⟨t, ht, mem⟩ := List.mem_flatMap.1 (Text.snd_mem_of_mem_place hc)
  rw [isFeed] at mem
  exact (spelled t ht).notMem_newline (noBreak t ht) mem

/-- Before a line feed that is a line break by itself comes no carriage return. -/
theorem ne_return_of_mem_getLast? (separate : Separate (ts ++ [t])) (feed : t.text = ['\n'])
    (noBreak : ∀ t ∈ ts, t.kind ≠ .newline) :
    ∀ c ∈ (place offset ts).getLast?, c.2 ≠ '\r' := by
  rcases List.eq_nil_or_concat ts with rfl | ⟨front, u, rfl⟩
  · nofun
  · rw [List.concat_eq_append] at separate noBreak ⊢
    intro c last isReturn
    have spelled := separate.of_append.1.isSpelled u (by simp)
    have some : Text.place (offset + sizeOf front) u.text ≠ [] :=
      Text.place_ne_nil _ spelled.text_ne_nil
    rw [place_append, place_singleton, List.getLast?_append_of_ne_nil _ some] at last
    have mem := Text.snd_mem_of_mem_place (List.mem_of_getLast? last)
    rw [isReturn] at mem
    have stray : u.kind = .stray := spelled.kind_of_return (noBreak u (by simp)) mem
    rw [List.append_assoc] at separate
    have ends : ∀ c ∈ (textOf [t]).head?, u.kind.takes c = false := separate.of_append.2.2.1
    rw [textOf, List.flatMap_singleton, feed, stray] at ends
    cases ends '\n' rfl

/-- The tokens of a line without its line break. -/
theorem content_place (separate : Separate (ts ++ [t])) (newline : t.kind = .newline)
    (noBreak : ∀ t ∈ ts, t.kind ≠ .newline) :
    PlacedText.content (place offset (ts ++ [t])) = place offset ts := by
  rw [place_append, place_singleton]
  rcases (separate.isSpelled t (by simp)).text_of_newline newline with feed | paired
  · rw [feed]
    exact PlacedText.content_append_feed _ (ne_return_of_mem_getLast? separate feed noBreak)
  · rw [paired]
    exact PlacedText.content_append_break _ _ _

/-- The first line of a text is that of its tokens. -/
theorem lines_place (separate : Separate g) (areLines : AreLines (g :: gs)) :
    PlacedText.lines (place offset (g ++ gs.flatten)) =
      place offset g :: PlacedText.lines (place (offset + sizeOf g) gs.flatten) := by
  obtain ⟨some, single, ends, -⟩ := areLines
  rw [place_append]
  rcases List.eq_nil_or_concat g with rfl | ⟨ts, t, rfl⟩
  · exact absurd rfl some
  rw [List.concat_eq_append] at separate single ends ⊢
  rw [List.dropLast_concat] at single
  obtain ⟨front, -⟩ := separate.of_append
  have noFeed := ne_feed_of_mem_place offset front.isSpelled single
  by_cases newline : t.kind = .newline
  · rw [place_append, place_singleton, List.append_assoc]
    rcases (separate.isSpelled t (by simp)).text_of_newline newline with feed | paired
    · rw [feed]
      exact PlacedText.lines_append_feed rfl noFeed _
    · rw [paired]
      have inside : ∀ c ∈ place offset ts ++ [(offset + sizeOf ts, '\r')], c.2 ≠ '\n' := by
        intro c hc
        rcases List.mem_append.1 hc with hc | hc
        · exact noFeed c hc
        · rw [List.mem_singleton.1 hc]
          show '\r' ≠ '\n'
          decide
      have isFeed : (offset + sizeOf ts + '\r'.utf8Size, '\n').2 = '\n' := rfl
      have split := PlacedText.lines_append_feed isFeed inside
        (place (offset + sizeOf (ts ++ [t])) gs.flatten)
      rw [List.append_assoc, List.append_assoc] at split
      exact split
  · obtain rfl : gs = [] := by
      by_contra more
      obtain ⟨u, last, isBreak⟩ := ends more
      rw [List.getLast?_concat] at last
      exact newline ((Option.some.inj last) ▸ isBreak)
    have noBreak : ∀ u ∈ ts ++ [t], u.kind ≠ .newline :=
      List.forall_mem_append.2 ⟨single, by simpa using newline⟩
    have filled : place offset (ts ++ [t]) ≠ [] := by
      rw [place_append, place_singleton]
      have filledLast := (separate.isSpelled t (by simp)).text_ne_nil
      exact List.append_ne_nil_of_right_ne_nil _ (Text.place_ne_nil _ filledLast)
    have none (o : Nat) : place o ([] : List (List Token)).flatten = [] := rfl
    rw [none, List.append_nil]
    exact PlacedText.lines_of_noFeed filled (ne_feed_of_mem_place _ separate.isSpelled noBreak)

/-- The cells and the comment of a line are read off its characters. -/
theorem read_line (h : tokens.drop i = g ++ more) (separate : Separate g)
    (single : ∀ t ∈ g.dropLast, t.kind ≠ .newline) :
    (Part.cellRanges i (Part.ofTokens g)).map (fun c => placedSlice tokens c.start c.stop) =
        PlacedText.cells (PlacedText.content (place (sizeOf (tokens.take i)) g)) ∧
      (Part.commentRange? i (Part.ofTokens g)).map (fun r => placedSlice tokens r.1 r.2) =
        PlacedText.comment? (PlacedText.content (place (sizeOf (tokens.take i)) g)) := by
  have read {ts more : List Token} (h : tokens.drop i = ts ++ more) (separate : Separate ts)
      (noBreak : ∀ t ∈ ts, t.kind ≠ .newline) : ReadsParts tokens [] i ts :=
    readsParts [] h separate noBreak (by simp)
  rcases List.eq_nil_or_concat g with rfl | ⟨ts, t, rfl⟩
  · obtain ⟨cells, comment⟩ := read h separate (by simp)
    exact ⟨cells, comment⟩
  rw [List.concat_eq_append] at h separate single ⊢
  rw [List.dropLast_concat] at single
  by_cases newline : t.kind = .newline
  · rw [content_place separate newline single, Part.ofTokens_append_newline newline,
      (Part.ranges_append_gap i _ t).1, (Part.ranges_append_gap i _ t).2]
    rw [List.append_assoc] at h
    obtain ⟨cells, comment⟩ := read h separate.of_append.1 single
    exact ⟨cells, comment⟩
  · have noBreak : ∀ u ∈ ts ++ [t], u.kind ≠ .newline :=
      List.forall_mem_append.2 ⟨single, by simpa using newline⟩
    rw [PlacedText.content_of_noFeed (ne_feed_of_mem_place _ separate.isSpelled noBreak)]
    obtain ⟨cells, comment⟩ := read h separate noBreak
    exact ⟨cells, comment⟩

end Token

namespace LineEntry

/-- What an entry that begins with the token `start` says of a line: its tokens and its span are the
characters of the line, and its cells and its comment are read off these characters. -/
structure Reads (text : Text) (start : Nat) (line : PlacedText) (e : LineEntry) : Prop where
  begins : start < e.stop
  filled : ∀ t ∈ Token.slice (tokenize text) start e.stop, t.text ≠ []
  whole : Token.placedSlice (tokenize text) start e.stop = line
  span : Text.place e.span.start (text.slice e.span) = line
  cells : e.cells.map (fun c => Token.placedSlice (tokenize text) c.start c.stop) =
    PlacedText.cells (PlacedText.content line)
  texts : e.cells.map CellRange.text =
    (PlacedText.cells (PlacedText.content line)).map fun cell => cell.map Prod.snd
  comment : e.comment?.map (fun r => Token.placedSlice (tokenize text) r.1 r.2) =
    PlacedText.comment? (PlacedText.content line)

/-- Entries for lines, each of which begins with the token behind the line before it. -/
inductive ReadsAll (text : Text) : Nat → List PlacedText → List LineEntry → Prop
  | nil : ReadsAll text (tokenize text).length [] []
  | cons {start : Nat} {line : PlacedText} {e : LineEntry} {lines : List PlacedText}
      {es : List LineEntry} : Reads text start line e → ReadsAll text e.stop lines es →
      ReadsAll text start (line :: lines) (e :: es)

variable {text : Text} {gs : List (List Token)} {i : Nat}

/-- The first line of what is behind some tokens is written like tokens. -/
theorem separate_of_drop {g more : List Token} (h : (tokenize text).drop i = g ++ more) :
    Token.Separate g := by
  have all := Token.separate_tokenize text
  rw [← List.take_append_drop i (tokenize text), h] at all
  exact all.of_append.2.of_append.1

/-- Some tokens are in the text where their sizes say. -/
theorem slice_of_drop {g more : List Token} (h : (tokenize text).drop i = g ++ more) :
    text.slice ⟨Token.sizeOf ((tokenize text).take i), Token.sizeOf g⟩ = Token.textOf g := by
  have whole : Token.textOf ((tokenize text).take i) ++ (Token.textOf g ++ Token.textOf more) =
      text := by
    have spelled := textOf_tokenize text
    rw [← List.take_append_drop i (tokenize text), h] at spelled
    simpa [Token.textOf] using spelled
  have cut := Text.slice_append (Token.textOf ((tokenize text).take i)) (Token.textOf g)
    (Token.textOf more)
  rw [whole] at cut
  exact cut

/-- An entry of the table reads its line. -/
theorem reads_ofLine {g more : List Token} (h : (tokenize text).drop i = g ++ more)
    (some : g ≠ []) (single : ∀ t ∈ g.dropLast, t.kind ≠ .newline) :
    Reads text i (Token.place (Token.sizeOf ((tokenize text).take i)) g)
      (ofLine i ⟨Token.sizeOf ((tokenize text).take i), Part.ofTokens g⟩) := by
  have tokens : (Part.ofTokens g).flatMap Part.tokens = g := Part.flatMap_tokens_ofTokens g
  have stop : (ofLine i ⟨Token.sizeOf ((tokenize text).take i), Part.ofTokens g⟩).stop =
      i + g.length := by
    rw [ofLine, Line.tokens, tokens]
  obtain ⟨cells, comment⟩ := Token.read_line h (separate_of_drop h) single
  refine {
    begins := ?_, filled := fun t ht => ?_, whole := ?_, span := ?_, cells := cells,
    texts := ?_, comment := comment }
  · have pos := List.length_pos_iff.2 some
    rw [stop]
    omega
  · have mem : t ∈ tokenize text := List.mem_of_mem_take (List.mem_of_mem_drop ht)
    exact Token.text_ne_nil_of_mem_tokenize mem
  · rw [stop]
    exact Token.placedSlice_of_drop h
  · show Text.place _ (text.slice (Line.span _)) = _
    rw [Line.span, Line.tokens, tokens, slice_of_drop h]
    rfl
  · have parts : (tokenize text).drop i = (Part.ofTokens g).flatMap Part.tokens ++ more := by
      rw [tokens, h]
    rw [← cells, List.map_map]
    refine List.map_congr_left fun c hc => ?_
    show c.text = (Text.place _ _).map Prod.snd
    rw [Text.map_snd_place]
    exact Part.text_of_mem_cellRanges parts c hc

/-- The entries of the lines behind some tokens read the lines of the text behind them. -/
theorem readsAll_ofLines (lines : AreLines gs) (h : (tokenize text).drop i = gs.flatten)
    (inside : i ≤ (tokenize text).length) :
    ReadsAll text i
      (PlacedText.lines (Token.place (Token.sizeOf ((tokenize text).take i)) gs.flatten))
      (ofLines i (linesOf.locate (Token.sizeOf ((tokenize text).take i)) gs)) := by
  induction gs generalizing i with
  | nil =>
    obtain rfl : i = (tokenize text).length := by
      have none := List.drop_eq_nil_iff.1 h
      omega
    exact .nil
  | cons g gs ih =>
    rw [List.flatten_cons] at h ⊢
    have first := reads_ofLine h lines.1 lines.2.1
    have size : Token.sizeOf ((tokenize text).take (i + g.length)) =
        Token.sizeOf ((tokenize text).take i) + Token.sizeOf g := Token.sizeOf_take_add h
    have fits : i + g.length ≤ (tokenize text).length := by
      have length := congrArg List.length h
      rw [List.length_drop, List.length_append] at length
      omega
    have later := ih lines.2.2.2 (Token.drop_add_of_drop h) fits
    have tokens : (Part.ofTokens g).flatMap Part.tokens = g := Part.flatMap_tokens_ofTokens g
    rw [Token.lines_place (separate_of_drop h) lines, linesOf.locate, ofLines, ← size]
    refine .cons first ?_
    show ReadsAll text (i + ((Part.ofTokens g).flatMap Part.tokens).length) _
      (ofLines (i + ((Part.ofTokens g).flatMap Part.tokens).length) _)
    rw [tokens]
    exact later

/-- The lines and the tokens of a text partition it. So do the tokens of each line, whose cells and
comment in the table are those that are read off its characters. -/
theorem readsAll_table (text : Text) :
    (PlacedText.lines (Text.place 0 text)).flatten = Text.place 0 text ∧
      Token.textOf (tokenize text) = text ∧
      ReadsAll text 0 (PlacedText.lines (Text.place 0 text)) (table (tokenize text)) := by
  refine ⟨PlacedText.flatten_lines _, textOf_tokenize text, ?_⟩
  have all := readsAll_ofLines (i := 0) (AreLines.splitLines (tokenize text))
    (flatten_splitLines _).symm (Nat.zero_le _)
  rw [flatten_splitLines] at all
  have spelled : Token.place 0 (tokenize text) = Text.place 0 text := by
    rw [Token.place, textOf_tokenize]
  rw [table_eq, ← spelled]
  exact all

end LineEntry

/-- A mark in front of a word begins a comment only where a cell might begin. -/
example :
    let line := Text.place 0 " Log  a #b\t#c  d \r\n".toList
    (PlacedText.cells (PlacedText.content line)).map (·.map Prod.snd) =
        ["Log".toList, "a #b".toList] ∧
      PlacedText.comment? (PlacedText.content line) = some (Text.place 11 "#c  d".toList) := by
  decide +kernel

end RobotAnalysis
