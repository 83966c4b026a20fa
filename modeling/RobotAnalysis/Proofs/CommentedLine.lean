import RobotAnalysis.Proofs.DefinitionLines
import RobotAnalysis.Proofs.LineSeam
import RobotAnalysis.Proofs.TokenSpelling

/-!
# A line turned into a comment

The lines of a text are determined by where its line breaks are. So a line can be replaced by a
comment of the same size without any effect on the other lines: the same tokens stand in them, at
the same offsets. The comment itself has no cells.
-/
namespace RobotAnalysis

namespace Token

theorem Separate.of_append {ts us : List Token} (h : Separate (ts ++ us)) :
    Separate ts ∧ Separate us := by
  induction ts with
  | nil => exact ⟨trivial, h⟩
  | cons t ts ih =>
    obtain ⟨spelled, ends, rest⟩ := h
    obtain ⟨front, back⟩ := ih rest
    refine ⟨⟨spelled, fun c hc => ends c ?_, front⟩, back⟩
    change c ∈ (textOf (ts ++ us)).head?
    rw [textOf, List.flatMap_append, List.head?_append, ← textOf, Option.mem_def.1 hc]
    rfl

theorem IsSpelled.getLast?_of_newline {t : Token} (h : t.IsSpelled) (newline : t.kind = .newline) :
    t.text.getLast? = some '\n' := by
  rcases h.text_of_newline newline with text | text <;> rw [text] <;> rfl

theorem getLast?_textOf_of_newline {ts : List Token} (h : Separate ts) {t : Token}
    (last : ts.getLast? = some t) (newline : t.kind = .newline) :
    (textOf ts).getLast? = some '\n' := by
  obtain ⟨front, rfl⟩ := List.getLast?_eq_some_iff.1 last
  have ends := (h.isSpelled t (by simp)).getLast?_of_newline newline
  rw [textOf, List.flatMap_append, List.flatMap_singleton, List.getLast?_append, ends]
  rfl

end Token

/-- Whether groups of tokens are lines: none is empty, and the line breaks are at the ends of all of
them, the last one perhaps excepted. -/
def AreLines : List (List Token) → Prop
  | [] => True
  | g :: gs => g ≠ [] ∧ (∀ t ∈ g.dropLast, t.kind ≠ .newline) ∧
      (gs ≠ [] → ∃ t, g.getLast? = some t ∧ t.kind = .newline) ∧ AreLines gs

namespace AreLines

theorem splitLines_of_single {g : List Token} (filled : g ≠ [])
    (single : ∀ t ∈ g.dropLast, t.kind ≠ .newline) : splitLines g = [g] := by
  induction g with
  | nil => exact absurd rfl filled
  | cons t g ih =>
    cases g with
    | nil => by_cases newline : t.kind = .newline <;> simp [splitLines, newline]
    | cons u g =>
      rw [List.dropLast_cons_cons] at single
      obtain ⟨first, others⟩ := List.forall_mem_cons.1 single
      exact splitLines_cons first (ih (List.cons_ne_nil _ _) others)

theorem splitLines_flatten {gs : List (List Token)} (h : AreLines gs) :
    splitLines gs.flatten = gs := by
  induction gs with
  | nil => rfl
  | cons g gs ih =>
    obtain ⟨filled, single, ends, rest⟩ := h
    have alone := splitLines_of_single filled single
    cases gs with
    | nil => simpa using alone
    | cons g' gs =>
      obtain ⟨t, last, newline⟩ := ends (List.cons_ne_nil _ _)
      have breaks : ∀ t ∈ g.getLast?, t.kind = .newline := by
        intro u hu
        rw [last, Option.mem_some] at hu
        exact hu ▸ newline
      rw [List.flatten_cons, splitLines_append breaks, alone, ih rest, List.singleton_append]

theorem splitLines (ts : List Token) : AreLines (splitLines ts) := by
  induction ts with
  | nil => trivial
  | cons t ts ih =>
    by_cases newline : t.kind = .newline
    · rw [RobotAnalysis.splitLines, if_pos newline]
      exact ⟨List.cons_ne_nil _ _, by simp, fun _ => ⟨t, rfl, newline⟩, ih⟩
    · cases found : RobotAnalysis.splitLines ts with
      | nil =>
        rw [RobotAnalysis.splitLines, if_neg newline, found]
        exact ⟨List.cons_ne_nil _ _, by simp, fun more => absurd rfl more, trivial⟩
      | cons g gs =>
        rw [splitLines_cons newline found]
        rw [found] at ih
        obtain ⟨filled, single, ends, rest⟩ := ih
        refine ⟨List.cons_ne_nil _ _, ?_, fun more => ?_, rest⟩
        · rw [List.dropLast_cons_of_ne_nil filled]
          exact List.forall_mem_cons.2 ⟨newline, single⟩
        · obtain ⟨u, last, isBreak⟩ := ends more
          exact ⟨u, by rw [List.getLast?_cons, last]; rfl, isBreak⟩

theorem ne_nil {gs : List (List Token)} (h : AreLines gs) : ∀ g ∈ gs, g ≠ [] := by
  induction gs with
  | nil => simp
  | cons g gs ih => exact List.forall_mem_cons.2 ⟨h.1, ih h.2.2.2⟩

/-- Another line can take the place of a line, if it ends as that one does. -/
theorem replace {front back : List (List Token)} {g g' : List Token}
    (h : AreLines (front ++ g :: back)) (filled : g' ≠ [])
    (single : ∀ t ∈ g'.dropLast, t.kind ≠ .newline)
    (ends : back ≠ [] → ∃ t, g'.getLast? = some t ∧ t.kind = .newline) :
    AreLines (front ++ g' :: back) := by
  induction front with
  | nil => exact ⟨filled, single, ends, h.2.2.2⟩
  | cons f front ih =>
    obtain ⟨filledFirst, singleFirst, endsFirst, rest⟩ := h
    exact ⟨filledFirst, singleFirst, fun _ => endsFirst (by simp), ih rest⟩

end AreLines

namespace linesOf

theorem length_locate (offset : Nat) (groups : List (List Token)) :
    (locate offset groups).length = groups.length := by
  induction groups generalizing offset with
  | nil => rfl
  | cons g groups ih => rw [locate, List.length_cons, ih, List.length_cons]

end linesOf

/-- Where a line is replaced by another one of its size, the other lines stay what they are. -/
theorem linesOf_replace {tokens g : List Token} {front back : List Line} {l : Line}
    (h : linesOf tokens = front ++ l :: back)
    (lines : AreLines (front.map Line.tokens ++ g :: back.map Line.tokens))
    (size : Token.sizeOf g = Token.sizeOf l.tokens) :
    linesOf (front.flatMap Line.tokens ++ (g ++ back.flatMap Line.tokens)) =
      front ++ ⟨l.start, Part.ofTokens g⟩ :: back := by
  have old : linesOf tokens =
      linesOf.locate 0 (front.map Line.tokens ++ l.tokens :: back.map Line.tokens) := by
    rw [linesOf, ← map_tokens_linesOf, h, List.map_append, List.map_cons]
  rw [h, linesOf.locate_append, linesOf.locate] at old
  obtain ⟨before, here⟩ := List.append_inj old (by rw [linesOf.length_locate, List.length_map])
  obtain ⟨first, behind⟩ := List.cons.inj here
  have flatten : front.flatMap Line.tokens ++ (g ++ back.flatMap Line.tokens) =
      (front.map Line.tokens ++ g :: back.map Line.tokens).flatten := by
    rw [List.flatten_append, List.flatten_cons, List.flatMap_def, List.flatMap_def]
  rw [flatten, linesOf, lines.splitLines_flatten, linesOf.locate_append, linesOf.locate, size,
    ← before, ← behind, first]

namespace Text

/-- Whether a text is a comment of the size of some line, and ends as the line does. -/
structure IsCommentFor (line comment : Text) : Prop where
  size : byteSize comment = byteSize line
  marked : ∃ blanks words, comment = blanks ++ '#' :: words ∧ ∀ c ∈ blanks, Token.isGap c = true
  single : '\n' ∉ comment.dropLast
  ending : comment.getLast? = some '\n' ↔ line.getLast? = some '\n'

variable {line comment : Text}

theorem IsCommentFor.ne_nil (h : IsCommentFor line comment) : comment ≠ [] := by
  obtain ⟨blanks, words, rfl, -⟩ := h.marked
  simp

/-- What stands in front of a part that is not empty does not reach over a line break at the end. -/
theorem notMem_of_append {s t : Text} (single : '\n' ∉ (s ++ t).dropLast) (filled : t ≠ []) :
    '\n' ∉ s := by
  rw [List.dropLast_append_of_ne_nil filled] at single
  exact fun h => single (List.mem_append_left _ h)

end Text

/-- The tokens of a single line have no line break in front of their end. -/
theorem kind_ne_newline_of_single {text : Text} (single : '\n' ∉ text.dropLast) :
    ∀ t ∈ (tokenize text).dropLast, t.kind ≠ .newline := by
  intro t ht newline
  have separate := Token.separate_tokenize text
  have filled : tokenize text ≠ [] := by
    intro none
    rw [none] at ht
    cases ht
  obtain ⟨front, last, tokens⟩ := (List.eq_nil_or_concat (tokenize text)).resolve_left filled
  have whole : text = Token.textOf front ++ last.text := by
    rw [← textOf_tokenize text, tokens]
    simp [Token.textOf]
  have written : last.text ≠ [] := Token.text_ne_nil_of_mem_tokenize (by rw [tokens]; simp)
  rw [tokens, List.concat_eq_append, List.dropLast_concat] at ht
  rw [whole] at single
  have ends := (separate.isSpelled t (by rw [tokens]; simp [ht])).getLast?_of_newline newline
  exact Text.notMem_of_append single written
    (List.mem_flatMap.2 ⟨t, ht, List.mem_of_getLast? ends⟩)

/-- No line of a text is empty. -/
theorem Line.sizeOf_pos_of_mem_linesOf {text : Text} {l : Line} (h : l ∈ linesOf (tokenize text)) :
    0 < Token.sizeOf l.tokens := by
  have group : l.tokens ∈ splitLines (tokenize text) :=
    map_tokens_linesOf (tokenize text) ▸ List.mem_map_of_mem h
  refine Token.sizeOf_pos (fun t ht => ?_) ((AreLines.splitLines _).ne_nil _ group)
  have whole : t ∈ tokenize text := by
    rw [← flatten_splitLines (tokenize text)]
    exact List.mem_flatten.2 ⟨_, group, ht⟩
  exact Token.text_ne_nil_of_mem_tokenize whole

/-- A line stands in one place. -/
theorem eq_of_start_eq {text : Text} {front front' back back' : List Line} {l l' : Line}
    (h : linesOf (tokenize text) = front ++ l :: back)
    (h' : linesOf (tokenize text) = front' ++ l' :: back') (start : l.start = l'.start) :
    front = front' ∧ l = l' := by
  have sizes :
      Token.sizeOf (front.flatMap Line.tokens) = Token.sizeOf (front'.flatMap Line.tokens) :=
    (start_of_linesOf h).symm.trans (start.trans (start_of_linesOf h'))
  have filled : ∀ k ∈ linesOf (tokenize text), 0 < Token.sizeOf k.tokens := fun _ =>
    Line.sizeOf_pos_of_mem_linesOf
  have longer {front front' between : List Line} {k : Line} (inside : k ∈ linesOf (tokenize text))
      (split : front' = front ++ k :: between) (sizes : Token.sizeOf (front.flatMap Line.tokens) =
        Token.sizeOf (front'.flatMap Line.tokens)) : False := by
    have pos := filled k inside
    rw [split, List.flatMap_append, List.flatMap_cons, Token.sizeOf_append, Token.sizeOf_append]
      at sizes
    omega
  rcases List.append_eq_append_iff.1 (h.symm.trans h') with
    ⟨between, split, rest⟩ | ⟨between, split, rest⟩
  · cases between with
    | nil => exact ⟨by simpa using split.symm, (List.cons.inj rest).1⟩
    | cons k between => exact (longer (by simp [h', split]) split sizes).elim
  · cases between with
    | nil => exact ⟨by simpa using split, (List.cons.inj rest).1.symm⟩
    | cons k between => exact (longer (by simp [h, split]) split sizes.symm).elim

section Neighbours

variable {text : Text} {front back : List Line} {l m : Line}

theorem separate_of_linesOf (h : linesOf (tokenize text) = front ++ l :: back) :
    Token.Separate (front.flatMap Line.tokens) ∧ Token.Separate l.tokens ∧
      Token.Separate (back.flatMap Line.tokens) := by
  have whole : tokenize text =
      front.flatMap Line.tokens ++ (l.tokens ++ back.flatMap Line.tokens) := by
    rw [← flatMap_tokens_linesOf (tokenize text), h, List.flatMap_append, List.flatMap_cons]
  obtain ⟨before, rest⟩ := (whole ▸ Token.separate_tokenize text).of_append
  exact ⟨before, rest.of_append⟩

/-- Another line begins only behind a line feed. -/
theorem getLast?_textOf_of_linesOf (h : linesOf (tokenize text) = front ++ l :: m :: back) :
    (Token.textOf l.tokens).getLast? = some '\n' := by
  have groups : splitLines (tokenize text) =
      front.map Line.tokens ++ l.tokens :: m.tokens :: back.map Line.tokens := by
    rw [← map_tokens_linesOf, h]
    simp
  obtain ⟨t, isLast, newline⟩ := getLast?_of_splitLines groups
  exact Token.getLast?_textOf_of_newline (separate_of_linesOf h).2.1 isLast newline

theorem endsLine_of_linesOf (h : linesOf (tokenize text) = front ++ l :: back) :
    Text.EndsLine (Token.textOf (front.flatMap Line.tokens)) := by
  rcases List.eq_nil_or_concat front with rfl | ⟨init, last, rfl⟩
  · exact .inl rfl
  · obtain ⟨t, isLast, newline⟩ := getLast?_tokens_of_linesOf h (by simp) (by simp)
    exact .inr (Token.getLast?_textOf_of_newline (separate_of_linesOf h).1 isLast newline)

/-- A text that is a line and more lines behind it has a line break in front of its end. -/
theorem eq_nil_of_single {ls : List Line}
    (h : linesOf (tokenize text) = front ++ l :: (ls ++ back))
    (single : '\n' ∉ (Token.textOf (l.tokens ++ ls.flatMap Line.tokens)).dropLast) : ls = [] := by
  cases ls with
  | nil => rfl
  | cons m ls =>
    have ends := getLast?_textOf_of_linesOf h
    have group : m.tokens ∈ splitLines (tokenize text) := by
      rw [← map_tokens_linesOf, h]
      simp
    have filled : m.tokens ≠ [] := (AreLines.splitLines (tokenize text)).ne_nil _ group
    obtain ⟨u, hu⟩ := List.exists_mem_of_ne_nil _ filled
    have inText : u ∈ tokenize text := by
      rw [← flatMap_tokens_linesOf (tokenize text), h]
      simp [hu]
    have written : u.text ≠ [] := Token.text_ne_nil_of_mem_tokenize inText
    have more : Token.textOf ((m :: ls).flatMap Line.tokens) ≠ [] := by
      rw [Token.textOf, Ne, List.flatMap_eq_nil_iff]
      exact fun none => written (none u (by simp [hu]))
    rw [Token.textOf, List.flatMap_append] at single
    exact absurd (List.mem_of_getLast? ends) (Text.notMem_of_append single more)

end Neighbours

/-- Behind the mark of a comment there are no cells. -/
theorem Part.cells_ofTokens_of_opensComment {t : Token} (word : t.isTrivia = false)
    (marked : opensComment t = true) (ts : List Token) :
    (ofTokens (t :: ts)).filterMap cellText? = [] := by
  rw [ofTokens, if_neg (by simp [word]), if_pos marked, List.filterMap_cons, List.filterMap_map]
  exact List.filterMap_eq_nil_iff.2 fun _ _ => rfl

/-- A comment is a line without cells. -/
theorem Line.isBlank_of_marked {blanks : Text} (gaps : ∀ c ∈ blanks, Token.isGap c = true)
    (words : Text) (offset : Nat) :
    (Line.mk offset (Part.ofTokens (tokenize (blanks ++ '#' :: words)))).isBlank = true := by
  have word : Token.scan '#' words =
      (⟨.word, '#' :: words.takeWhile Token.isWordChar⟩, words.dropWhile Token.isWordChar) := rfl
  have comment : (Part.ofTokens (tokenize ('#' :: words))).filterMap Part.cellText? = [] := by
    rw [tokenize, word]
    exact Part.cells_ofTokens_of_opensComment rfl rfl _
  rw [isBlank, cells, List.isEmpty_iff]
  cases blanks with
  | nil => exact comment
  | cons b blanks =>
    obtain ⟨first, others⟩ := List.forall_mem_cons.1 gaps
    have stops : ∀ c ∈ ('#' :: words).head?, Token.isGap c = false := by
      rintro _ ⟨⟩
      rfl
    obtain ⟨run, rest⟩ := Token.span_append others stops
    have gap : (Token.scan b (blanks ++ '#' :: words)).1.isTrivia = true ∧
        (Token.scan b (blanks ++ '#' :: words)).2 = '#' :: words := by
      have noBreak : b ≠ '\n' := by
        rintro rfl
        cases first
      have noReturn : b ≠ '\r' := by
        rintro rfl
        cases first
      simp only [Token.scan, if_neg noBreak, if_neg noReturn, if_pos first, run, rest]
      refine ⟨?_, trivial⟩
      by_cases single : b :: blanks = [' '] <;> simp [single, Token.isTrivia, TokenKind.isTrivia]
    rw [List.cons_append, tokenize, gap.2, Part.ofTokens, if_pos gap.1, List.filterMap_cons]
    exact comment

/-- A comment for a line is one line, with a line feed if another line comes behind it. -/
theorem Text.IsCommentFor.areLines {l : Line} {comment : Text} {back : List (List Token)}
    (isComment : Text.IsCommentFor (Token.textOf l.tokens) comment)
    (newline : back ≠ [] → comment.getLast? = some '\n')
    {front : List (List Token)} (lines : AreLines (front ++ l.tokens :: back)) :
    AreLines (front ++ tokenize comment :: back) := by
  have filled : tokenize comment ≠ [] := by
    intro none
    have written := textOf_tokenize comment
    rw [none] at written
    exact isComment.ne_nil written.symm
  refine lines.replace filled (kind_ne_newline_of_single isComment.single) fun more => ?_
  have isLast := List.getLast?_eq_some_getLast filled
  exact ⟨_, isLast, kind_of_getLast?_tokenize (.inr (newline more)) _ isLast⟩

/-- A line can be turned into a comment: the other lines stay where they are. -/
theorem linesOf_comment {text comment : Text} {front back : List Line} {l : Line}
    (h : linesOf (tokenize text) = front ++ l :: back)
    (isComment : Text.IsCommentFor (Token.textOf l.tokens) comment) :
    ∃ c : Line, c.isBlank = true ∧ c.start = l.start ∧
      Token.sizeOf c.tokens = Token.sizeOf l.tokens ∧
      linesOf (tokenize (Token.textOf (front.flatMap Line.tokens) ++
        (comment ++ Token.textOf (back.flatMap Line.tokens)))) = front ++ c :: back := by
  have lines : AreLines (front.map Line.tokens ++ l.tokens :: back.map Line.tokens) := by
    have all := AreLines.splitLines (tokenize text)
    rwa [← map_tokens_linesOf, h, List.map_append, List.map_cons] at all
  obtain ⟨frontSeparate, -, backSeparate⟩ := separate_of_linesOf h
  have newline (more : back ≠ []) : comment.getLast? = some '\n' := by
    obtain ⟨next, back, rfl⟩ := List.exists_cons_of_ne_nil more
    exact isComment.ending.2 (getLast?_textOf_of_linesOf h)
  have commentTokens : tokenize (comment ++ Token.textOf (back.flatMap Line.tokens)) =
      tokenize comment ++ back.flatMap Line.tokens := by
    by_cases more : back = []
    · simp [more, Token.textOf]
    · rw [tokenize_append (.inr (newline more)), Token.tokenize_textOf backSeparate]
  have size : Token.sizeOf (tokenize comment) = Token.sizeOf l.tokens := by
    rw [Token.sizeOf, textOf_tokenize]
    exact isComment.size
  have replaced := isComment.areLines (fun more => newline (by simpa using more)) lines
  obtain ⟨blanks, words, marked, gaps⟩ := isComment.marked
  refine ⟨⟨l.start, Part.ofTokens (tokenize comment)⟩, ?_, rfl, ?_, ?_⟩
  · rw [marked]
    exact Line.isBlank_of_marked gaps words l.start
  · rw [Line.tokens, Part.flatMap_tokens_ofTokens, size]
  · rw [tokenize_append (endsLine_of_linesOf h), Token.tokenize_textOf frontSeparate,
      commentTokens, linesOf_replace h replaced size]

end RobotAnalysis
