import RobotAnalysis.Parse
import RobotAnalysis.Proofs.PlacedNodes

/-!
# The kind of a section, read twice

Parsing reads the kind of a section off the cells of its heading, and reading the tree reads it off
the whole line. Blanks around the cells make no difference. A comment does: its mark stays in the
name that is compared, and no section has such a name.
-/
namespace RobotAnalysis

namespace Token

theorem isBlank_of_isGap {c : Char} (h : isGap c = true) : CharClass.isBlank c = true := by
  simp only [isGap, Bool.or_eq_true, beq_iff_eq] at h
  rcases h with rfl | rfl <;> decide

/-- Spaces, separators and line breaks are made of blanks. -/
theorem isBlank_of_isTrivia_scan (c : Char) (t : Text) :
    (scan c t).1.isTrivia = true → ∀ d ∈ (scan c t).1.text, CharClass.isBlank d = true := by
  have newline : CharClass.isBlank '\n' = true := by decide
  have return_ : CharClass.isBlank '\r' = true := by decide
  unfold scan
  split
  · rename_i same
    subst same
    simpa using fun _ => newline
  · split
    · split
      · simpa using fun _ => ⟨return_, newline⟩
      · intro trivia
        cases trivia
    · split
      · rename_i gap
        intro _ d hd
        rcases List.mem_cons.1 hd with rfl | hd
        · exact isBlank_of_isGap gap
        · exact isBlank_of_isGap (List.all_eq_true.1 List.all_takeWhile d hd)
      · intro trivia
        cases trivia

theorem isBlank_of_mem_tokenize {text : Text} {t : Token} (h : t ∈ tokenize text)
    (trivia : t.isTrivia = true) : ∀ c ∈ t.text, CharClass.isBlank c = true := by
  induction text using tokenize.induct with
  | case1 => simp at h
  | case2 c rest scanned ih =>
    rw [tokenize] at h
    rcases List.mem_cons.1 h with rfl | h
    · exact isBlank_of_isTrivia_scan c rest trivia
    · exact ih h

end Token

namespace Part

/-- What stands in the parts of a line: blanks and line breaks in the gaps, and a mark at the start
of every comment. -/
def IsProper (ts : List Token) : Part → Prop
  | .gap t => t ∈ ts ∧ t.isTrivia = true
  | .cell _ => True
  | .comment cs => ∃ t rest, cs = t :: rest ∧ opensComment t = true

theorem IsProper.mono {ts us : List Token} (sub : ∀ t ∈ ts, t ∈ us) {p : Part}
    (h : p.IsProper ts) : p.IsProper us := by
  cases p with
  | gap t => exact ⟨sub t h.1, h.2⟩
  | cell _ => trivial
  | comment _ => exact h

theorem isProper_of_mem_ofTokens {ts : List Token} : ∀ p ∈ ofTokens ts, p.IsProper ts := by
  induction ts using ofTokens.induct with
  | case1 => simp [ofTokens]
  | case2 t ts trivia ih =>
    rw [ofTokens, if_pos trivia]
    refine List.forall_mem_cons.2 ⟨⟨List.mem_cons_self, trivia⟩, ?_⟩
    exact fun p hp => (ih p hp).mono fun u hu => List.mem_cons_of_mem _ hu
  | case3 t ts noTrivia opens =>
    rw [ofTokens, if_neg noTrivia, if_pos opens]
    refine List.forall_mem_cons.2 ⟨⟨t, _, rfl, opens⟩, ?_⟩
    intro p hp
    obtain ⟨u, hu, rfl⟩ := List.mem_map.1 hp
    exact ⟨List.mem_cons_of_mem _ (List.mem_of_mem_drop hu), Sequence.of_mem_drop_dropTrailing hu⟩
  | case4 t ts noTrivia noComment rest ih =>
    rw [ofTokens, if_neg noTrivia, if_neg noComment]
    refine List.forall_mem_cons.2 ⟨trivial, ?_⟩
    exact fun p hp => (ih p hp).mono fun u hu =>
      List.mem_cons_of_mem _ (List.mem_of_mem_drop hu)

end Part

namespace Line

def HasComment (l : Line) : Prop := ∃ ts, Part.comment ts ∈ l.parts

/-- What holds of the parts of every line of a document. -/
structure IsProper (l : Line) : Prop where
  gaps : ∀ t, .gap t ∈ l.parts → ∀ c ∈ t.text, CharClass.isBlank c = true
  comments : ∀ ts, .comment ts ∈ l.parts → ∃ t rest, ts = t :: rest ∧ Part.opensComment t = true

theorem exists_of_mem_locate {offset : Nat} {groups : List (List Token)} {l : Line}
    (h : l ∈ linesOf.locate offset groups) : ∃ ts ∈ groups, l.parts = Part.ofTokens ts := by
  induction groups generalizing offset with
  | nil => cases h
  | cons ts groups ih =>
    rcases List.mem_cons.1 h with rfl | h
    · exact ⟨ts, List.mem_cons_self, rfl⟩
    · obtain ⟨us, hus, parts⟩ := ih h
      exact ⟨us, List.mem_cons_of_mem _ hus, parts⟩

theorem isProper_of_mem_linesOf {text : Text} {l : Line} (h : l ∈ linesOf (tokenize text)) :
    l.IsProper := by
  obtain ⟨ts, hts, parts⟩ := exists_of_mem_locate h
  have inside : ∀ t ∈ ts, t ∈ tokenize text := by
    intro t ht
    rw [← flatten_splitLines (tokenize text)]
    exact List.mem_flatten.2 ⟨ts, hts, ht⟩
  constructor
  · intro t ht
    have proper := Part.isProper_of_mem_ofTokens _ (parts ▸ ht)
    exact Token.isBlank_of_mem_tokenize (inside t proper.1) proper.2
  · intro cs hcs
    exact Part.isProper_of_mem_ofTokens _ (parts ▸ hcs)

/-- Without comments there are only blanks outside the cells. -/
theorem IsProper.isBlank_of_parts {l : Line} (h : l.IsProper) (noComment : ¬ l.HasComment)
    {ps : List Part} (sub : ∀ p ∈ ps, p ∈ l.parts ∧ p.isCell = false) :
    ∀ c ∈ Token.textOf (ps.flatMap Part.tokens), CharClass.isBlank c = true := by
  intro c hc
  obtain ⟨t, ht, hc⟩ := List.mem_flatMap.1 hc
  obtain ⟨p, hp, ht⟩ := List.mem_flatMap.1 ht
  obtain ⟨mem, outside⟩ := sub p hp
  cases p with
  | gap u =>
    cases List.mem_singleton.1 ht
    exact h.gaps _ mem c hc
  | cell ts => cases outside
  | comment ts => exact absurd ⟨ts, mem⟩ noComment

/-- The text of a line without comments is that of its cells, up to blanks around it. -/
theorem IsProper.trim_textOf {l : Line} (h : l.IsProper) (noComment : ¬ l.HasComment) :
    (Token.textOf l.tokens).trim = l.cellsText.trim := by
  let outside : Part → Bool := fun p => !p.isCell
  obtain ⟨after, rest, allAfter⟩ :=
    Sequence.exists_dropTrailing_append outside (l.parts.dropWhile outside)
  have whole : l.parts.takeWhile outside ++ l.parts.dropWhile outside = l.parts :=
    List.takeWhile_append_dropWhile
  have blankBefore : ∀ c ∈ Token.textOf ((l.parts.takeWhile outside).flatMap Part.tokens),
      CharClass.isBlank c = true := by
    refine h.isBlank_of_parts noComment fun p hp => ⟨List.takeWhile_subset _ hp, ?_⟩
    simpa [outside] using List.all_eq_true.1 List.all_takeWhile p hp
  have blankAfter : ∀ c ∈ Token.textOf (after.flatMap Part.tokens), CharClass.isBlank c = true := by
    refine h.isBlank_of_parts noComment fun p hp => ⟨List.dropWhile_subset outside ?_, ?_⟩
    · rw [rest]
      exact List.mem_append_right _ hp
    · simpa [outside] using allAfter p hp
  have text : Token.textOf l.tokens =
      Token.textOf ((l.parts.takeWhile outside).flatMap Part.tokens) ++
        (l.cellsText ++ Token.textOf (after.flatMap Part.tokens)) := by
    conv => lhs; rw [tokens, ← whole, rest]
    simp only [cellsText, Token.textOf, List.flatMap_append, outside]
  rw [text, Text.trim_blank_append blankBefore, Text.trim_append_of_blank _ blankAfter]

theorem IsProper.mem_textOf {l : Line} (h : l.IsProper) (comment : l.HasComment) :
    '#' ∈ Token.textOf l.tokens := by
  obtain ⟨ts, mem⟩ := comment
  obtain ⟨t, rest, rfl, opens⟩ := h.comments ts mem
  have mark : '#' ∈ t.text := List.mem_of_mem_head? (by simpa [Part.opensComment] using opens)
  refine List.mem_flatMap.2 ⟨t, ?_, mark⟩
  exact List.mem_flatMap.2 ⟨_, mem, List.mem_cons_self⟩

end Line

namespace HeadingKind

theorem ofText_congr {s t : Text} (h : s.trim = t.trim) : ofText s = ofText t := by
  rw [ofText, ofText, h]

/-- The mark of a comment is kept by the form in which names are compared. -/
theorem isOneOf_eq_false {words : List String} {name : Text} (h : '#' ∈ name)
    (plain : ∀ w ∈ words, '#' ∉ w.toList) : Reserved.isOneOf words name = false := by
  have kept : '#' ∈ Reserved.normalize name := by
    refine List.mem_flatMap.2 ⟨'#', List.mem_filter.2 ⟨h, by decide⟩, ?_⟩
    have same : CaseMap.lower '#' = ['#'] := by decide
    rw [same]
    exact List.mem_singleton_self _
  rw [Reserved.isOneOf, List.any_eq_false]
  intro w hw same
  exact plain w hw (beq_iff_eq.1 same ▸ kept)

/-- No section is named with the mark of a comment. -/
theorem ofText_eq_unknown {t : Text} (h : '#' ∈ t) : ofText t = .unknown := by
  have inside : '#' ∈ t.trim.trimBy (· == '*') :=
    Sequence.mem_dropTrailing (Sequence.mem_dropWhile (Text.mem_trim h (by decide)) (by decide))
      (by decide)
  simp only [ofText]
  rw [isOneOf_eq_false inside (by decide), isOneOf_eq_false inside (by decide),
    isOneOf_eq_false inside (by decide), isOneOf_eq_false inside (by decide),
    isOneOf_eq_false inside (by decide), isOneOf_eq_false inside (by decide)]
  rfl

end HeadingKind

namespace SectionLines

/-- Without a comment the whole line of a heading names the kind that its cells name. -/
theorem ofText_heading_of_noComment {s : SectionLines} (proper : s.heading.IsProper)
    (h : ¬ s.heading.HasComment) :
    HeadingKind.ofText (Token.textOf s.heading.tokens).trimEnd = s.kind := by
  refine HeadingKind.ofText_congr ?_
  rw [Text.trim_trimEnd, proper.trim_textOf h]

/-- With a comment the whole line of a heading names no kind. -/
theorem ofText_heading_of_comment {s : SectionLines} (proper : s.heading.IsProper)
    (h : s.heading.HasComment) :
    HeadingKind.ofText (Token.textOf s.heading.tokens).trimEnd = .unknown :=
  HeadingKind.ofText_eq_unknown (Sequence.mem_dropTrailing (proper.mem_textOf h) (by decide))

end SectionLines

end RobotAnalysis
