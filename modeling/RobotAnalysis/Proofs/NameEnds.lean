import RobotAnalysis.Proofs.AlignedNames

/-!
# The ends of names

Blanks at the ends of a name are no part of a variable. A text that fits the name begins and ends
with a blank as the name does, except that anything may stand in the place of a variable there; and
next to a variable the name may do without its blanks.
-/
namespace RobotAnalysis

open CharClass (isNameBlank)

open Text (even)

namespace Text

/-- Whether a text begins with a blank. -/
def startsBlank (t : Text) : Bool := t.head?.any isNameBlank

/-- Whether a text ends with a blank. -/
def endsBlank (t : Text) : Bool := t.getLast?.any isNameBlank

variable {c d : Char} {s t : Text}

section Ends

theorem endsBlank_cons (c : Char) (t : Text) :
    endsBlank (c :: t) = if t = [] then isNameBlank c else endsBlank t := by
  cases t with
  | nil => rfl
  | cons d t => rw [if_neg (List.cons_ne_nil _ _), endsBlank, List.getLast?_cons_cons, endsBlank]

theorem startsBlank_append (filled : s ≠ []) : startsBlank (s ++ t) = startsBlank s := by
  rw [startsBlank, startsBlank, List.head?_append_of_ne_nil _ filled]

theorem endsBlank_append (filled : t ≠ []) : endsBlank (s ++ t) = endsBlank t := by
  rw [endsBlank, endsBlank, List.getLast?_append_of_ne_nil _ filled]

theorem collapseBlanks_false_eq (t : Text) : collapseBlanks false t =
    if startsBlank t then ' ' :: collapseBlanks true t else collapseBlanks true t := by
  cases t with
  | nil => rfl
  | cons c t =>
    have first : startsBlank (c :: t) = isNameBlank c := rfl
    rw [first, collapseBlanks, collapseBlanks]
    cases isNameBlank c <;> rfl

theorem even_false_eq (t : Text) :
    even false t = if startsBlank t then ' ' :: even true t else even true t := by
  have first : startsBlank (t.map CaseMap.fold) = startsBlank t := by
    cases t with
    | nil => rfl
    | cons c t => exact CharClass.isNameBlank_fold c
  rw [even, even, collapseBlanks_false_eq, first]

theorem startsBlank_even (t : Text) : startsBlank (even false t) = startsBlank t := by
  cases t with
  | nil => rfl
  | cons c t =>
    cases blank : isNameBlank c with
    | true =>
      rw [even_cons_of_blank blank, startsBlank, startsBlank, List.head?_cons, Option.any_some,
        blank]
      rfl
    | false =>
      rw [even_cons_of_not_blank blank]
      exact CharClass.isNameBlank_fold c

theorem endsBlank_even (t : Text) : endsBlank (even false t) = endsBlank t := by
  have both : endsBlank (even false t) = endsBlank t ∧
      endsBlank (' ' :: even true t) = endsBlank (' ' :: t) := by
    induction t with
    | nil => exact ⟨rfl, rfl⟩
    | cons c t ih =>
      cases blank : isNameBlank c with
      | true =>
        have space : isNameBlank ' ' = true := by decide
        have same : endsBlank (' ' :: t) = endsBlank (c :: t) := by
          rw [endsBlank_cons, endsBlank_cons, blank, space]
        rw [even_cons_of_blank blank, if_neg Bool.false_ne_true, even_cons_of_blank blank,
          if_pos rfl, ih.2, same, endsBlank_cons ' ', if_neg (List.cons_ne_nil _ _)]
        exact ⟨rfl, rfl⟩
      | false =>
        have same : endsBlank (CaseMap.fold c :: even false t) = endsBlank (c :: t) := by
          simp only [endsBlank_cons, CharClass.isNameBlank_fold, even_eq_nil_iff, ih.1]
        rw [even_cons_of_not_blank blank, even_cons_of_not_blank blank, same, endsBlank_cons ' ',
          endsBlank_cons ' ', if_neg (List.cons_ne_nil _ _), if_neg (List.cons_ne_nil _ _), same]
        exact ⟨rfl, rfl⟩
  exact both.1

theorem Alike.startsBlank_eq (h : s.Alike t) : startsBlank s = startsBlank t := by
  have same : even false s = even false t := h
  rw [← startsBlank_even s, same, startsBlank_even]

theorem Alike.endsBlank_eq (h : s.Alike t) : endsBlank s = endsBlank t := by
  have same : even false s = even false t := h
  rw [← endsBlank_even s, same, endsBlank_even]

theorem Alike.eq_nil_iff (h : s.Alike t) : s = [] ↔ t = [] := by
  have same : even false s = even false t := h
  rw [← even_eq_nil_iff, same, even_eq_nil_iff]

end Ends

/-- Texts that are alike stay so behind characters that are equal up to case. -/
theorem Alike.cons (like : s.Alike t) (same : CaseMap.fold c = CaseMap.fold d) :
    Alike (c :: s) (d :: t) := by
  have whole : even false s = even false t := like
  have blanks : isNameBlank c = isNameBlank d := by
    rw [← CharClass.isNameBlank_fold, same, CharClass.isNameBlank_fold]
  have rest : even true s = even true t := by
    rw [even_false_eq, even_false_eq, like.startsBlank_eq] at whole
    split at whole
    · exact (List.cons.inj whole).2
    · exact whole
  change even false (c :: s) = even false (d :: t)
  cases blank : isNameBlank d with
  | true => rw [even_cons_of_blank (blanks.trans blank), even_cons_of_blank blank, rest]
  | false =>
    rw [even_cons_of_not_blank (blanks.trans blank), even_cons_of_not_blank blank, whole, same]

end Text

open Text (startsBlank endsBlank)

namespace VariableToken

variable {s t : Text} {c : Char}

section BlankEnds

variable {run : Text}

theorem piecesAfter_of_blank (blank : ∀ c ∈ run, isNameBlank c = true) (escaped : Bool) :
    piecesAfter escaped run = run.map .char := by
  induction run generalizing escaped with
  | nil => rw [piecesAfter, List.map_nil]
  | cons c run ih =>
    obtain ⟨first, others⟩ := List.forall_mem_cons.1 blank
    rw [piecesAfter_cons_of_unescaped?
      (unescaped?_eq_none_of_isSigil (isSigil_eq_false_of_blank first) _ _), ih others,
      List.map_cons]

/-- Blanks in front of a text are pieces of their own. -/
theorem pieces_blank_append (blank : ∀ c ∈ run, isNameBlank c = true) (t : Text) :
    pieces (run ++ t) = run.map .char ++ pieces t := by
  have alone (escaped : Bool) (h : run = [] → escaped = false) :
      piecesAfter escaped (run ++ t) = run.map .char ++ pieces t := by
    induction run generalizing escaped with
    | nil =>
      rw [h rfl]
      rfl
    | cons c run ih =>
      obtain ⟨first, others⟩ := List.forall_mem_cons.1 blank
      have noMark : (c == '\\') = false := by
        rw [beq_eq_false_iff_ne]
        rintro rfl
        exact absurd first (by decide)
      rw [List.cons_append, piecesAfter_cons_of_unescaped?
        (unescaped?_eq_none_of_isSigil (isSigil_eq_false_of_blank first) _ _),
        ih others _ fun _ => noMark, List.map_cons, List.cons_append]
  exact alone false fun _ => rfl

theorem closing?_append_blank (blank : ∀ c ∈ run, isNameBlank c = true) (depth : Nat) (t : Text) :
    closing? depth (t ++ run) =
      (closing? depth t).map fun (body, rest) => (body, rest ++ run) := by
  induction t generalizing depth with
  | nil =>
    have never : ∀ depth, closing? depth run = none := by
      induction run with
      | nil => exact fun _ => rfl
      | cons c run ih =>
        obtain ⟨first, others⟩ := List.forall_mem_cons.1 blank
        intro depth
        rw [closing?_of_ne (by rintro rfl; exact absurd first (by decide))
          (by rintro rfl; exact absurd first (by decide)), ih others]
        rfl
    exact never depth
  | cons c t ih =>
    by_cases opening : c = '{'
    · subst opening
      simp [closing?_brace, ih, Option.map_map, Function.comp_def]
    by_cases closing : c = '}'
    · subst closing
      cases depth with
      | zero => simp [closing?_zero]
      | succ depth => simp [closing?_succ, ih, Option.map_map, Function.comp_def]
    simp [closing?_of_ne opening closing, ih, Option.map_map, Function.comp_def]

theorem atStart?_append_blank (blank : ∀ c ∈ run, isNameBlank c = true) (t : Text) :
    atStart? (c :: t ++ run) =
      (atStart? (c :: t)).map fun (token, rest) => (token, rest ++ run) := by
  cases sigil : isSigil c with
  | false =>
    rw [List.cons_append, atStart?_of_not_isSigil sigil, atStart?_of_not_isSigil sigil]
    rfl
  | true =>
    by_cases opening : t.head? = some '{'
    · obtain ⟨t, rfl⟩ := List.head?_eq_some_iff.1 opening
      simp [atStart?_brace sigil, closing?_append_blank blank, Option.map_map, Function.comp_def]
    · have noBrace : (t ++ run).head? ≠ some '{' := by
        cases t with
        | cons d t => exact opening
        | nil =>
          intro first
          exact absurd (blank _ (List.mem_of_head? first)) (by decide)
      rw [List.cons_append, atStart?_of_head? opening, atStart?_of_head? noBrace]
      rfl

theorem unescaped?_append_blank (blank : ∀ c ∈ run, isNameBlank c = true) (escaped : Bool)
    (t : Text) : unescaped? escaped (c :: t ++ run) =
      (unescaped? escaped (c :: t)).map fun (token, rest) => (token, rest ++ run) := by
  rw [unescaped?, unescaped?, atStart?_append_blank blank]
  split <;> rfl

/-- Blanks behind a text are pieces of their own. -/
theorem pieces_append_blank (blank : ∀ c ∈ run, isNameBlank c = true) (t : Text) :
    pieces (t ++ run) = pieces t ++ run.map .char := by
  have alone (escaped : Bool) :
      piecesAfter escaped (t ++ run) = piecesAfter escaped t ++ run.map .char := by
    fun_induction piecesAfter escaped t with
    | case1 => exact piecesAfter_of_blank blank _
    | case2 escaped c t token rest found ih =>
      have longer : unescaped? escaped (c :: t ++ run) = some (token, rest ++ run) := by
        rw [unescaped?_append_blank blank, found]
        rfl
      rw [piecesAfter_of_unescaped? longer, ih, List.cons_append]
    | case3 escaped c t found ih =>
      have longer : unescaped? escaped (c :: (t ++ run)) = none := by
        rw [← List.cons_append, unescaped?_append_blank blank, found]
        rfl
      rw [List.cons_append, piecesAfter_cons_of_unescaped? longer, ih, List.cons_append]
  exact alone false

theorem literals_map_char_append (run : Text) (ps : List Piece) :
    literals (run.map .char ++ ps) = (literals ps).modifyHead (run ++ ·) := by
  induction run with
  | nil => exact (KeywordPattern.modifyHead_nil_append _).symm
  | cons c run ih =>
    rw [List.map_cons, List.cons_append, literals, ih, List.modifyHead_modifyHead]
    rfl

theorem literals_append_token (ps qs : List Piece) (v : Text) :
    literals (ps ++ .token v :: qs) = literals ps ++ literals qs := by
  induction ps with
  | nil => rfl
  | cons p ps ih =>
    cases p with
    | char c =>
      obtain ⟨l, ls, split⟩ := List.exists_cons_of_ne_nil (KeywordPattern.literals_ne_nil ps)
      rw [List.cons_append, literals, literals, ih, split]
      rfl
    | token w => rw [List.cons_append, literals, literals, ih, List.cons_append]

end BlankEnds

/-- Whether a name begins with a variable. -/
def Opens (name : Text) : Prop := ∃ v ps, pieces name = .token v :: ps

/-- Whether a name ends with a variable. -/
def Closes (name : Text) : Prop := ∃ v ps, pieces name = ps ++ [.token v]

/-- Pieces are characters up to the first variable. -/
theorem eq_map_char_or_token_append (ps : List Piece) :
    (∃ l : Text, ps = l.map .char) ∨ ∃ (l v : Text) (qs : List Piece),
      ps = l.map .char ++ .token v :: qs := by
  induction ps with
  | nil => exact .inl ⟨[], rfl⟩
  | cons p ps ih =>
    cases p with
    | token v => exact .inr ⟨[], v, ps, rfl⟩
    | char c =>
      rcases ih with ⟨l, rfl⟩ | ⟨l, v, qs, rfl⟩
      · exact .inl ⟨c :: l, rfl⟩
      · exact .inr ⟨c :: l, v, qs, rfl⟩

/-- Pieces are characters from the last variable on. -/
theorem eq_map_char_or_append_token (ps : List Piece) :
    (∃ l : Text, ps = l.map .char) ∨ ∃ (qs : List Piece) (v l : Text),
      ps = qs ++ .token v :: l.map .char := by
  induction ps with
  | nil => exact .inl ⟨[], rfl⟩
  | cons p ps ih =>
    rcases ih with ⟨l, rfl⟩ | ⟨qs, v, l, rfl⟩
    · cases p with
      | token v => exact .inr ⟨[], v, l, rfl⟩
      | char c => exact .inl ⟨c :: l, rfl⟩
    · exact .inr ⟨p :: qs, v, l, rfl⟩

theorem literals_map_char_token (l : Text) (v : Text) (qs : List Piece) :
    literals (l.map .char ++ .token v :: qs) = l :: literals qs := by
  rw [literals_append_token, literals_map_char, List.singleton_append]

section Ends

/-- A name that begins with a variable begins with no blank. -/
theorem Opens.exists_head? (h : Opens t) : ∃ c, t.head? = some c ∧ isNameBlank c = false := by
  obtain ⟨v, ps, split⟩ := h
  have token : .token v ∈ pieces t := split ▸ List.mem_cons_self
  obtain ⟨c, name, sigil, rfl⟩ := isToken_of_mem_piecesAfter token
  refine ⟨c, ?_, (mark_of_isSigil sigil).2⟩
  rw [← flatMap_text_pieces t, split]
  rfl

theorem Closes.exists_getLast? (h : Closes t) :
    ∃ c, t.getLast? = some c ∧ isNameBlank c = false := by
  obtain ⟨v, ps, split⟩ := h
  have token : .token v ∈ pieces t := split ▸ List.mem_append_right _ (List.mem_singleton_self _)
  obtain ⟨c, name, -, rfl⟩ := isToken_of_mem_piecesAfter token
  refine ⟨'}', ?_, by decide⟩
  rw [← flatMap_text_pieces t, split, List.flatMap_append, List.flatMap_singleton, Piece.text,
    ← List.cons_append, ← List.cons_append, ← List.append_assoc, List.getLast?_concat]

theorem Opens.of_alike (like : s.Alike t) (h : Opens t) : Opens s := by
  obtain ⟨v, ps, split⟩ := h
  have same := map_even_literals like
  rw [split, literals] at same
  rcases eq_map_char_or_token_append (pieces s) with ⟨l, plain⟩ | ⟨l, w, qs, first⟩
  · rw [plain, literals_map_char] at same
    exact absurd (List.map_eq_nil_iff.1 (List.cons.inj same).2.symm)
      (KeywordPattern.literals_ne_nil ps)
  · rw [first, literals_map_char_token] at same
    have none : l = [] := Text.even_eq_nil_iff.1 (List.cons.inj same).1
    exact ⟨w, qs, by rw [first, none]; rfl⟩

theorem Closes.of_alike (like : s.Alike t) (h : Closes t) : Closes s := by
  obtain ⟨v, ps, split⟩ := h
  have same := map_even_literals like
  rw [split, literals_append_token, List.map_append] at same
  rcases eq_map_char_or_append_token (pieces s) with ⟨l, plain⟩ | ⟨qs, w, l, last⟩
  · rw [plain, literals_map_char] at same
    have none : literals ps = [] := by simpa [literals] using congrArg List.length same
    exact absurd none (KeywordPattern.literals_ne_nil ps)
  · rw [last, literals_append_token, literals_map_char, List.map_append] at same
    have none : l = [] := by
      have ends := (List.append_inj_right' same rfl)
      exact Text.even_eq_nil_iff.1 (List.cons.inj ends).1
    exact ⟨w, qs, by rw [last, none]; rfl⟩

end Ends

/-- The variables among the pieces of a text are those that are found in it. -/
theorem exists_mem_all {v : Text} (h : .token v ∈ pieces t) : ∃ x ∈ all t, x.text = v := by
  have located (offset : Nat) {ps : List Piece} (h : .token v ∈ ps) :
      ∃ x ∈ locate offset ps, x.text = v := by
    induction ps generalizing offset with
    | nil => cases h
    | cons p ps ih =>
      cases p with
      | char c => exact ih _ ((List.mem_cons.1 h).resolve_left nofun)
      | token w =>
        rcases List.mem_cons.1 h with same | h
        · cases same
          exact ⟨_, List.mem_cons_self, rfl⟩
        · obtain ⟨x, hx, same⟩ := ih _ h
          exact ⟨x, List.mem_cons_of_mem _ hx, same⟩
  exact located 0 h

theorem pieces_eq_map_char_of_all (h : all t = []) : pieces t = t.map .char := by
  have whole := flatMap_text_pieces t
  rcases eq_map_char_or_token_append (pieces t) with ⟨l, plain⟩ | ⟨l, v, qs, first⟩
  · rw [plain, flatMap_text_map_char] at whole
    rw [plain, whole]
  · obtain ⟨x, hx, -⟩ := exists_mem_all (first ▸ List.mem_append_right _ List.mem_cons_self)
    rw [h] at hx
    cases hx

end VariableToken

open VariableToken (literals pieces Opens Closes)

/-- A text that fits stays fit with characters in front that are equal up to case. -/
theorem FitsLiterals.cons {ls : List Text} {t : Text} {c d : Char} (h : FitsLiterals ls t)
    (same : CaseMap.fold c = CaseMap.fold d) : FitsLiterals (ls.modifyHead (c :: ·)) (d :: t) := by
  cases h with
  | last like => exact .last (like.cons same)
  | gap like oneLine behind =>
    have longer := FitsLiterals.gap (like.cons same) oneLine behind
    exact longer

/-- The texts of some pieces fit these if those of the variables are in one line each. -/
theorem VariableToken.fits_flatMap_text {ps : List Piece}
    (oneLine : ∀ v, .token v ∈ ps → '\n' ∉ v) :
    FitsLiterals (literals ps) (ps.flatMap Piece.text) := by
  induction ps with
  | nil => exact .last rfl
  | cons p ps ih =>
    have behind := ih fun v hv => oneLine v (List.mem_cons_of_mem _ hv)
    cases p with
    | char c => exact behind.cons rfl
    | token v => exact .gap (rfl : Text.Alike [] []) (oneLine v List.mem_cons_self) behind

/-- A name fits itself. -/
theorem VariableToken.fits_pieces {t : Text} (oneLine : ∀ v, .token v ∈ pieces t → '\n' ∉ v) :
    FitsLiterals (literals (pieces t)) t := by
  have whole := fits_flatMap_text oneLine
  rwa [flatMap_text_pieces] at whole

namespace FitsLiterals

variable {name l t : Text} {ls : List Text}

/-- What stands before the first variable goes into its place. -/
theorem without_first (oneLine : '\n' ∉ t) (more : ls ≠ []) (h : FitsLiterals (l :: ls) t) :
    FitsLiterals ([] :: ls) t := by
  obtain ⟨piece, between, rest, rfl, -, -, behind⟩ := (cons_iff more).1 h
  have whole := gap (rfl : Text.Alike [] []) (mt (List.mem_append_left rest) oneLine) behind
  rwa [List.nil_append] at whole

/-- What stands behind the last variable goes into its place. -/
theorem without_last (oneLine : '\n' ∉ t) (more : ls ≠ []) (h : FitsLiterals (ls ++ [l]) t) :
    FitsLiterals (ls ++ [[]]) t := by
  induction ls generalizing t with
  | nil => exact absurd rfl more
  | cons m ls ih =>
    obtain ⟨piece, between, rest, rfl, like, clear, behind⟩ := (cons_iff (by simp)).1 h
    by_cases single : ls = []
    · rw [List.append_assoc] at oneLine ⊢
      have whole := gap like (mt (List.mem_append_right piece) oneLine)
        (last (rfl : Text.Alike [] []))
      rw [single]
      rwa [List.append_nil] at whole
    · exact gap like clear (ih (mt (List.mem_append_right _) oneLine) single behind)

/-- Next to a variable a name may do without the blanks at its end. -/
theorem without_edges {front name back : Text} (blank : ∀ c ∈ front ++ back, isNameBlank c = true)
    (opens : front ≠ [] → VariableToken.Opens name) (closes : back ≠ [] → VariableToken.Closes name)
    (oneLine : '\n' ∉ t) (h : FitsLiterals (literals (pieces (front ++ name ++ back))) t) :
    FitsLiterals (literals (pieces name)) t := by
  obtain ⟨before, behind⟩ := List.forall_mem_append.1 blank
  rw [VariableToken.pieces_append_blank behind, VariableToken.pieces_blank_append before,
    List.append_assoc, VariableToken.literals_map_char_append] at h
  have started : FitsLiterals (literals (pieces name ++ back.map .char)) t := by
    by_cases none : front = []
    · rwa [none, KeywordPattern.modifyHead_nil_append] at h
    · obtain ⟨v, ps, opening⟩ := opens none
      rw [opening, List.cons_append] at h ⊢
      exact without_first oneLine (KeywordPattern.literals_ne_nil _) h
  by_cases none : back = []
  · rwa [none, List.map_nil, List.append_nil] at started
  · obtain ⟨v, ps, closing⟩ := closes none
    rw [closing, List.append_assoc, List.singleton_append, VariableToken.literals_append_token,
      VariableToken.literals_map_char] at started
    rw [closing, VariableToken.literals_append_token]
    exact without_last oneLine (KeywordPattern.literals_ne_nil _) started

theorem exists_last (h : FitsLiterals (ls ++ [l]) t) : ∃ front piece, t = front ++ piece ∧
    l.Alike piece := by
  induction ls generalizing t with
  | nil => exact ⟨[], t, rfl, singleton_iff.1 h⟩
  | cons m ls ih =>
    obtain ⟨piece, between, rest, rfl, -, -, behind⟩ := (cons_iff (by simp)).1 h
    obtain ⟨front, last, rfl, like⟩ := ih behind
    exact ⟨piece ++ between ++ front, last, by simp, like⟩

/-- A text that fits a name begins with a blank as the name does, or in place of a variable. -/
theorem startsBlank_eq (h : FitsLiterals (literals (pieces name)) t) :
    Opens name ∨ startsBlank t = startsBlank name := by
  have whole := VariableToken.flatMap_text_pieces name
  rcases VariableToken.eq_map_char_or_token_append (pieces name) with ⟨l, plain⟩ | ⟨l, v, qs, first⟩
  · rw [plain, VariableToken.flatMap_text_map_char] at whole
    rw [plain, VariableToken.literals_map_char, whole, singleton_iff] at h
    exact .inr h.startsBlank_eq.symm
  · by_cases none : l = []
    · exact .inl ⟨v, qs, by rw [first, none]; rfl⟩
    · rw [first, List.flatMap_append, VariableToken.flatMap_text_map_char] at whole
      rw [first, VariableToken.literals_map_char_token,
        cons_iff (KeywordPattern.literals_ne_nil qs)] at h
      obtain ⟨piece, between, rest, rfl, like, -, -⟩ := h
      have filled : piece ≠ [] := mt like.eq_nil_iff.2 none
      rw [List.append_assoc, Text.startsBlank_append filled, ← like.startsBlank_eq, ← whole,
        Text.startsBlank_append none]
      exact .inr rfl

/-- A text that fits a name ends with a blank as the name does, or in place of a variable. -/
theorem endsBlank_eq (h : FitsLiterals (literals (pieces name)) t) :
    Closes name ∨ endsBlank t = endsBlank name := by
  have whole := VariableToken.flatMap_text_pieces name
  rcases VariableToken.eq_map_char_or_append_token (pieces name) with ⟨l, plain⟩ | ⟨qs, v, l, last⟩
  · rw [plain, VariableToken.flatMap_text_map_char] at whole
    rw [plain, VariableToken.literals_map_char, whole, singleton_iff] at h
    exact .inr h.endsBlank_eq.symm
  · by_cases none : l = []
    · exact .inl ⟨v, qs, by rw [last, none]; rfl⟩
    · rw [last, List.flatMap_append, List.flatMap_cons, VariableToken.flatMap_text_map_char,
        ← List.append_assoc] at whole
      rw [last, VariableToken.literals_append_token, VariableToken.literals_map_char] at h
      obtain ⟨front, piece, rfl, like⟩ := h.exists_last
      have filled : piece ≠ [] := mt like.eq_nil_iff.2 none
      rw [Text.endsBlank_append filled, ← like.endsBlank_eq, ← whole, Text.endsBlank_append none]
      exact .inr rfl

end FitsLiterals

end RobotAnalysis
