import RobotAnalysis.Proofs.CellPlaces
import RobotAnalysis.Proofs.CheckedText
import RobotAnalysis.Proofs.CommentedLine
import RobotAnalysis.Proofs.Respelling

/-!
# What has been typed in a cell

The text typed before a cursor is found without tokens: it goes back to the last tab or pair of
blanks on the line. In a cell stands neither, and before a cell a separator, a line break or the
start of the text comes first, apart from single blanks. So what is found for a cursor in a cell is
the cell up to the cursor.
-/
namespace RobotAnalysis

namespace Text

variable {before run t u : Text} {n : Nat}

/-! ## Texts without separators -/

/-- Whether a text is written like the beginning of a cell: in one line, with single blanks behind
its words. -/
structure BeginsCell (t : Text) : Prop where
  noFeed : '\n' ∉ t
  noTab : '\t' ∉ t
  single : t.IsChain fun c d => ¬ (c = ' ' ∧ d = ' ')
  first : t.head? ≠ some ' '

theorem BeginsCell.of_isPrefix (h : BeginsCell t) (part : u <+: t) : BeginsCell u where
  noFeed := fun mem => h.noFeed (part.subset mem)
  noTab := fun mem => h.noTab (part.subset mem)
  single := h.single.prefix part
  first := by
    obtain ⟨rest, rfl⟩ := part
    cases u with
    | nil => nofun
    | cons c u => exact h.first

theorem lastLine_append (noFeed : '\n' ∉ t) (before : Text) :
    lastLine (before ++ t) = lastLine before ++ t := by
  have passed : ∀ c ∈ t.reverse, (c != '\n') = true := by
    intro c hc
    rw [bne_iff_ne]
    rintro rfl
    exact noFeed (List.mem_reverse.1 hc)
  rw [lastLine, List.reverse_append, List.takeWhile_append_of_pos passed, List.reverse_append,
    List.reverse_reverse, lastLine]

theorem lastLine_append_feed (before : Text) : lastLine (before ++ ['\n']) = [] := by
  rw [lastLine, List.reverse_append]
  rfl

/-- A cell that is read from its end is passed. -/
theorem untilSeparator_reverse_append (begins : BeginsCell t) (before : Text) :
    untilSeparator (t.reverse ++ before) = t.reverse ++ untilSeparator before := by
  have noTab : '\t' ∉ t.reverse := by simpa using begins.noTab
  have single : t.reverse.IsChain fun c d => ¬ (c = ' ' ∧ d = ' ') := by
    rw [List.isChain_reverse]
    exact begins.single.imp fun c d apart both => apart both.symm
  have last : t.reverse.getLast? ≠ some ' ' := by simpa using begins.first
  generalize t.reverse = run at noTab single last
  induction run with
  | nil => rfl
  | cons c run ih =>
    simp only [List.mem_cons, not_or] at noTab
    obtain ⟨notTab, noTab⟩ := noTab
    have next : ¬ (c = ' ' ∧ (run ++ before).head? = some ' ') := by
      rintro ⟨rfl, blank⟩
      cases run with
      | nil => exact last rfl
      | cons d run => exact (List.isChain_cons_cons.1 single).1 ⟨rfl, Option.some.inj blank⟩
    have inner : run.getLast? ≠ some ' ' := by
      intro blank
      exact last (by rw [List.getLast?_cons, blank]; rfl)
    rw [List.cons_append, untilSeparator, if_neg (Ne.symm notTab), if_neg (by simpa using next),
      ih noTab single.tail inner, List.cons_append]

/-- What is before a separator is not seen. -/
theorem eq_space_of_mem_untilSeparator (separator : Token.IsSeparator run) (before : Text) :
    ∀ c ∈ untilSeparator (run ++ before), c = ' ' := by
  have eq_space {c : Char} (gap : Token.isGap c = true) (other : c ≠ '\t') : c = ' ' := by
    simpa [Token.isGap, other] using gap
  obtain ⟨gaps, wide⟩ := separator
  rcases run with _ | ⟨c, _ | ⟨d, run⟩⟩
  · simp at wide
  · obtain rfl : '\t' = c := by simpa using wide
    simp [untilSeparator]
  · by_cases tab : c = '\t'
    · simp [untilSeparator, tab]
    · obtain rfl := eq_space (gaps c List.mem_cons_self) tab
      by_cases tab : d = '\t'
      · simp [untilSeparator, tab]
      · obtain rfl := eq_space (gaps d (by simp)) tab
        simp [untilSeparator]

end Text

namespace Token

variable {t : Token} {ts : List Token}

/-! ## Tokens of cells -/

/-- In cells stand single blanks and tokens without blanks. -/
theorem IsSpelled.of_not_endsCell (h : t.IsSpelled) (inside : Part.endsCell t = false) :
    t.kind = .space ∧ t.text = [' '] ∨
      t.isTrivia = false ∧ ∀ c ∈ t.text, isGap c = false ∧ c ≠ '\n' := by
  obtain ⟨kind, text⟩ := t
  cases kind with
  | word =>
    refine .inr ⟨rfl, fun c hc => ?_⟩
    have isWord := h.2 c hc
    simp only [isWordChar, Bool.and_eq_true, Bool.not_eq_true', bne_iff_ne, ne_eq] at isWord
    exact isWord.1
  | space => exact .inl ⟨rfl, h⟩
  | stray =>
    refine .inr ⟨rfl, fun c hc => ?_⟩
    obtain rfl : text = ['\r'] := h
    rw [List.mem_singleton.1 hc]
    decide
  | separator | newline => cases inside

theorem isChain_textOf (separate : Separate ts) (inside : ∀ t ∈ ts, Part.endsCell t = false) :
    (textOf ts).IsChain fun c d => ¬ (c = ' ' ∧ d = ' ') := by
  induction ts with
  | nil => exact .nil
  | cons t ts ih =>
    obtain ⟨spelled, ends, rest⟩ := separate
    obtain ⟨first, others⟩ := List.forall_mem_cons.1 inside
    rw [textOf, List.flatMap_cons, ← textOf]
    rcases spelled.of_not_endsCell first with ⟨space, text⟩ | ⟨-, noGap⟩
    · rw [text]
      refine List.isChain_cons.2 ⟨fun d hd both => ?_, ih rest others⟩
      have noGap := ends d hd
      rw [space, both.2] at noGap
      cases noGap
    · refine List.isChain_append.2 ⟨?_, ih rest others, fun c hc d _ both => ?_⟩
      · refine List.isChain_iff_forall_rel_of_append_cons_cons.2 fun c d front back text both => ?_
        have noBlank := (noGap c (by simp [text])).1
        rw [both.1] at noBlank
        cases noBlank
      · have noBlank := (noGap c (List.mem_of_getLast? hc)).1
        rw [both.1] at noBlank
        cases noBlank

/-- Tokens of a cell are written like one. -/
theorem beginsCell_textOf (separate : Separate ts) (inside : ∀ t ∈ ts, Part.endsCell t = false)
    (first : ∀ t ∈ ts.head?, t.isTrivia = false) : (textOf ts).BeginsCell := by
  have chars : ∀ c ∈ textOf ts, c ≠ '\t' ∧ c ≠ '\n' := by
    intro c hc
    obtain ⟨t, ht, hc⟩ := List.mem_flatMap.1 hc
    rcases (separate.isSpelled t ht).of_not_endsCell (inside t ht) with ⟨-, text⟩ | ⟨-, noGap⟩
    · rw [text, List.mem_singleton] at hc
      rw [hc]
      decide
    · refine ⟨?_, (noGap c hc).2⟩
      rintro rfl
      cases (noGap _ hc).1
  refine ⟨fun mem => (chars _ mem).2 rfl, fun mem => (chars _ mem).1 rfl,
    isChain_textOf separate inside, ?_⟩
  cases ts with
  | nil => nofun
  | cons t ts =>
    obtain ⟨spelled, ends, rest⟩ := separate
    rcases spelled.of_not_endsCell (inside t List.mem_cons_self) with ⟨space, -⟩ | ⟨-, noGap⟩
    · have word := first t rfl
      rw [isTrivia, space] at word
      cases word
    · rw [head?_textOf_cons spelled]
      intro blank
      cases (noGap _ (List.mem_of_head? blank)).1

end Token

namespace Part

variable {ts us cs : List Token} {front back : List Part} {t : Token}

/-! ## What stands before a cell -/

/-- Whether a cell may begin behind some tokens: apart from single blanks they end where a cell
does. -/
inductive LeadsToCell : List Token → Prop
  | nil : LeadsToCell []
  | ender (ts : List Token) {t : Token} (h : endsCell t = true) : LeadsToCell (ts ++ [t])
  | space {ts : List Token} {t : Token} (h : t.kind = .space) :
      LeadsToCell ts → LeadsToCell (ts ++ [t])

namespace LeadsToCell

theorem singleton (h : t.isTrivia = true) : LeadsToCell [t] := by
  rw [← List.nil_append [t]]
  obtain ⟨kind, text⟩ := t
  cases kind with
  | space => exact .space rfl .nil
  | separator | newline => exact .ender [] rfl
  | word | stray => cases h

/-- Behind an end of a cell it does not matter what is before. -/
theorem append (h : LeadsToCell us) (joins : LeadsToCell ts ∨ ∃ t ∈ us, endsCell t = true) :
    LeadsToCell (ts ++ us) := by
  induction h with
  | nil => simpa using joins
  | ender us ends =>
    rw [← List.append_assoc]
    exact .ender _ ends
  | @space us t blank _ ih =>
    have inside : endsCell t = false := by simp [endsCell, blank]
    rw [← List.append_assoc]
    exact .space blank (ih (by simpa [inside] using joins))

end LeadsToCell

/-- Before another cell of the line comes the end of the first one. -/
theorem exists_endsCell_of_restOfCell
    (h : ofTokens (restOfCell ts).2 = front ++ .cell cs :: back) :
    ∃ t ∈ front.flatMap tokens, endsCell t = true := by
  have mem : Part.cell cs ∈ ofTokens (restOfCell ts).2 := by simp [h]
  obtain ⟨c, us, word, rfl⟩ := exists_restOfCell mem
  obtain ⟨spaces, behind, split, blank, ends⟩ := exists_spaces_append_of_restOfCell ts
  have noEnd : ∀ rest, behind ≠ c :: rest := by
    rintro rest rfl
    rw [isTrivia_of_endsCell (ends c rfl)] at word
    cases word
  have whole : spaces ++ behind =
      front.flatMap tokens ++ c :: ((restOfCell us).1 ++ back.flatMap tokens) := by
    rw [← split, ← flatMap_tokens_ofTokens (restOfCell ts).2, h, List.flatMap_append,
      List.flatMap_cons]
    rfl
  rcases List.append_eq_append_iff.1 whole with ⟨shared, rest, tail⟩ | ⟨shared, rest, tail⟩
  · cases shared with
    | nil => exact absurd tail (noEnd _)
    | cons e shared =>
      refine ⟨e, ?_, ends e (by rw [tail]; rfl)⟩
      rw [rest]
      exact List.mem_append_right _ List.mem_cons_self
  · cases shared with
    | nil => exact absurd tail.symm (noEnd _)
    | cons e shared =>
      obtain ⟨rfl, -⟩ := List.cons.inj tail
      have space := blank c (by rw [rest]; simp)
      rw [Token.isTrivia, space] at word
      cases word

/-- Before a cell of a line comes a separator, or nothing, apart from single blanks. -/
theorem leadsToCell_of_ofTokens (h : ofTokens ts = front ++ .cell cs :: back) :
    LeadsToCell (front.flatMap tokens) := by
  induction ts using ofTokens.induct generalizing front with
  | case1 => simp [ofTokens] at h
  | case2 t ts trivia ih =>
    rw [ofTokens, if_pos trivia] at h
    cases front with
    | nil => cases h
    | cons p front =>
      obtain ⟨rfl, behind⟩ := List.cons.inj h
      exact (ih behind).append (.inl (.singleton trivia))
  | case3 t ts noTrivia opens =>
    have mem : Part.cell cs ∈ ofTokens (t :: ts) := by simp [h]
    rw [ofTokens, if_neg noTrivia, if_pos opens] at mem
    simp at mem
  | case4 t ts noTrivia noComment rest =>
    rename_i ih
    rw [ofTokens, if_neg noTrivia, if_neg noComment] at h
    cases front with
    | nil => exact .nil
    | cons p front =>
      obtain ⟨rfl, behind⟩ := List.cons.inj h
      exact (ih behind).append (.inr (exists_endsCell_of_restOfCell behind))

/-- Before a cell comes a separator, a line break or nothing, apart from single blanks. -/
theorem leadsToCell_of_lines {groups : List (List Token)}
    (lines : groups.IsChain fun l _ => EndsInNewline l)
    (h : groups.flatMap ofTokens = front ++ .cell cs :: back) :
    LeadsToCell (front.flatMap tokens) := by
  induction groups generalizing front with
  | nil => simp at h
  | cons l ls ih =>
    obtain ⟨ends, rest⟩ := List.isChain_cons.1 lines
    have later {between : List Part} (h : ls.flatMap ofTokens = between ++ .cell cs :: back) :
        LeadsToCell ((ofTokens l ++ between).flatMap tokens) := by
      rw [List.flatMap_append, flatMap_tokens_ofTokens]
      refine (ih rest h).append (.inl ?_)
      cases ls with
      | nil => simp at h
      | cons m ls =>
        obtain ⟨t, last, newline⟩ := ends m rfl
        obtain ⟨init, rfl⟩ := List.getLast?_eq_some_iff.1 last
        exact .ender init (by simp [endsCell, newline])
    rw [List.flatMap_cons] at h
    rcases List.append_eq_append_iff.1 h with ⟨between, rfl, behind⟩ | ⟨between, split, behind⟩
    · exact later behind
    · cases between with
      | nil =>
        rw [List.append_nil] at split
        rw [← split, ← List.append_nil (ofTokens l)]
        exact later behind.symm
      | cons p between =>
        obtain ⟨rfl, -⟩ := List.cons.inj behind
        exact leadsToCell_of_ofTokens split

/-- In the line of a cell nothing but blanks is seen before it. -/
theorem LeadsToCell.eq_space_of_mem_untilSeparator (h : LeadsToCell ts)
    (spelled : ∀ t ∈ ts, t.IsSpelled) :
    ∀ c ∈ Text.untilSeparator (Text.lastLine (Token.textOf ts)).reverse, c = ' ' := by
  have textOf_append (ts : List Token) (t : Token) :
      Token.textOf (ts ++ [t]) = Token.textOf ts ++ t.text := by
    rw [Token.textOf, List.flatMap_append, List.flatMap_singleton, Token.textOf]
  induction h with
  | nil => nofun
  | @ender ts t ends =>
    have written := spelled t (by simp)
    obtain ⟨kind, text⟩ := t
    rw [textOf_append]
    cases kind with
    | separator =>
      have noFeed : '\n' ∉ text := by
        intro mem
        cases Token.IsSeparator.gaps written _ mem
      rw [Text.lastLine_append noFeed, List.reverse_append]
      have reversed : Token.IsSeparator text.reverse := by
        obtain ⟨gaps, wide⟩ : Token.IsSeparator text := written
        exact ⟨by simpa using gaps, by simpa using wide⟩
      exact Text.eq_space_of_mem_untilSeparator reversed _
    | newline =>
      obtain rfl | rfl : text = ['\n'] ∨ text = ['\r', '\n'] := written
      · rw [Text.lastLine_append_feed]
        nofun
      · rw [List.append_cons, Text.lastLine_append_feed]
        nofun
    | word | space | stray => cases ends
  | @space ts t blank _ ih =>
    have written := spelled t (by simp)
    rw [Token.IsSpelled, blank] at written
    have single : t.text = [' '] := written
    rw [textOf_append, single, Text.lastLine_append (by decide), List.reverse_append]
    intro c hc
    simp only [List.reverse_singleton, List.singleton_append, Text.untilSeparator] at hc
    rw [if_neg (by decide)] at hc
    split at hc
    · cases hc
    · rcases List.mem_cons.1 hc with rfl | hc
      · rfl
      · exact ih (fun t ht => spelled t (List.mem_append_left _ ht)) c hc

end Part

namespace Node

variable {text : Text} {n : Node}

/-- The text of a parsed tree around a cell. -/
theorem exists_text_of_cell (h : n ∈ (parse text).value.allNodes) (cell : n.kind.isCell = true) :
    ∃ before behind, text = before ++ (Token.textOf (Tree.leavesOf n.children) ++ behind) ∧
      n.start = before.byteSize ∧ (Token.textOf (Tree.leavesOf n.children)).BeginsCell ∧
        ∀ c ∈ Text.untilSeparator (Text.lastLine before).reverse, c = ' ' := by
  obtain ⟨front, back, parts, tokens, place⟩ := exists_parts_of_cell h cell
  obtain ⟨ts, mem⟩ := exists_line_of_cell h cell
  have separate := Token.separate_tokenize text
  rw [tokens] at separate
  obtain ⟨frontSeparate, rest⟩ := separate.of_append
  rw [partsOf_eq] at parts
  have leads := Part.leadsToCell_of_lines (isChain_splitLines _) parts
  refine ⟨Token.textOf (front.flatMap Part.tokens), Token.textOf (back.flatMap Part.tokens), ?_,
    place, ?_, leads.eq_space_of_mem_untilSeparator frontSeparate.isSpelled⟩
  · rw [← textOf_tokenize text, tokens]
    simp only [Token.textOf, List.flatMap_append]
  · exact Token.beginsCell_textOf rest.of_append.1 (Part.endsCell_of_mem_cell mem)
      (Part.isTrivia_of_mem_head?_cell mem)

end Node

namespace Text

/-- What has been typed in a cell is the cell up to the cursor, without the blanks at its start;
no character is cut for it. -/
theorem typedBefore_of_cell {text : Text} {c : Cell} {offset : Nat}
    (h : c ∈ (parse text).value.allCells) (lower : c.span.start ≤ offset)
    (upper : offset ≤ c.span.stop) :
    text.typedBefore offset = (text.slice (.between c.span.start offset)).trimStart ∧
      Checked.typedBefore text offset = some (text.typedBefore offset) := by
  refine ⟨?_, Checked.typedBefore_eq text offset⟩
  obtain ⟨n, hn, found⟩ := List.mem_filterMap.1 h
  obtain ⟨before, behind, whole, place, begins, unseen⟩ :=
    Node.exists_text_of_cell hn (Node.isCell_of_cell? found)
  rw [Node.span_of_cell? found, Node.span_eq] at lower upper ⊢
  generalize cell : Token.textOf (Tree.leavesOf n.children) = written at whole begins
  obtain ⟨k, rfl⟩ := Nat.exists_eq_add_of_le lower
  have fits : k ≤ byteSize written := by
    rw [← cell]
    exact Nat.le_of_add_le_add_left upper
  have upTo : text.takeBytes (n.start + k) = before ++ takeBytes k written := by
    rw [whole, place, takeBytes_byteSize_add_append, takeBytes_append_of_le fits]
  have covered : text.slice (.between n.start (n.start + k)) = takeBytes k written := by
    rw [slice, Span.between, Nat.add_sub_cancel_left, whole, place, dropBytes_byteSize_append,
      takeBytes_append_of_le fits]
  have typed : (takeBytes k written).BeginsCell :=
    begins.of_isPrefix ⟨_, takeBytes_append_dropBytes k written⟩
  have blank : ∀ c ∈ (untilSeparator (lastLine before).reverse).reverse,
      CharClass.isBlank c = true := by
    intro c hc
    rw [unseen c (List.mem_reverse.1 hc)]
    decide
  calc text.typedBefore (n.start + k)
    _ = trimStart (untilSeparator (lastLine (before ++ takeBytes k written)).reverse).reverse := by
      rw [typedBefore, upTo]
    _ = trimStart ((untilSeparator (lastLine before).reverse).reverse ++ takeBytes k written) := by
      rw [lastLine_append typed.noFeed, List.reverse_append, untilSeparator_reverse_append typed,
        List.reverse_append, List.reverse_reverse]
    _ = trimStart (takeBytes k written) := by
      rw [trimStart, List.dropWhile_append_of_pos blank, trimStart]
    _ = (text.slice (.between n.start (n.start + k))).trimStart := by rw [covered]

/-- In a call that blanks and a tab indent. -/
theorem typedBefore_of_indented_call :
    let text : Text := "*** Keywords ***\nK\n \t Log it\n".toList
    let c : Cell := ⟨.keywordCall, "Log it".toList, ⟨22, 6⟩⟩
    c ∈ (parse text).value.allCells ∧ c.span.start ≤ 27 ∧ 27 ≤ c.span.stop ∧
      text.typedBefore 27 = "Log i".toList := by
  intro text c
  have mem : c ∈ (parse text).value.allCells := by decide +kernel
  have lower : c.span.start ≤ 27 := by decide
  have upper : 27 ≤ c.span.stop := by decide
  obtain ⟨same, -⟩ := typedBefore_of_cell mem lower upper
  exact ⟨mem, lower, upper, same.trans (by decide +kernel)⟩

end Text

end RobotAnalysis
