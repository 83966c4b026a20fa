import RobotAnalysis.LineTable

/-!
# The cells of a line by the numbers of their tokens

Dividing a line into parts and scanning its tokens by their numbers find the same cells and the same
comment. A part begins where the parts before it end, so the ranges follow from the lengths of the
parts; what has to be shown is that the scan closes a cell after its last word.
-/
namespace RobotAnalysis

variable {tokens : List Token}

theorem Token.slice_of_drop {i : Nat} {us more : List Token} (h : tokens.drop i = us ++ more) :
    slice tokens i (i + us.length) = us := by
  rw [slice, List.drop_take, h, Nat.add_sub_cancel_left, List.take_left']
  rfl

/-- Behind the tokens that come next. -/
theorem Token.drop_add_of_drop {i : Nat} {us more : List Token}
    (h : tokens.drop i = us ++ more) : tokens.drop (i + us.length) = more := by
  rw [← List.drop_drop, h, List.drop_left]

namespace Part

/-- The cells among some parts, the first part beginning with the token `index`. -/
def cellRanges (index : Nat) : List Part → List CellRange
  | [] => []
  | .cell ts :: ps =>
    ⟨index, index + ts.length, Token.textOf ts⟩ :: cellRanges (index + ts.length) ps
  | .gap _ :: ps => cellRanges (index + 1) ps
  | .comment ts :: ps => cellRanges (index + ts.length) ps

/-- The first comment among some parts, the first part beginning with the token `index`. -/
def commentRange? (index : Nat) : List Part → Option (Nat × Nat)
  | [] => none
  | .comment ts :: _ => some (index, index + ts.length)
  | .gap _ :: ps => commentRange? (index + 1) ps
  | .cell ts :: ps => commentRange? (index + ts.length) ps

theorem cellRanges_map_gap (index : Nat) (ts : List Token) :
    cellRanges index (ts.map .gap) = [] := by
  induction ts generalizing index with
  | nil => rfl
  | cons t ts ih => exact ih _

theorem map_text_cellRanges (index : Nat) (ps : List Part) :
    (cellRanges index ps).map CellRange.text = ps.filterMap cellText? := by
  induction ps generalizing index with
  | nil => rfl
  | cons p ps ih =>
    cases p with
    | gap t => exact ih _
    | cell ts => exact congrArg _ (ih _)
    | comment ts => exact ih _

theorem restOfCell_isPrefix (ts : List Token) :
    (restOfCell ts).1 <+: ts.takeWhile fun t => !endsCell t :=
  Sequence.dropTrailing_isPrefix _ _

/-- No token is lost at the end of a cell. -/
theorem append_restOfCell (ts : List Token) : (restOfCell ts).1 ++ (restOfCell ts).2 = ts :=
  List.prefix_iff_eq_append.1 ((restOfCell_isPrefix ts).trans (List.takeWhile_prefix _))

/-- No token is lost at the end of a comment. -/
theorem append_restOfComment (ts : List Token) :
    (restOfComment ts).1 ++ (restOfComment ts).2 = ts :=
  List.prefix_iff_eq_append.1 (Sequence.dropTrailing_isPrefix _ _)

end Part

namespace LineScan

theorem run_append (s : LineScan) (index : Nat) (us vs : List Token) :
    run tokens s index (us ++ vs) =
      run tokens (run tokens s index us) (index + us.length) vs := by
  induction us generalizing s index with
  | nil => rfl
  | cons u us ih =>
    rw [List.cons_append, run, run, ih, List.length_cons]
    congr 1
    omega

theorem kind_eq_space {t : Token} (trivia : t.isTrivia = true) (h : Part.endsCell t = false) :
    t.kind = .space := by
  cases kind : t.kind with
  | space => rfl
  | word | stray => simp [Token.isTrivia, kind, TokenKind.isTrivia] at trivia
  | separator | newline => simp [Part.endsCell, kind] at h

theorem close_of_closed {s : LineScan} (h : s.open? = none) : s.close tokens = s := by
  rw [close, h]

theorem open?_close (s : LineScan) : (s.close tokens).open? = none := by
  rw [close]
  cases h : s.open? with
  | none => exact h
  | some range => rfl

/-- While no cell is open, blanks and line breaks change nothing. -/
theorem next_of_isTrivia {s : LineScan} (closed : s.open? = none) (index : Nat) {t : Token}
    (trivia : t.isTrivia = true) : s.next tokens index t = s := by
  have still : s.close tokens = s := close_of_closed closed
  rw [next]
  cases kind : t.kind with
  | space => rfl
  | separator => exact still
  | newline => exact still
  | word | stray => simp [Token.isTrivia, kind, TokenKind.isTrivia] at trivia

theorem next_of_word {t : Token} (s : LineScan) (index : Nat) (h : t.isTrivia = false) :
    s.next tokens index t = s.word index t := by
  rw [next]
  cases kind : t.kind with
  | word | stray => rfl
  | space | separator | newline => simp [Token.isTrivia, kind, TokenKind.isTrivia] at h

/-- The end of a range that reaches up to `stop` and is extended by the words among tokens. -/
def wordsEnd (stop index : Nat) (ts : List Token) : Nat :=
  if Sequence.dropTrailing Token.isTrivia ts = [] then stop
  else index + (Sequence.dropTrailing Token.isTrivia ts).length

theorem wordsEnd_cons (stop index : Nat) (t : Token) (ts : List Token) :
    wordsEnd stop index (t :: ts) =
      wordsEnd (if t.isTrivia then stop else index + 1) (index + 1) ts := by
  by_cases none : Sequence.dropTrailing Token.isTrivia ts = []
  · cases h : t.isTrivia <;> simp [wordsEnd, Sequence.dropTrailing_cons, none, h]
  · simp only [wordsEnd, Sequence.dropTrailing_cons, none, false_and, if_false, List.cons_ne_nil,
      List.length_cons]
    omega

theorem wordsEnd_self (index : Nat) (ts : List Token) :
    wordsEnd index index ts = index + (Sequence.dropTrailing Token.isTrivia ts).length := by
  rw [wordsEnd]
  split
  · rename_i none
    rw [none]
    rfl
  · rfl

/-- A comment extends to the last word of its line. -/
theorem run_comment (cells : List CellRange) (start stop index : Nat) (ts : List Token) :
    run tokens ⟨cells, none, some (start, stop)⟩ index ts =
      ⟨cells, none, some (start, wordsEnd stop index ts)⟩ := by
  induction ts generalizing stop index with
  | nil => rfl
  | cons t ts ih =>
    rw [run]
    cases trivia : t.isTrivia with
    | true => rw [next_of_isTrivia rfl index trivia, ih, wordsEnd_cons, if_pos trivia]
    | false =>
      rw [next_of_word _ index trivia, wordsEnd_cons, if_neg (by simp [trivia])]
      exact ih (index + 1) (index + 1)

/-- An open cell extends to the last word before its end. -/
theorem run_open (cells : List CellRange) (start stop index : Nat) {ts : List Token}
    (inside : ∀ t ∈ ts, Part.endsCell t = false) :
    run tokens ⟨cells, some (start, stop), none⟩ index ts =
      ⟨cells, some (start, wordsEnd stop index ts), none⟩ := by
  induction ts generalizing stop index with
  | nil => rfl
  | cons t ts ih =>
    obtain ⟨first, rest⟩ := List.forall_mem_cons.1 inside
    rw [run]
    cases trivia : t.isTrivia with
    | true =>
      rw [next, kind_eq_space trivia first, ih _ _ rest, wordsEnd_cons, if_pos trivia]
    | false =>
      rw [next_of_word _ index trivia, wordsEnd_cons, if_neg (by simp [trivia])]
      exact ih (index + 1) (index + 1) rest

/-- A cell that no word extends before its end may as well be closed at once. -/
theorem close_run_close {s : LineScan} {index : Nat} {ts : List Token}
    (spaces : ∀ t ∈ ts.takeWhile (fun t => !Part.endsCell t), t.kind = .space) :
    ((s.close tokens).run tokens index ts).close tokens = (s.run tokens index ts).close tokens := by
  have closed : (s.close tokens).close tokens = s.close tokens := close_of_closed s.open?_close
  induction ts generalizing index with
  | nil => exact closed
  | cons t ts ih =>
    rw [run, run]
    cases ends : Part.endsCell t with
    | true =>
      have step (r : LineScan) : r.next tokens index t = r.close tokens := by
        rw [Part.endsCell, Bool.or_eq_true, beq_iff_eq, beq_iff_eq] at ends
        rcases ends with kind | kind <;> rw [next, kind]
      rw [step, step, closed]
    | false =>
      rw [List.takeWhile_cons_of_pos (by simp [ends])] at spaces
      have here := List.forall_mem_cons.1 spaces
      have step (r : LineScan) : r.next tokens index t = r := by rw [next, here.1]
      rw [step, step]
      exact ih here.2

/-- A cell is divided from what follows it by spaces before the next separator or line break. -/
theorem spaces_after_cell (ts : List Token) :
    ∀ t ∈ (Part.restOfCell ts).2.takeWhile (fun t => !Part.endsCell t), t.kind = .space := by
  intro t ht
  have inside := List.all_eq_true.1 List.all_takeWhile t ht
  rw [Part.restOfCell, Sequence.takeWhile_drop (Sequence.length_dropTrailing_le _ _)] at ht
  exact kind_eq_space (Sequence.of_mem_drop_dropTrailing ht) (by simpa using inside)

/-- Scanning the tokens of a line finds the cells and the comment among its parts. -/
theorem run_ofTokens (cells : List CellRange) {index : Nat} {ts more : List Token}
    (h : tokens.drop index = ts ++ more) :
    (run tokens ⟨cells, none, none⟩ index ts).close tokens =
      ⟨cells ++ Part.cellRanges index (Part.ofTokens ts), none,
        Part.commentRange? index (Part.ofTokens ts)⟩ := by
  induction ts using Part.ofTokens.induct generalizing cells index with
  | case1 => simp [run, Part.ofTokens, Part.cellRanges, Part.commentRange?, close_of_closed]
  | case2 t ts trivia ih =>
    have here : tokens.drop index = [t] ++ (ts ++ more) := h
    have behind : tokens.drop (index + 1) = ts ++ more := Token.drop_add_of_drop here
    rw [run, next_of_isTrivia rfl index trivia, ih cells behind, Part.ofTokens, if_pos trivia]
    rfl
  | case3 t ts noTrivia opens =>
    have isWord : t.isTrivia = false := by simpa using noTrivia
    have begun : (LineScan.mk cells none none).word index t =
        ⟨cells, none, some (index, index + 1)⟩ := if_pos opens
    rw [run, next_of_word _ index isWord, begun, run_comment, wordsEnd_self,
      close_of_closed rfl, Part.ofTokens, if_neg noTrivia, if_pos opens]
    simp only [Part.cellRanges, Part.commentRange?, Part.cellRanges_map_gap, List.append_nil,
      Part.restOfComment, List.length_cons]
    congr 3
    omega
  | case4 t ts noTrivia noComment rest ih =>
    have isWord : t.isTrivia = false := by simpa using noTrivia
    have begun : (LineScan.mk cells none none).word index t =
        ⟨cells, some (index, index + 1), none⟩ := if_neg noComment
    have whole : rest.1 ++ rest.2 = ts := Part.append_restOfCell ts
    have inside : ∀ u ∈ rest.1, Part.endsCell u = false := by
      intro u hu
      simpa using List.all_eq_true.1 List.all_takeWhile u ((Part.restOfCell_isPrefix ts).subset hu)
    have same : Sequence.dropTrailing Token.isTrivia rest.1 = rest.1 :=
      Sequence.dropTrailing_dropTrailing _ _
    -- The cell ends before the spaces in front of the next separator. The scan still has it open
    -- there, which makes no difference.
    have scanned : run tokens ⟨cells, none, none⟩ index (t :: ts) =
        run tokens ⟨cells, some (index, index + (t :: rest.1).length), none⟩
          (index + (t :: rest.1).length) rest.2 := by
      rw [run, next_of_word _ index isWord, begun]
      conv => lhs; rw [← whole, run_append, run_open _ _ _ _ inside, wordsEnd_self, same]
      rw [List.length_cons, Nat.add_assoc, Nat.add_comm 1]
    have here : tokens.drop index = (t :: rest.1) ++ (rest.2 ++ more) := by
      rw [h, ← whole, ← List.cons_append, List.append_assoc]
    have behind := Token.drop_add_of_drop here
    have text := Token.slice_of_drop here
    have closed :
        (LineScan.mk cells (some (index, index + (t :: rest.1).length)) none).close tokens =
          ⟨cells ++ [⟨index, index + (t :: rest.1).length, Token.textOf (t :: rest.1)⟩],
            none, none⟩ := by
      rw [close]
      simp only [text]
    rw [scanned, ← close_run_close (spaces_after_cell ts), closed, ih _ behind,
      List.append_assoc, Part.ofTokens, if_neg noTrivia, if_neg noComment]
    rfl

end LineScan

namespace Part

/-- Dividing a line into parts loses no token. -/
theorem flatMap_tokens_ofTokens (ts : List Token) : (ofTokens ts).flatMap Part.tokens = ts := by
  induction ts using ofTokens.induct with
  | case1 => rw [ofTokens]; rfl
  | case2 t ts trivia ih =>
    rw [ofTokens, if_pos trivia, List.flatMap_cons, ih]
    rfl
  | case3 t ts noTrivia opens =>
    have gaps (us : List Token) : (us.map Part.gap).flatMap Part.tokens = us := by
      rw [List.flatMap_map]
      exact List.flatMap_singleton' us
    rw [ofTokens, if_neg noTrivia, if_pos opens, List.flatMap_cons, gaps]
    exact congrArg _ (append_restOfComment ts)
  | case4 t ts noTrivia noComment rest ih =>
    rw [ofTokens, if_neg noTrivia, if_neg noComment, List.flatMap_cons, ih]
    exact congrArg _ (append_restOfCell ts)

/-- Nothing but gaps stands after a comment. -/
def InOrder : List Part → Prop
  | [] => True
  | .comment _ :: ps => ∀ p ∈ ps, ∃ t, p = .gap t
  | .gap _ :: ps | .cell _ :: ps => InOrder ps

theorem inOrder_ofTokens (ts : List Token) : InOrder (ofTokens ts) := by
  induction ts using ofTokens.induct with
  | case1 => rw [ofTokens]; trivial
  | case2 t ts trivia ih =>
    rw [ofTokens, if_pos trivia]
    exact ih
  | case3 t ts noTrivia opens =>
    rw [ofTokens, if_neg noTrivia, if_pos opens]
    intro p hp
    obtain ⟨u, -, rfl⟩ := List.mem_map.1 hp
    exact ⟨u, rfl⟩
  | case4 t ts noTrivia noComment rest ih =>
    rw [ofTokens, if_neg noTrivia, if_neg noComment]
    exact ih

end Part

/-- A line that begins with a line break ends with it. -/
theorem eq_nil_of_newline {ts rest : List Token} {t : Token} (h : t :: rest ∈ splitLines ts)
    (newline : t.kind = .newline) : rest = [] := by
  induction ts with
  | nil => cases h
  | cons u ts ih =>
    rw [splitLines] at h
    split at h
    · rcases List.mem_cons.1 h with h | h
      · exact (List.cons.inj h).2
      · exact ih h
    · rename_i word
      split at h
      · exact (List.cons.inj (List.mem_singleton.1 h)).2
      · rename_i l ls found
        rcases List.mem_cons.1 h with h | h
        · exact absurd ((List.cons.inj h).1 ▸ newline) word
        · exact ih (found ▸ List.mem_cons_of_mem _ h)

namespace Line

/-- A continuation line has its mark. -/
theorem isBlank_of_isContinuation {l : Line} (h : l.isContinuation = true) : l.isBlank = false := by
  rw [isContinuation, beq_iff_eq] at h
  obtain ⟨rest, cells⟩ := List.head?_eq_some_iff.1 h
  rw [isBlank, cells]
  rfl

/-- How the parts of a line follow each other. -/
structure IsOrdered (l : Line) : Prop where
  inOrder : Part.InOrder l.parts
  /-- A line that is not indented begins with its first cell. -/
  begins : l.isBlank = false → l.isIndented = false → ∃ ts rest, l.parts = .cell ts :: rest

theorem isOrdered_ofTokens {tokens ts : List Token} (offset : Nat) (h : ts ∈ splitLines tokens) :
    (Line.mk offset (Part.ofTokens ts)).IsOrdered := by
  refine ⟨Part.inOrder_ofTokens ts, fun filled outside => ?_⟩
  cases ts with
  | nil => simp [isBlank, cells, Part.ofTokens] at filled
  | cons t ts =>
    rw [Part.ofTokens] at filled outside ⊢
    by_cases trivia : t.isTrivia = true
    · -- A line that begins with a line break has nothing else, so it is blank.
      rw [if_pos trivia] at filled outside
      have newline : t.kind = .newline := by
        have other : (t.kind == .separator || t.kind == .space) = false := outside
        rw [Token.isTrivia] at trivia
        cases kind : t.kind with
        | newline => rfl
        | separator | space => simp [kind] at other
        | word | stray => simp [kind, TokenKind.isTrivia] at trivia
      rw [eq_nil_of_newline h newline, Part.ofTokens] at filled
      cases filled
    · by_cases opens : Part.opensComment t = true
      · rw [if_neg trivia, if_pos opens] at filled
        have noCell : (Line.mk offset
            (.comment (t :: (Part.restOfComment ts).1) ::
              (Part.restOfComment ts).2.map .gap)).cells = [] := by
          rw [cells, ← Part.map_text_cellRanges 0, Part.cellRanges, Part.cellRanges_map_gap]
          rfl
        rw [isBlank, noCell] at filled
        cases filled
      · rw [if_neg trivia, if_neg opens]
        exact ⟨_, _, rfl⟩

end Line

/-- The lines of a document hold its tokens. -/
theorem flatMap_tokens_linesOf (tokens : List Token) :
    (linesOf tokens).flatMap Line.tokens = tokens := by
  have located (offset : Nat) (groups : List (List Token)) :
      (linesOf.locate offset groups).flatMap Line.tokens = groups.flatten := by
    induction groups generalizing offset with
    | nil => rfl
    | cons ts groups ih =>
      rw [linesOf.locate, List.flatMap_cons, ih, Line.tokens, Part.flatMap_tokens_ofTokens,
        List.flatten_cons]
  rw [linesOf, located, flatten_splitLines]

theorem isOrdered_of_mem_linesOf {tokens : List Token} {l : Line} (h : l ∈ linesOf tokens) :
    l.IsOrdered := by
  have located {offset : Nat} {groups : List (List Token)}
      (inside : ∀ ts ∈ groups, ts ∈ splitLines tokens) (h : l ∈ linesOf.locate offset groups) : l.IsOrdered := by
    induction groups generalizing offset with
    | nil => cases h
    | cons ts groups ih =>
      obtain ⟨first, rest⟩ := List.forall_mem_cons.1 inside
      rcases List.mem_cons.1 h with rfl | h
      · exact Line.isOrdered_ofTokens offset first
      · exact ih rest h
  exact located (fun _ h => h) h

namespace LineEntry

/-- The entry of a line that begins with the token `index`. -/
def ofLine (index : Nat) (l : Line) : LineEntry :=
  { stop := index + l.tokens.length, cells := Part.cellRanges index l.parts,
    comment? := Part.commentRange? index l.parts, indented := l.isIndented, span := l.span }

/-- The entries of consecutive lines, the first one beginning with the token `index`. -/
def ofLines (index : Nat) : List Line → List LineEntry
  | [] => []
  | l :: ls => ofLine index l :: ofLines (index + l.tokens.length) ls

theorem ofTokens_eq {tokens ts more : List Token} {index : Nat} (offset : Nat)
    (h : tokens.drop index = ts ++ more) :
    ofTokens tokens index offset ts = ofLine index ⟨offset, Part.ofTokens ts⟩ := by
  have indented : (ts.head?.any fun t => t.kind == .separator || t.kind == .space) =
      (Line.mk offset (Part.ofTokens ts)).isIndented := by
    cases ts with
    | nil => rw [Part.ofTokens]; rfl
    | cons t ts =>
      rw [Part.ofTokens]
      by_cases trivia : t.isTrivia = true
      · rw [if_pos trivia]
        rfl
      · have word : (t.kind == .separator || t.kind == .space) = false := by
          rw [Token.isTrivia] at trivia
          cases kind : t.kind <;> first | rfl | simp [kind, TokenKind.isTrivia] at trivia
        rw [if_neg trivia, List.head?_cons, Option.any_some, word]
        split <;> rfl
  have scanned := LineScan.run_ofTokens [] h
  rw [ofTokens, ofLine, LineScan.ofTokens, scanned, indented, Line.tokens, Line.span, Line.tokens,
    Part.flatMap_tokens_ofTokens]
  rfl

theorem locate_eq {tokens : List Token} {lines : List (List Token)} {index offset : Nat}
    (h : tokens.drop index = lines.flatten) :
    table.locate tokens index offset lines = ofLines index (linesOf.locate offset lines) := by
  induction lines generalizing index offset with
  | nil => rfl
  | cons ts lines ih =>
    have behind := Token.drop_add_of_drop h
    rw [table.locate, linesOf.locate, ofLines, ofTokens_eq offset h, ih behind, Line.tokens,
      Part.flatMap_tokens_ofTokens]

/-- The table of a document has an entry for each of its lines. -/
theorem table_eq (tokens : List Token) : table tokens = ofLines 0 (linesOf tokens) :=
  locate_eq (flatten_splitLines tokens).symm

variable {i : Nat} {l : Line}

theorem map_text_cells : (ofLine i l).cells.map CellRange.text = l.cells :=
  Part.map_text_cellRanges i l.parts

theorem length_ofLines (i : Nat) (ls : List Line) : (ofLines i ls).length = ls.length := by
  induction ls generalizing i with
  | nil => rfl
  | cons l ls ih => exact congrArg (· + 1) (ih _)

/-- A line that is not blank has a first cell. -/
theorem exists_head?_cells (h : l.isBlank = false) :
    ∃ c, (ofLine i l).cells.head? = some c ∧ c.text = l.cells.headD [] := by
  have texts := map_text_cells (i := i) (l := l)
  rw [Line.isBlank, ← texts] at h
  cases cells : (ofLine i l).cells with
  | nil => simp [cells] at h
  | cons c cs =>
    refine ⟨c, rfl, ?_⟩
    rw [← texts, cells]
    rfl

theorem isBlank_ofLine : (ofLine i l).isBlank = l.isBlank := by
  rw [isBlank, Line.isBlank, ← map_text_cells (i := i), List.isEmpty_map]

theorem isContinuation_ofLine : (ofLine i l).isContinuation = l.isContinuation := by
  rw [isContinuation, Line.isContinuation, ← map_text_cells (i := i), List.head?_map]
  cases (ofLine i l).cells.head? <;> rfl

theorem isHeading_ofLine : (ofLine i l).isHeading = l.isHeading := by
  rw [isHeading, Line.isHeading, ← map_text_cells (i := i), List.head?_map]
  cases (ofLine i l).cells.head? <;> rfl

end LineEntry

namespace Part

theorem commentRange?_append (i : Nat) {ps : List Part} (qs : List Part)
    (h : ∀ p ∈ ps, ∀ ts, p ≠ .comment ts) :
    commentRange? i (ps ++ qs) = commentRange? (i + (ps.flatMap Part.tokens).length) qs := by
  induction ps generalizing i with
  | nil => rfl
  | cons p ps ih =>
    obtain ⟨first, rest⟩ := List.forall_mem_cons.1 h
    rw [List.cons_append, List.flatMap_cons, List.length_append, ← Nat.add_assoc]
    cases p with
    | gap t => exact ih _ rest
    | cell ts => exact ih _ rest
    | comment ts => exact absurd rfl (first ts)

/-- No comment stands before a cell. -/
theorem InOrder.noComment {ps qs : List Part} {ts : List Token}
    (h : InOrder (ps ++ .cell ts :: qs)) : ∀ p ∈ ps, ∀ us, p ≠ .comment us := by
  induction ps with
  | nil => simp
  | cons p ps ih =>
    cases p with
    | gap t => exact List.forall_mem_cons.2 ⟨nofun, ih h⟩
    | cell us => exact List.forall_mem_cons.2 ⟨nofun, ih h⟩
    | comment us =>
      obtain ⟨t, same⟩ := h (.cell ts) (List.mem_append_right _ List.mem_cons_self)
      cases same

theorem InOrder.of_append {ps qs : List Part} (h : InOrder (ps ++ qs))
    (noComment : ∀ p ∈ ps, ∀ ts, p ≠ .comment ts) : InOrder qs := by
  induction ps with
  | nil => exact h
  | cons p ps ih =>
    obtain ⟨first, rest⟩ := List.forall_mem_cons.1 noComment
    cases p with
    | gap t => exact ih h rest
    | cell ts => exact ih h rest
    | comment ts => exact absurd rfl (first ts)

/-- The parts before the first cell, and the parts from it on. -/
theorem exists_first_cell {ps : List Part} (h : (ps.filterMap cellText?).isEmpty = false) :
    ∃ gaps ts rest, ps.takeWhile (fun p => !p.isCell) = gaps ∧ ps = gaps ++ .cell ts :: rest ∧
      ∀ p ∈ gaps, p.isCell = false := by
  induction ps with
  | nil => cases h
  | cons p ps ih =>
    cases p with
    | cell ts => exact ⟨[], ts, ps, rfl, rfl, by simp⟩
    | gap t =>
      obtain ⟨gaps, ts, rest, before, split, noCell⟩ := ih h
      exact ⟨.gap t :: gaps, ts, rest, congrArg _ before, congrArg _ split,
        List.forall_mem_cons.2 ⟨rfl, noCell⟩⟩
    | comment us =>
      obtain ⟨gaps, ts, rest, before, split, noCell⟩ := ih h
      exact ⟨.comment us :: gaps, ts, rest, congrArg _ before, congrArg _ split,
        List.forall_mem_cons.2 ⟨rfl, noCell⟩⟩

theorem exists_of_isCell {p : Part} (h : p.isCell = true) : ∃ ts, p = .cell ts := by
  cases p with
  | cell ts => exact ⟨ts, rfl⟩
  | gap t => cases h
  | comment ts => cases h

theorem cellRanges_append (i : Nat) (ps qs : List Part) :
    cellRanges i (ps ++ qs) =
      cellRanges i ps ++ cellRanges (i + (ps.flatMap Part.tokens).length) qs := by
  induction ps generalizing i with
  | nil => rfl
  | cons p ps ih =>
    rw [List.cons_append, List.flatMap_cons, List.length_append, ← Nat.add_assoc]
    cases p with
    | gap t => exact ih _
    | cell ts => exact congrArg _ (ih _)
    | comment ts => exact ih _

theorem cellRanges_eq_nil (i : Nat) {ps : List Part} (h : ∀ p ∈ ps, p.isCell = false) :
    cellRanges i ps = [] := by
  induction ps generalizing i with
  | nil => rfl
  | cons p ps ih =>
    obtain ⟨first, rest⟩ := List.forall_mem_cons.1 h
    cases p with
    | gap t => exact ih _ rest
    | cell ts => cases first
    | comment ts => exact ih _ rest

end Part

/-- The parts of a line up to its first cell and the parts after it. -/
theorem Line.IsOrdered.exists_split {l : Line} (h : l.IsOrdered) (filled : l.isBlank = false) :
    ∃ mark rest, l.splitAfterFirstCell = (mark, rest) ∧ l.parts = mark ++ rest ∧
      (∀ p ∈ mark, ∀ ts, p ≠ .comment ts) ∧ ∀ i, ∃ c, Part.cellRanges i mark = [c] := by
  obtain ⟨gaps, ts, rest, before, parts, noCell⟩ := Part.exists_first_cell filled
  have whole : l.parts = (gaps ++ [Part.cell ts]) ++ rest := by
    rw [parts, List.append_assoc]
    rfl
  have split : l.splitAfterFirstCell = (gaps ++ [Part.cell ts], rest) := by
    have length : gaps.length + 1 = (gaps ++ [Part.cell ts]).length := by simp
    rw [splitAfterFirstCell]
    simp only [before]
    rw [length, whole, List.take_left, List.drop_left]
  have order := h.inOrder
  rw [parts] at order
  refine ⟨gaps ++ [.cell ts], rest, split, whole, ?_, fun i => ?_⟩
  · exact List.forall_mem_append.2 ⟨order.noComment, List.forall_mem_singleton.2 nofun⟩
  · rw [Part.cellRanges_append, Part.cellRanges_eq_nil i noCell]
    exact ⟨_, rfl⟩

namespace LineEntry

/-- Parts that begin and end with a cell are spelled by the tokens from the first cell to the last
one. -/
theorem cellsText_of_cells {tokens more : List Token} {start : Nat} {ps : List Part} {e : LineEntry}
    (cells : e.cells = Part.cellRanges start ps)
    (first : ∀ p, ps.head? = some p → p.isCell = true)
    (last : ∀ p, ps.getLast? = some p → p.isCell = true)
    (h : tokens.drop start = ps.flatMap Part.tokens ++ more) :
    e.cellsText tokens = Token.textOf (ps.flatMap Part.tokens) := by
  rw [cellsText, cells]
  rcases List.eq_nil_or_concat ps with none | ⟨front, q, split⟩
  · rw [none]
    rfl
  · rw [List.concat_eq_append] at split
    obtain ⟨us, rfl⟩ := Part.exists_of_isCell (last q (by rw [split, List.getLast?_concat]))
    have stop : (Part.cellRanges start ps).getLast? =
        some ⟨start + (front.flatMap Part.tokens).length,
          start + (ps.flatMap Part.tokens).length, Token.textOf us⟩ := by
      rw [split, Part.cellRanges_append, Part.cellRanges, Part.cellRanges, List.getLast?_concat,
        List.flatMap_append, List.length_append, ← Nat.add_assoc]
      simp [Part.tokens]
    obtain ⟨p, rest, cons⟩ := List.exists_cons_of_ne_nil (l := ps) (by simp [split])
    obtain ⟨ts, rfl⟩ := Part.exists_of_isCell (first p (by rw [cons]; rfl))
    have begin : (Part.cellRanges start ps).head? =
        some ⟨start, start + ts.length, Token.textOf ts⟩ := by
      rw [cons]
      rfl
    rw [begin, stop]
    exact congrArg Token.textOf (Token.slice_of_drop h)

/-- The text from the first cell to the last one is found by the numbers of their tokens. -/
theorem cellsText_ofLine {tokens more : List Token} {i : Nat} {l : Line}
    (h : tokens.drop i = l.tokens ++ more) : (ofLine i l).cellsText tokens = l.cellsText := by
  let outside : Part → Bool := fun p => !p.isCell
  let before := l.parts.takeWhile outside
  let inner := Sequence.dropTrailing outside (l.parts.dropWhile outside)
  obtain ⟨after, rest, allAfter⟩ :=
    Sequence.exists_dropTrailing_append outside (l.parts.dropWhile outside)
  have whole : l.parts = before ++ (inner ++ after) := by
    rw [← rest]
    exact List.takeWhile_append_dropWhile.symm
  have noneBefore : ∀ p ∈ before, p.isCell = false := by
    intro p hp
    simpa [outside] using List.all_eq_true.1 List.all_takeWhile p hp
  have noneAfter : ∀ p ∈ after, p.isCell = false := by
    intro p hp
    simpa [outside] using allAfter p hp
  have cells : (ofLine i l).cells =
      Part.cellRanges (i + (before.flatMap Part.tokens).length) inner := by
    rw [ofLine, whole, Part.cellRanges_append, Part.cellRanges_append,
      Part.cellRanges_eq_nil _ noneBefore, Part.cellRanges_eq_nil _ noneAfter, List.append_nil,
      List.nil_append]
  rw [Line.tokens, whole, List.flatMap_append, List.flatMap_append, List.append_assoc,
    List.append_assoc] at h
  refine cellsText_of_cells cells (fun p hp => ?_) (fun p hp => ?_) (Token.drop_add_of_drop h)
  · have first := List.head?_dropWhile_not outside l.parts
    rw [rest, List.head?_append, hp] at first
    simpa [outside] using first
  · simpa [outside] using Sequence.getLast?_dropTrailing hp

end LineEntry

end RobotAnalysis
