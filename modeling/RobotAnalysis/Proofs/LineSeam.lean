import Mathlib.Data.List.TakeWhile
import RobotAnalysis.Line

/-!
# The seam between two texts

No token and no line reaches over a line break. So where a text ends with one, or is empty, the
tokens and the lines of what is written behind it are those that it has alone; only the offsets of
its lines move.
-/
namespace RobotAnalysis

/-- The same line in a document with `n` more bytes in front. -/
def Line.shift (n : Nat) (l : Line) : Line := { l with start := n + l.start }

/-- Whether a text has no line that more text could be added to. -/
def Text.EndsLine (t : Text) : Prop := t = [] ∨ t.getLast? = some '\n'

namespace Text

variable {s t : Text} {c : Char}

/-- The end of a text is the end of everything that the text ends with. -/
theorem EndsLine.of_append (h : EndsLine (s ++ t)) : EndsLine t := by
  rcases List.eq_nil_or_concat t with rfl | ⟨init, last, rfl⟩
  · exact .inl rfl
  · refine h.imp (fun nil => ?_) fun last => ?_
    · exact (List.append_eq_nil_iff.1 nil).2
    · simpa using last

theorem EndsLine.newline_mem (h : EndsLine (c :: t)) : '\n' ∈ c :: t :=
  List.mem_of_getLast? (h.resolve_left (by simp))

end Text

namespace Token

variable {c : Char} {t u : Text}

/-- A token ends before the end of its line, or with it. -/
theorem scan_append (h : Text.EndsLine (c :: t)) :
    scan c (t ++ u) = ((scan c t).1, (scan c t).2 ++ u) := by
  have breakBehind (other : c ≠ '\n') : '\n' ∈ t :=
    (List.mem_cons.1 h.newline_mem).resolve_left other.symm
  by_cases isBreak : c = '\n'
  · simp [scan, isBreak]
  by_cases isReturn : c = '\r'
  · cases t with
    | nil => simpa using breakBehind isBreak
    | cons d t =>
      by_cases paired : d = '\n'
      · simp [scan, isReturn, paired]
      · simp [scan, isReturn, paired]
  · by_cases gap : isGap c = true
    · obtain ⟨front, back⟩ := Sequence.takeWhile_append_of_exists (p := isGap) u
        ⟨'\n', breakBehind isBreak, rfl⟩
      simp [scan, isBreak, isReturn, gap, front, back]
    · obtain ⟨front, back⟩ := Sequence.takeWhile_append_of_exists (p := isWordChar) u
        ⟨'\n', breakBehind isBreak, rfl⟩
      simp [scan, isBreak, isReturn, gap, front, back]

/-- The token that takes all of a text which ends with a line break is that line break. -/
theorem kind_scan_of_rest_eq_nil (h : Text.EndsLine (c :: t)) (whole : (scan c t).2 = []) :
    (scan c t).1.kind = .newline := by
  have last : (c :: t).getLast? = some '\n' := h.resolve_left (by simp)
  have notAll {p : Char → Bool} (stops : p '\n' = false) (rest : t.dropWhile p = [])
      (other : c ≠ '\n') : False := by
    have mem : '\n' ∈ t := (List.mem_cons.1 h.newline_mem).resolve_left other.symm
    have all := List.dropWhile_eq_nil_iff.1 rest _ mem
    simp [stops] at all
  by_cases isBreak : c = '\n'
  · simp [scan, isBreak]
  by_cases isReturn : c = '\r'
  · subst isReturn
    cases t with
    | nil => simp at last
    | cons d t =>
      by_cases paired : d = '\n'
      · simp [scan, paired]
      · simp [scan, paired] at whole
  · by_cases gap : isGap c = true
    · simp only [scan, isBreak, isReturn, gap, if_true, if_false] at whole
      exact (notAll rfl whole isBreak).elim
    · simp only [scan, isBreak, isReturn, gap, if_false, Bool.false_eq_true] at whole
      exact (notAll rfl whole isBreak).elim

end Token

/-- Behind a line break a text is cut into tokens as if it stood alone. -/
theorem tokenize_append {a : Text} (h : a.EndsLine) (b : Text) :
    tokenize (a ++ b) = tokenize a ++ tokenize b := by
  fun_induction tokenize a with
  | case1 => rfl
  | case2 c t scanned ih =>
    have rest : Text.EndsLine scanned.2 := by
      rw [← Token.text_append_scan] at h
      exact h.of_append
    rw [List.cons_append, tokenize, Token.scan_append h, List.cons_append, ih rest]

theorem kind_of_getLast?_tokenize {a : Text} (h : a.EndsLine) :
    ∀ t ∈ (tokenize a).getLast?, t.kind = .newline := by
  fun_induction tokenize a with
  | case1 => simp
  | case2 c t scanned ih =>
    have rest : Text.EndsLine scanned.2 := by
      rw [← Token.text_append_scan] at h
      exact h.of_append
    intro last hlast
    cases left : scanned.2 with
    | nil =>
      rw [left, tokenize_nil, List.getLast?_singleton, Option.mem_some] at hlast
      rw [← hlast]
      exact Token.kind_scan_of_rest_eq_nil h left
    | cons d u =>
      refine ih rest last ?_
      rw [left, tokenize, List.getLast?_cons_cons] at hlast
      rw [left, tokenize]
      exact hlast

theorem splitLines_ne_nil (t : Token) (ts : List Token) : splitLines (t :: ts) ≠ [] := by
  intro none
  have whole := flatten_splitLines (t :: ts)
  simp [none] at whole

/-- A token that ends no line stands in the line of the token behind it. -/
theorem splitLines_cons {t : Token} {ts l : List Token} {ls : List (List Token)}
    (h : t.kind ≠ .newline) (lines : splitLines ts = l :: ls) :
    splitLines (t :: ts) = (t :: l) :: ls := by
  rw [splitLines, if_neg h, lines]

/-- Tokens that end with a line break and those behind them are grouped into lines separately. -/
theorem splitLines_append {ts : List Token} (h : ∀ t ∈ ts.getLast?, t.kind = .newline)
    (us : List Token) : splitLines (ts ++ us) = splitLines ts ++ splitLines us := by
  induction ts with
  | nil => rfl
  | cons t ts ih =>
    by_cases newline : t.kind = .newline
    · have rest : ∀ t ∈ ts.getLast?, t.kind = .newline := by
        intro last hlast
        refine h last ?_
        rw [List.getLast?_cons, Option.mem_def.1 hlast]
        simp
      simp [splitLines, newline, ih rest]
    · cases ts with
      | nil => exact absurd (h t (by simp)) newline
      | cons t' ts =>
        have rest : ∀ t ∈ (t' :: ts).getLast?, t.kind = .newline := by simpa using h
        obtain ⟨l, ls, lines⟩ := List.exists_cons_of_ne_nil (splitLines_ne_nil t' ts)
        have both : splitLines (t' :: ts ++ us) = l :: (ls ++ splitLines us) := by
          rw [ih rest, lines, List.cons_append]
        rw [List.cons_append, splitLines_cons newline both, splitLines_cons newline lines,
          List.cons_append]

namespace linesOf

theorem locate_append (offset : Nat) (ls ms : List (List Token)) :
    locate offset (ls ++ ms) =
      locate offset ls ++ locate (offset + Token.sizeOf ls.flatten) ms := by
  induction ls generalizing offset with
  | nil => simp [locate, Token.sizeOf, Token.textOf]
  | cons l ls ih =>
    rw [List.cons_append, locate, ih, locate, List.cons_append]
    simp [Token.sizeOf, Token.textOf, Nat.add_assoc]

theorem locate_add (n offset : Nat) (ls : List (List Token)) :
    locate (n + offset) ls = (locate offset ls).map (Line.shift n) := by
  induction ls generalizing offset with
  | nil => rfl
  | cons l ls ih =>
    rw [locate, locate, List.map_cons, Nat.add_assoc, ih]
    rfl

end linesOf

/-- Behind a line break a text has the lines that it has alone, at offsets counted from the start of
the whole text. -/
theorem linesOf_tokenize_append {a : Text} (h : a.EndsLine) (b : Text) :
    linesOf (tokenize (a ++ b)) =
      linesOf (tokenize a) ++ (linesOf (tokenize b)).map (Line.shift a.byteSize) := by
  rw [linesOf, tokenize_append h, splitLines_append (kind_of_getLast?_tokenize h),
    linesOf.locate_append, flatten_splitLines, Token.sizeOf, textOf_tokenize, Nat.add_comm,
    linesOf.locate_add]
  rfl

end RobotAnalysis
