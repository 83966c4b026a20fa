import Mathlib.Data.List.TakeWhile
import RobotAnalysis.Sequence
import RobotAnalysis.Token

/-!
# How tokens are written

The tokens of a text are determined by two things: every token is written as its kind demands, and
no character that could still belong to it stands behind it. So any tokens with these properties are
the tokens of the text that they spell.
-/
namespace RobotAnalysis

/-- Whether a character behind a token of some kind would still belong to it. -/
def TokenKind.takes : TokenKind → Char → Bool
  | .word => Token.isWordChar
  | .space | .separator => Token.isGap
  | .newline => fun _ => false
  | .stray => (· == '\n')

namespace Token

/-- What separates cells: two or more blanks, or blanks with a tab among them. -/
structure IsSeparator (text : Text) : Prop where
  gaps : ∀ c ∈ text, isGap c = true
  wide : 2 ≤ text.length ∨ '\t' ∈ text

/-- Whether a token is written as its kind demands. -/
def IsSpelled (t : Token) : Prop :=
  match t.kind with
  | .word => t.text ≠ [] ∧ ∀ c ∈ t.text, isWordChar c = true
  | .space => t.text = [' ']
  | .separator => IsSeparator t.text
  | .newline => t.text = ['\n'] ∨ t.text = ['\r', '\n']
  | .stray => t.text = ['\r']

/-- Whether tokens are written as their kinds demand and none could be longer. -/
def Separate : List Token → Prop
  | [] => True
  | t :: ts => t.IsSpelled ∧ (∀ c ∈ (textOf ts).head?, t.kind.takes c = false) ∧ Separate ts

theorem IsSeparator.ne_nil {text : Text} (h : IsSeparator text) : text ≠ [] := by
  rintro rfl
  rcases h.wide with long | tab
  · cases long
  · cases tab

theorem IsSeparator.ne_space {text : Text} (h : IsSeparator text) : text ≠ [' '] := by
  rintro rfl
  rcases h.wide with long | tab
  · exact absurd long (by decide)
  · exact absurd tab (by decide)

theorem IsSpelled.text_of_space {t : Token} (h : t.IsSpelled) (space : t.kind = .space) :
    t.text = [' '] := by
  rw [IsSpelled, space] at h
  exact h

theorem IsSpelled.isSeparator {t : Token} (h : t.IsSpelled) (separator : t.kind = .separator) :
    IsSeparator t.text := by
  rw [IsSpelled, separator] at h
  exact h

theorem IsSpelled.text_of_newline {t : Token} (h : t.IsSpelled) (newline : t.kind = .newline) :
    t.text = ['\n'] ∨ t.text = ['\r', '\n'] := by
  rw [IsSpelled, newline] at h
  exact h

theorem IsSpelled.notMem_newline {t : Token} (h : t.IsSpelled) (other : t.kind ≠ .newline) :
    '\n' ∉ t.text := by
  rw [IsSpelled] at h
  split at h
  · exact fun feed => absurd (h.2 _ feed) (by decide)
  · rw [h]
    decide
  · exact fun feed => absurd (h.gaps _ feed) (by decide)
  · rename_i newline
    exact absurd newline other
  · rw [h]
    decide

/-- Outside of line breaks a carriage return stands by itself. -/
theorem IsSpelled.kind_of_return {t : Token} (h : t.IsSpelled) (other : t.kind ≠ .newline)
    (isReturn : '\r' ∈ t.text) : t.kind = .stray := by
  rw [IsSpelled] at h
  split at h
  · exact absurd (h.2 _ isReturn) (by decide)
  · rw [h] at isReturn
    exact absurd isReturn (by decide)
  · exact absurd (h.gaps _ isReturn) (by decide)
  · rename_i newline
    exact absurd newline other
  · rename_i stray
    exact stray

/-- A run of blanks that is not a single space separates. -/
theorem isSeparator_of_ne_space {c : Char} {run : Text} (gaps : ∀ d ∈ c :: run, isGap d = true)
    (other : c :: run ≠ [' ']) : IsSeparator (c :: run) where
  gaps := gaps
  wide := by
    cases run with
    | cons d run => exact .inl (by simp)
    | nil =>
      have gap := gaps c List.mem_cons_self
      rw [isGap, Bool.or_eq_true, beq_iff_eq, beq_iff_eq] at gap
      rcases gap with space | tab
      · exact absurd (congrArg (fun d => [d]) space) other
      · exact .inr (by simp [tab])

/-- What is left behind the longest run of a class does not begin with it. -/
theorem notMem_head?_dropWhile {p : Char → Bool} (t : Text) :
    ∀ c ∈ (t.dropWhile p).head?, p c = false := by
  intro c hc
  have stops := List.head?_dropWhile_not p t
  rw [Option.mem_def.1 hc] at stops
  simpa using stops

/-- The token found first is written as its kind demands, and it ends where it has to. -/
theorem isSpelled_scan (c : Char) (t : Text) : (scan c t).1.IsSpelled ∧
    ∀ d ∈ (scan c t).2.head?, (scan c t).1.kind.takes d = false := by
  unfold scan
  split
  · rename_i isBreak
    exact ⟨.inl (by rw [isBreak]), fun _ _ => rfl⟩
  · split
    · split
      · exact ⟨.inr rfl, fun _ _ => rfl⟩
      · rename_i unpaired
        refine ⟨rfl, fun d hd => ?_⟩
        cases t with
        | nil => cases hd
        | cons e t =>
          cases hd
          exact beq_false_of_ne fun same => unpaired t (by rw [same])
    · split
      · rename_i gap
        have run : ∀ d ∈ c :: t.takeWhile isGap, isGap d = true :=
          List.forall_mem_cons.2 ⟨gap, List.all_eq_true.1 List.all_takeWhile⟩
        dsimp only
        split
        · rename_i single
          exact ⟨single, notMem_head?_dropWhile t⟩
        · rename_i other
          exact ⟨isSeparator_of_ne_space run other, notMem_head?_dropWhile t⟩
      · rename_i notBreak notReturn noGap
        have first : isWordChar c = true := by simp [isWordChar, noGap, notBreak, notReturn]
        have run : ∀ d ∈ c :: t.takeWhile isWordChar, isWordChar d = true :=
          List.forall_mem_cons.2 ⟨first, List.all_eq_true.1 List.all_takeWhile⟩
        exact ⟨⟨List.cons_ne_nil _ _, run⟩, notMem_head?_dropWhile t⟩

theorem separate_tokenize (text : Text) : Separate (tokenize text) := by
  fun_induction tokenize text with
  | case1 => trivial
  | case2 c t scanned ih =>
    obtain ⟨spelled, ends⟩ := isSpelled_scan c t
    refine ⟨spelled, ?_, ih⟩
    rw [textOf_tokenize]
    exact ends

theorem Separate.isSpelled {ts : List Token} (h : Separate ts) : ∀ t ∈ ts, t.IsSpelled := by
  induction ts with
  | nil => simp
  | cons t ts ih => exact List.forall_mem_cons.2 ⟨h.1, ih h.2.2⟩

/-- A run of a class is cut off where a character of another class follows. -/
theorem span_append {p : Char → Bool} {run rest : Text} (all : ∀ c ∈ run, p c = true)
    (ends : ∀ c ∈ rest.head?, p c = false) :
    (run ++ rest).takeWhile p = run ∧ (run ++ rest).dropWhile p = rest := by
  obtain ⟨front, back⟩ := Sequence.takeWhile_append_of_head? run ends
  have whole : run.takeWhile p = run := List.takeWhile_eq_self_iff.2 all
  have none_left : run.dropWhile p = [] := List.dropWhile_eq_nil_iff.2 all
  exact ⟨front.trans whole, by rw [back, none_left, List.nil_append]⟩

/-- A token that is written as its kind demands is found in front of what cannot make it longer. -/
theorem tokenize_text_append {t : Token} {rest : Text} (spelled : t.IsSpelled)
    (ends : ∀ c ∈ rest.head?, t.kind.takes c = false) :
    tokenize (t.text ++ rest) = t :: tokenize rest := by
  obtain ⟨kind, text⟩ := t
  have found {c : Char} {run : Text} (h : scan c (run ++ rest) = (⟨kind, c :: run⟩, rest)) :
      tokenize (c :: run ++ rest) = ⟨kind, c :: run⟩ :: tokenize rest := by
    rw [List.cons_append, tokenize, h]
  cases kind with
  | word =>
    obtain ⟨nonempty, all⟩ := spelled
    obtain ⟨c, run, rfl⟩ := List.exists_cons_of_ne_nil nonempty
    obtain ⟨first, others⟩ := List.forall_mem_cons.1 all
    obtain ⟨front, back⟩ := span_append others ends
    simp only [isWordChar, Bool.and_eq_true, Bool.not_eq_true', bne_iff_ne, ne_eq] at first
    obtain ⟨⟨noGap, notBreak⟩, notReturn⟩ := first
    exact found (by simp [scan, noGap, notBreak, notReturn, front, back])
  | space =>
    cases spelled
    have first : isGap ' ' = true := rfl
    have nothing : ∀ c ∈ ([] : Text), isGap c = true := by simp
    obtain ⟨front, back⟩ := span_append nothing ends
    rw [List.nil_append] at front back
    exact found (by simp [scan, first, front, back])
  | separator =>
    obtain ⟨c, run, rfl⟩ := List.exists_cons_of_ne_nil (IsSeparator.ne_nil spelled)
    obtain ⟨first, others⟩ := List.forall_mem_cons.1 (IsSeparator.gaps spelled)
    obtain ⟨front, back⟩ := span_append others ends
    have notBreak : c ≠ '\n' := by
      rintro rfl
      cases first
    have notReturn : c ≠ '\r' := by
      rintro rfl
      cases first
    have other := IsSeparator.ne_space spelled
    refine found ?_
    simp only [scan, if_neg notBreak, if_neg notReturn, if_pos first, front, back, if_neg other]
  | newline =>
    rcases spelled with rfl | rfl
    · exact found (by simp [scan])
    · exact found (by simp [scan])
  | stray =>
    cases spelled
    refine found ?_
    cases rest with
    | nil => rfl
    | cons d rest =>
      have unpaired : d ≠ '\n' := by simpa [TokenKind.takes] using ends d rfl
      simp [scan, unpaired]

theorem tokenize_textOf {ts : List Token} (h : Separate ts) : tokenize (textOf ts) = ts := by
  induction ts with
  | nil => exact tokenize_nil
  | cons t ts ih =>
    obtain ⟨spelled, ends, rest⟩ := h
    have whole : textOf (t :: ts) = t.text ++ textOf ts := List.flatMap_cons
    rw [whole, tokenize_text_append spelled ends, ih rest]

end Token

/-- The tokens of a text are the only ones that spell it and could not be longer. -/
theorem tokenize_eq_iff {text : Text} {ts : List Token} :
    tokenize text = ts ↔ Token.textOf ts = text ∧ Token.Separate ts := by
  constructor
  · rintro rfl
    exact ⟨textOf_tokenize text, Token.separate_tokenize text⟩
  · rintro ⟨rfl, separate⟩
    exact Token.tokenize_textOf separate

end RobotAnalysis
