import RobotAnalysis.Sequence
import RobotAnalysis.Text.Basic
import RobotAnalysis.Text.CharClass

/-!
# Blanks around and between words

Trimming removes blanks of any script from the ends of a text, and `words` cuts a text at its
blanks. A trimmed text neither starts nor ends with a blank.
-/
namespace RobotAnalysis.Text

open CharClass (isBlank)

def trimStart (t : Text) : Text := t.dropWhile isBlank

def trimEnd (t : Text) : Text := Sequence.dropTrailing isBlank t

def trim (t : Text) : Text := trimEnd (trimStart t)

theorem trimEnd_sublist (t : Text) : (trimEnd t).Sublist t :=
  (Sequence.dropTrailing_isPrefix _ t).sublist

theorem trim_sublist (t : Text) : (trim t).Sublist t :=
  (trimEnd_sublist _).trans (List.dropWhile_sublist _)

theorem trim_append_of_blank (t : Text) {blank : Text} (h : ∀ c ∈ blank, isBlank c = true) :
    trim (t ++ blank) = trim t := by
  rw [trim, trim, trimStart, trimStart, List.dropWhile_append]
  split
  · rename_i gone
    have nothing : blank.dropWhile isBlank = [] := by
      rw [← List.append_nil blank, List.dropWhile_append_of_pos h]
      rfl
    rw [nothing, List.isEmpty_iff.1 gone]
  · exact Sequence.dropTrailing_append _ h

theorem trim_blank_append {blank : Text} (h : ∀ c ∈ blank, isBlank c = true) (t : Text) :
    trim (blank ++ t) = trim t := by
  rw [trim, trim, trimStart, trimStart, List.dropWhile_append_of_pos h]

/-- Trailing blanks are removed only once. -/
theorem trim_trimEnd (t : Text) : trim (trimEnd t) = trim t := by
  obtain ⟨blank, whole, all⟩ := Sequence.exists_dropTrailing_append isBlank t
  conv => rhs; rw [whole]
  exact (trim_append_of_blank _ all).symm

@[simp] theorem trim_trim (t : Text) : trim (trim t) = trim t := by
  obtain ⟨blank, whole, all⟩ : ∃ blank, t = blank ++ trimStart t ∧ ∀ c ∈ blank, isBlank c = true :=
    ⟨t.takeWhile isBlank, List.takeWhile_append_dropWhile.symm,
      fun _ hc => List.all_eq_true.1 List.all_takeWhile _ hc⟩
  have inner : trim t = trimEnd (trimStart t) := rfl
  conv => lhs; rw [inner, trim_trimEnd, ← trim_blank_append all (trimStart t), ← whole]

/-- A text is its own trim where no blank stands at its ends. -/
theorem trim_eq_self_iff {t : Text} : t.trim = t ↔
    (∀ c ∈ t.head?, isBlank c = false) ∧ (∀ c ∈ t.getLast?, isBlank c = false) := by
  constructor
  · intro h
    refine ⟨fun c first => ?_, fun c last => ?_⟩
    · obtain ⟨rest, whole⟩ := List.head?_eq_some_iff.1 first
      cases blank : isBlank c with
      | false => rfl
      | true =>
        have shorter : t.trim.length ≤ rest.length := by
          rw [whole, trim, trimStart, List.dropWhile_cons_of_pos blank]
          exact Nat.le_trans (Sequence.length_dropTrailing_le _ _)
            (List.dropWhile_sublist _).length_le
        rw [h, whole, List.length_cons] at shorter
        omega
    · rw [← h, trim, trimEnd] at last
      exact Sequence.getLast?_dropTrailing last
  · rintro ⟨first, last⟩
    have start : t.trimStart = t := by
      cases t with
      | nil => rfl
      | cons c rest => exact List.dropWhile_cons_of_neg (by simp [first c rfl])
    obtain ⟨dropped, whole, blank⟩ := Sequence.exists_dropTrailing_append isBlank t
    rcases List.eq_nil_or_concat dropped with none | ⟨front, c, some⟩
    · rw [none, List.append_nil] at whole
      rw [trim, start, trimEnd, ← whole]
    · have held : isBlank c = true := blank c (by simp [some])
      rw [last c (by rw [whole, some]; simp)] at held
      cases held

theorem mem_trim {t : Text} {c : Char} (h : c ∈ t) (kept : isBlank c = false) : c ∈ trim t :=
  Sequence.mem_dropTrailing (Sequence.mem_dropWhile h kept) kept

/-- The text without leading and trailing characters of a class. -/
def trimBy (p : Char → Bool) (t : Text) : Text := Sequence.dropTrailing p (t.dropWhile p)

/-- The non-empty pieces between the characters of a class. -/
def wordsBy (p : Char → Bool) (t : Text) : List Text :=
  (Sequence.splitBy p t).filter fun w => !w.isEmpty

/-- The words before a separating character and those after it are found independently. -/
theorem wordsBy_append_cons {p : Char → Bool} {c : Char} (h : p c = true) (s t : Text) :
    wordsBy p (s ++ c :: t) = wordsBy p s ++ wordsBy p t := by
  simp [wordsBy, Sequence.splitBy_append_cons h]

theorem of_mem_wordsBy {p : Char → Bool} {t w : Text} (h : w ∈ wordsBy p t) :
    w ≠ [] ∧ ∀ c ∈ w, p c = false := by
  obtain ⟨piece, filled⟩ := List.mem_filter.1 h
  exact ⟨by simpa using filled, Sequence.of_mem_splitBy piece⟩

/-- The words of a text, which blanks separate. -/
def words (t : Text) : List Text := wordsBy isBlank t

/-- Words joined by a single character. -/
def joinWith (c : Char) : List Text → Text
  | [] => []
  | [w] => w
  | w :: ws => w ++ c :: joinWith c ws

end RobotAnalysis.Text
