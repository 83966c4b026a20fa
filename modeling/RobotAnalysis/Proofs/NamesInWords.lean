import RobotAnalysis.Proofs.FunctionNames
import RobotAnalysis.Proofs.NameKeys

/-!
# Names in words

Turning the name of a function into words is done once: a name in words stays as it is, and no
character of the name but its blanks and underscores is touched. The words of an identifier have
single spaces between them, and none of them would be cut again.
-/
namespace RobotAnalysis

open CharClass (isBlank isNameBlank isUpper isLower isDigit)

/-- Words that are joined end as the last of them does. -/
theorem Text.getLast?_joinWith {p : Char → Bool} {d : Char} {ws : List Text}
    (h : ∀ w ∈ ws, w ≠ [] ∧ ∀ c ∈ w, p c = false) : ∀ c ∈ (joinWith d ws).getLast?, p c = false := by
  induction ws with
  | nil => nofun
  | cons w ws ih =>
    obtain ⟨⟨-, first⟩, others⟩ := List.forall_mem_cons.1 h
    cases ws with
    | nil => exact fun c last => first c (List.mem_of_getLast? last)
    | cons v ws =>
      obtain ⟨c, v, rfl⟩ := List.exists_cons_of_ne_nil (others v List.mem_cons_self).1
      have later := ih others
      rw [joinWith_cons d w (List.cons_ne_nil _ _),
        List.getLast?_append_of_ne_nil _ (List.cons_ne_nil _ _), joinWith_cons_cons,
        List.getLast?_cons_cons, ← joinWith_cons_cons]
      exact later

namespace Name

variable {t : Text}

/-- Whether a text is a name in words: words with single spaces between them, none of which would be
cut again. -/
structure InWords (t : Text) : Prop where
  words : ∃ ws, t = Text.joinWith ' ' ws ∧ ∀ w ∈ ws, w ≠ [] ∧ ∀ c ∈ w, isNameBlank c = false
  noUnderscore : '_' ∉ t
  trimmed : t.trim = t
  uncut : t.IsChain fun b c => isLower b = true ∨ isDigit b = true → isUpper c = false

theorem exists_words_ofFunction (single : IsIdentifier t.trim) :
    ∃ ws, ofFunction t = Text.joinWith ' ' ws ∧
      ∀ w ∈ ws, w ≠ [] ∧ ∀ c ∈ w, isNameBlank c = false := by
  have once := collapseBlanks_splitIdentifier single.blanks false none
  rw [Bool.not_false, Text.collapseBlanks_true_eq_joinWith] at once
  rw [ofFunction_of_isIdentifier single]
  generalize splitIdentifier false none t.trim = s at once
  have words : ∀ w ∈ Text.wordsBy isNameBlank s, w ≠ [] ∧ ∀ c ∈ w, isNameBlank c = false :=
    fun _ hw => Text.of_mem_wordsBy hw
  have visible : ∀ c ∈ (Text.joinWith ' ' (Text.wordsBy isNameBlank s)).getLast?,
      isBlank c = false := fun c last =>
    (Bool.or_eq_false_iff.1 (Text.getLast?_joinWith words c last)).1
  refine ⟨Text.wordsBy isNameBlank s, ?_, words⟩
  calc Text.trimEnd s
      = Text.trimEnd (Text.joinWith ' ' (Text.wordsBy isNameBlank s) ++ Text.lastBlank s) := by
        rw [once]
    _ = Text.trimEnd (Text.joinWith ' ' (Text.wordsBy isNameBlank s)) :=
        Sequence.dropTrailing_append _ fun _ => Text.isBlank_of_mem_lastBlank
    _ = Text.joinWith ' ' (Text.wordsBy isNameBlank s) := Sequence.dropTrailing_eq_self visible

theorem Unbroken.isChain (h : Unbroken t) :
    t.IsChain fun b c => isLower b = true ∨ isDigit b = true → isUpper c = false := by
  refine List.IsChain.imp (fun b c apart behind => ?_) h
  rw [isBoundary, Option.any_some, Bool.or_eq_true_iff.2 behind, Bool.and_true] at apart
  exact apart

/-- A name in words is its own name in words. It has the characters of the name that it was made of,
blanks and underscores apart, and if that is an identifier its words are told apart by single spaces
alone. -/
theorem ofFunction_inWords (t : Text) :
    ofFunction (ofFunction t) = ofFunction t ∧
    (ofFunction t).filter (fun c => !isNameBlank c) = t.filter (fun c => !isNameBlank c) ∧
    (IsIdentifier t.trim → InWords (ofFunction t)) := by
  refine ⟨ofFunction_ofFunction t, filter_ofFunction t, fun single => ?_⟩
  obtain ⟨noUnderscore, whole⟩ := unbroken_ofFunction single
  exact ⟨exists_words_ofFunction single, noUnderscore, trim_ofFunction t, whole.isChain⟩

/-- An identifier with underscores at both ends, a run of them, and a capital behind a digit. -/
theorem ofFunction_inWords_identifier :
    let name : Text := " _open__url2Now_ ".toList
    IsIdentifier name.trim ∧ ofFunction name = "open url2 Now".toList ∧
      InWords (ofFunction name) := by
  intro name
  have single : IsIdentifier name.trim := ⟨by decide, List.all_eq_true.1 (by decide)⟩
  exact ⟨single, by decide, (ofFunction_inWords name).2.2 single⟩

end Name

end RobotAnalysis
