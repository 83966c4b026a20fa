import RobotAnalysis.Reserved

/-!
# Texts up to their blanks

Which blanks stand between two words makes no difference to the kind that a heading announces, as
long as some stand there: headings are compared without blanks, and the stars around them end at the
first blank.
-/
namespace RobotAnalysis

open CharClass (isBlank)

/-- Whether two texts differ only in which blanks they have, wherever both have some. -/
inductive Text.Respaced : Text → Text → Prop
  | nil : Respaced [] []
  | char (c : Char) {s t : Text} (rest : Respaced s t) : Respaced (c :: s) (c :: t)
  | run {a b s t : Text} (some_left : a ≠ []) (some_right : b ≠ [])
      (blank_left : ∀ c ∈ a, isBlank c = true) (blank_right : ∀ c ∈ b, isBlank c = true)
      (rest : Respaced s t) : Respaced (a ++ s) (b ++ t)

namespace Text.Respaced

variable {s s' t t' : Text} {p : Char → Bool}

theorem refl : ∀ s : Text, s.Respaced s
  | [] => .nil
  | c :: s => .char c (refl s)

theorem append (h : s.Respaced t) (h' : s'.Respaced t') : (s ++ s').Respaced (t ++ t') := by
  induction h with
  | nil => exact h'
  | char c rest ih => exact .char c ih
  | run some_left some_right blank_left blank_right rest ih =>
    rw [List.append_assoc, List.append_assoc]
    exact .run some_left some_right blank_left blank_right ih

theorem eq_nil_iff (h : s.Respaced t) : s = [] ↔ t = [] := by
  cases h with
  | nil => rfl
  | char c rest => simp
  | run some_left some_right _ _ _ => simp [some_left, some_right]

/-- Dropping the first characters of a class that has all blanks or none. -/
theorem dropWhile (h : s.Respaced t) {v : Bool} (uniform : ∀ c, isBlank c = true → p c = v) :
    Respaced (s.dropWhile p) (t.dropWhile p) := by
  induction h with
  | nil => exact .nil
  | char c rest ih =>
    cases here : p c with
    | true => simpa [here] using ih
    | false => simpa [here] using Respaced.char c rest
  | run some_left some_right blank_left blank_right rest ih =>
    have alike {a : Text} (blank : ∀ c ∈ a, isBlank c = true) : ∀ c ∈ a, p c = v :=
      fun c hc => uniform c (blank c hc)
    cases v with
    | true =>
      rw [List.dropWhile_append_of_pos (alike blank_left),
        List.dropWhile_append_of_pos (alike blank_right)]
      exact ih
    | false =>
      obtain ⟨c, a, rfl⟩ := List.exists_cons_of_ne_nil some_left
      obtain ⟨d, b, rfl⟩ := List.exists_cons_of_ne_nil some_right
      have stops := alike blank_left c List.mem_cons_self
      have stops' := alike blank_right d List.mem_cons_self
      rw [List.cons_append, List.cons_append, List.dropWhile_cons_of_neg (by simp [stops]),
        List.dropWhile_cons_of_neg (by simp [stops'])]
      exact .run some_left some_right blank_left blank_right rest

/-- Where elements of a class stand in front of what is left of a list, they are kept, and where
nothing is left of it they are dropped; elements outside the class are always kept. -/
theorem dropTrailing_append_of_uniform {v : Bool} {a : Text} (some_there : a ≠ [])
    (alike : ∀ c ∈ a, p c = v) (s : Text) : Sequence.dropTrailing p (a ++ s) =
      if Sequence.dropTrailing p s = [] ∧ v = true then [] else a ++ Sequence.dropTrailing p s := by
  induction a with
  | nil => exact absurd rfl some_there
  | cons c a ih =>
    obtain ⟨first, others⟩ := List.forall_mem_cons.1 alike
    rw [List.cons_append, Sequence.dropTrailing_cons, first]
    cases a with
    | nil => simp
    | cons d a =>
      rw [ih (List.cons_ne_nil d a) others]
      by_cases gone : Sequence.dropTrailing p s = [] ∧ v = true
      · simp [gone]
      · simp [gone]

/-- Dropping the last characters of a class that has all blanks or none. -/
theorem dropTrailing (h : s.Respaced t) {v : Bool} (uniform : ∀ c, isBlank c = true → p c = v) :
    Respaced (Sequence.dropTrailing p s) (Sequence.dropTrailing p t) := by
  induction h with
  | nil => exact .nil
  | char c rest ih =>
    rw [Sequence.dropTrailing_cons, Sequence.dropTrailing_cons]
    simp only [ih.eq_nil_iff]
    split
    · exact .nil
    · exact .char c ih
  | run some_left some_right blank_left blank_right rest ih =>
    rw [dropTrailing_append_of_uniform some_left fun c hc => uniform c (blank_left c hc),
      dropTrailing_append_of_uniform some_right fun c hc => uniform c (blank_right c hc)]
    simp only [ih.eq_nil_iff]
    split
    · exact .nil
    · exact .run some_left some_right blank_left blank_right ih

theorem normalize_eq (h : s.Respaced t) : Reserved.normalize s = Reserved.normalize t := by
  have kept : (s.filter fun c => !isBlank c) = t.filter fun c => !isBlank c := by
    induction h with
    | nil => rfl
    | char c rest ih => rw [List.filter_cons, List.filter_cons, ih]
    | run _ _ blank_left blank_right rest ih =>
      have none_kept {a : Text} (blank : ∀ c ∈ a, isBlank c = true) :
          (a.filter fun c => !isBlank c) = [] :=
        List.filter_eq_nil_iff.2 fun c hc => by simp [blank c hc]
      rw [List.filter_append, List.filter_append, none_kept blank_left, none_kept blank_right, ih]
  rw [Reserved.normalize, Reserved.normalize, kept]

theorem trim (h : s.Respaced t) : Respaced s.trim t.trim :=
  (h.dropWhile fun _ blank => blank).dropTrailing fun _ blank => blank

theorem trimBy_star (h : s.Respaced t) :
    Respaced (s.trimBy (· == '*')) (t.trimBy (· == '*')) := by
  have star (c : Char) (blank : isBlank c = true) : (c == '*') = false := by
    refine beq_false_of_ne fun same => ?_
    rw [same] at blank
    exact absurd blank (by decide)
  exact (h.dropWhile star).dropTrailing star

end Text.Respaced

/-- Headings that differ only in their blanks announce the same kind. -/
theorem HeadingKind.ofText_respaced {s t : Text} (h : s.Respaced t) : ofText s = ofText t := by
  have same (words : List String) :
      Reserved.isOneOf words (s.trim.trimBy (· == '*')) =
        Reserved.isOneOf words (t.trim.trimBy (· == '*')) := by
    rw [Reserved.isOneOf, Reserved.isOneOf, h.trim.trimBy_star.normalize_eq]
  simp only [ofText, same]

end RobotAnalysis
