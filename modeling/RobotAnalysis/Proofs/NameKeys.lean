import RobotAnalysis.Proofs.NameEnds

/-!
# What a key tells of a name

The key of a name has its words in lowercase and says nothing of the blanks at its ends. So names of
one key are alike if they have blanks at the same ends, provided that their letters are equal to
their lowercase up to case.
-/
namespace RobotAnalysis

open CharClass (isNameBlank)

/-- Whether a character is equal to its lowercase up to case. -/
def CaseMap.FoldsAsLower (c : Char) : Prop := (lower c).map fold = [fold c]

instance (c : Char) : Decidable (CaseMap.FoldsAsLower c) :=
  inferInstanceAs (Decidable ((CaseMap.lower c).map CaseMap.fold = [CaseMap.fold c]))

namespace Text

variable {c : Char} {t : Text}

section Words

theorem wordsBy_cons_of_blank (blank : isNameBlank c = true) (t : Text) :
    wordsBy isNameBlank (c :: t) = wordsBy isNameBlank t := by
  simp [wordsBy, Sequence.splitBy, blank]

/-- A character is a word of its own before a blank. -/
theorem wordsBy_cons_of_startsBlank (visible : isNameBlank c = false)
    (apart : t = [] ∨ startsBlank t = true) :
    wordsBy isNameBlank (c :: t) = [c] :: wordsBy isNameBlank t := by
  rcases apart with rfl | blank
  · simp [wordsBy, Sequence.splitBy, visible]
  · cases t with
    | nil => cases blank
    | cons d t =>
      have first : isNameBlank d = true := blank
      simp [wordsBy, Sequence.splitBy, visible, first]

/-- A character before another one belongs to its word. -/
theorem exists_wordsBy_cons (visible : isNameBlank c = false) (filled : t ≠ [])
    (joined : startsBlank t = false) : ∃ w ws, wordsBy isNameBlank t = w :: ws ∧
      wordsBy isNameBlank (c :: t) = (c :: w) :: ws := by
  obtain ⟨d, t, rfl⟩ := List.exists_cons_of_ne_nil filled
  have first : isNameBlank d = false := joined
  obtain ⟨w, ws, split⟩ := List.exists_cons_of_ne_nil (Sequence.splitBy_ne_nil isNameBlank t)
  exact ⟨d :: w, ws.filter fun w => !w.isEmpty, by simp [wordsBy, Sequence.splitBy, first, split],
    by simp [wordsBy, Sequence.splitBy, first, visible, split]⟩

theorem joinWith_cons_cons (d c : Char) (w : Text) (ws : List Text) :
    joinWith d ((c :: w) :: ws) = c :: joinWith d (w :: ws) := by
  cases ws <;> rfl

theorem lower_joinWith (ws : List Text) :
    lower (joinWith ' ' ws) = joinWith ' ' (ws.map lower) := by
  have space : CaseMap.lower ' ' = [' '] := by decide
  induction ws with
  | nil => rfl
  | cons w ws ih =>
    cases ws with
    | nil => rfl
    | cons v ws =>
      have more : (v :: ws).map lower ≠ [] := mt List.map_eq_nil_iff.1 (List.cons_ne_nil _ _)
      rw [joinWith_cons _ _ (List.cons_ne_nil _ _), List.map_cons, joinWith_cons _ _ more, ← ih,
        lower, List.flatMap_append, List.flatMap_cons, space]
      rfl

/-- The blank that is written for blanks at the end of a text, if a word stands before them. -/
def lastBlank (t : Text) : Text :=
  if endsBlank t && !(wordsBy isNameBlank t).isEmpty then [' '] else []

theorem isBlank_of_mem_lastBlank (h : c ∈ lastBlank t) : CharClass.isBlank c = true := by
  rw [lastBlank] at h
  split at h
  · rw [List.mem_singleton.1 h]
    decide
  · cases h

/-- A text without words has blanks only. -/
theorem wordsBy_eq_nil_iff : wordsBy isNameBlank t = [] ↔ ∀ c ∈ t, isNameBlank c = true := by
  induction t with
  | nil => exact ⟨fun _ => nofun, fun _ => rfl⟩
  | cons c t ih =>
    rw [List.forall_mem_cons]
    cases blank : isNameBlank c with
    | true => rw [wordsBy_cons_of_blank blank, ih, and_iff_right rfl]
    | false =>
      refine iff_of_false (fun none => ?_) fun all => by cases all.1
      by_cases apart : t = [] ∨ startsBlank t = true
      · rw [wordsBy_cons_of_startsBlank blank apart] at none
        cases none
      · rw [not_or, Bool.not_eq_true] at apart
        obtain ⟨w, ws, -, longer⟩ := exists_wordsBy_cons blank apart.1 apart.2
        rw [longer] at none
        cases none

/-- Without the blanks at its start a text is its words with single spaces between them. -/
theorem collapseBlanks_true_eq_joinWith (t : Text) :
    collapseBlanks true t = joinWith ' ' (wordsBy isNameBlank t) ++ lastBlank t := by
  induction t with
  | nil => rfl
  | cons c t ih =>
    cases blank : isNameBlank c with
    | true =>
      rw [collapseBlanks_cons_of_blank blank, if_pos rfl, ih, lastBlank, lastBlank,
        wordsBy_cons_of_blank blank, endsBlank_cons]
      by_cases none : t = []
      · rw [none, if_pos rfl, blank]
        rfl
      · rw [if_neg none]
    | false =>
      rw [collapseBlanks_cons_of_not_blank blank, collapseBlanks_false_eq, ih, lastBlank, lastBlank,
        endsBlank_cons]
      by_cases none : t = []
      · rw [wordsBy_cons_of_startsBlank blank (.inl none), none, if_pos rfl, blank]
        rfl
      cases first : startsBlank t with
      | true =>
        rw [wordsBy_cons_of_startsBlank blank (.inr first), if_pos rfl, if_neg none]
        by_cases words : wordsBy isNameBlank t = []
        · have last : endsBlank t = true := by
            rw [endsBlank, List.getLast?_eq_some_getLast none]
            exact wordsBy_eq_nil_iff.1 words _ (List.getLast_mem none)
          rw [words, last]
          rfl
        · rw [joinWith_cons _ _ words]
          simp [words]
      | false =>
        obtain ⟨w, ws, words, longer⟩ := exists_wordsBy_cons blank none first
        rw [words, longer, joinWith_cons_cons, if_neg Bool.false_ne_true, if_neg none]
        rfl

theorem mem_collapseBlanks {inBlanks : Bool} (h : c ∈ collapseBlanks inBlanks t) :
    c = ' ' ∨ c ∈ t := by
  induction t generalizing inBlanks with
  | nil => cases h
  | cons d t ih =>
    have behind {inBlanks : Bool} (h : c ∈ collapseBlanks inBlanks t) : c = ' ' ∨ c ∈ d :: t :=
      (ih h).imp_right (List.mem_cons_of_mem d)
    rw [collapseBlanks] at h
    split at h
    · split at h
      · exact behind h
      · exact (List.mem_cons.1 h).elim .inl behind
    · exact (List.mem_cons.1 h).elim (fun same => .inr (same ▸ List.mem_cons_self)) behind

end Words

end Text

open Text (even startsBlank endsBlank)

namespace Name

variable {s t : Text}

theorem key_eq_nil_iff_wordsBy : key t = [] ↔ Text.wordsBy isNameBlank t = [] := by
  constructor
  · intro empty
    cases words : Text.wordsBy isNameBlank t with
    | nil => rfl
    | cons w ws =>
      have filled : w ≠ [] := by
        have mem : w ∈ Text.wordsBy isNameBlank t := words ▸ List.mem_cons_self
        simpa using (List.mem_filter.1 mem).2
      obtain ⟨c, w, rfl⟩ := List.exists_cons_of_ne_nil filled
      rw [key, ← Text.lower_joinWith, words, Text.joinWith_cons_cons, Text.lower, List.flatMap_cons,
        List.append_eq_nil_iff] at empty
      exact absurd empty.1 (CaseMap.lower_ne_nil c)
  · intro none
    rw [key, none]
    rfl

theorem key_eq_nil_iff : key t = [] ↔ ∀ c ∈ t, isNameBlank c = true :=
  key_eq_nil_iff_wordsBy.trans Text.wordsBy_eq_nil_iff

/-- Blanks at its ends make no difference to the key of a name. -/
theorem key_append_blank {front back : Text} (blank : ∀ c ∈ front ++ back, isNameBlank c = true)
    (t : Text) : key (front ++ t ++ back) = key t := by
  obtain ⟨before, behind⟩ := List.forall_mem_append.1 blank
  have started : Text.wordsBy isNameBlank (front ++ (t ++ back)) =
      Text.wordsBy isNameBlank (t ++ back) := by
    clear blank
    induction front with
    | nil => rfl
    | cons c front ih =>
      obtain ⟨first, others⟩ := List.forall_mem_cons.1 before
      rw [List.cons_append, Text.wordsBy_cons_of_blank first, ih others]
  have ended : Text.wordsBy isNameBlank (t ++ back) = Text.wordsBy isNameBlank t := by
    cases back with
    | nil => rw [List.append_nil]
    | cons c back =>
      obtain ⟨first, others⟩ := List.forall_mem_cons.1 behind
      rw [Text.wordsBy_append_cons first, Text.wordsBy_eq_nil_iff.2 others, List.append_nil]
  rw [key, List.append_assoc, started, ended, key]

/-- Up to the blanks at its start the lowercase of a name is its key, with a space behind it if the
name ends with a blank. -/
theorem lower_collapseBlanks_true (t : Text) : Text.lower (Text.collapseBlanks true t) =
    key t ++ if endsBlank t && !(key t).isEmpty then [' '] else [] := by
  have same : (key t).isEmpty = (Text.wordsBy isNameBlank t).isEmpty := by
    rw [Bool.eq_iff_iff, List.isEmpty_iff, List.isEmpty_iff, key_eq_nil_iff_wordsBy]
  have space : CaseMap.lower ' ' = [' '] := by decide
  rw [Text.collapseBlanks_true_eq_joinWith, Text.lower, List.flatMap_append, ← Text.lower,
    Text.lower_joinWith, same, Text.lastBlank, key]
  congr 1
  split
  · simp [space]
  · rfl

theorem even_true_eq (regular : ∀ c ∈ t, CaseMap.FoldsAsLower c) :
    even true t = (Text.lower (Text.collapseBlanks true t)).map CaseMap.fold := by
  rw [even, Text.collapseBlanks_map_fold, Text.lower, List.map_flatMap]
  have each : ∀ c ∈ Text.collapseBlanks true t,
      (CaseMap.lower c).map CaseMap.fold = [CaseMap.fold c] := by
    intro c hc
    rcases Text.mem_collapseBlanks hc with rfl | inside
    · decide
    · exact regular c inside
  rw [List.flatMap_congr each, List.map_eq_flatMap]

/-- Names of one key are alike if they have blanks at the same ends. -/
theorem alike_of_key_eq (regular : ∀ c, c ∈ s ∨ c ∈ t → CaseMap.FoldsAsLower c)
    (same : key s = key t) (starts : startsBlank s = startsBlank t)
    (ends : endsBlank s = endsBlank t) : s.Alike t := by
  have words : even true s = even true t := by
    rw [even_true_eq fun c hc => regular c (.inl hc), even_true_eq fun c hc => regular c (.inr hc),
      lower_collapseBlanks_true, lower_collapseBlanks_true, same, ends]
  have whole : even false s = even false t := by
    rw [Text.even_false_eq, Text.even_false_eq, words, starts]
  exact whole

end Name

end RobotAnalysis
