import Mathlib.Data.Bool.AllAny
import RobotAnalysis.Proofs.FunctionNames

/-!
# Calls in other cases and with other separators

A keyword whose name is some words of small letters and digits is called by writing every word as it
is or in capitals and any run of spaces and underscores between two of them. A call without spaces
is a single identifier, which is cut into words of its own first: it misses the keyword when a word
in capitals has a letter behind a digit.
-/
namespace RobotAnalysis

open CharClass (isNameBlank continuesIdentifier isUpper isLower isDigit)

/-- A small letter of ASCII. -/
def CharClass.isSmallLetter (c : Char) : Bool := decide ('a' ≤ c) && decide (c ≤ 'z')

open CharClass (isSmallLetter)

/-- Whether a word consists of small letters and digits and begins with a letter. -/
structure IsPlainWord (word : Text) : Prop where
  first : ∃ c, word.head? = some c ∧ isSmallLetter c = true
  all : ∀ c ∈ word, isSmallLetter c = true ∨ isDigit c = true

/-- Whether a text writes some words one after the other, each as it is or in capitals, with spaces
and underscores between two of them. -/
inductive SpellsCall : List Text → Text → Prop
  | word {w s : Text} (spelled : s = w ∨ s = w.flatMap CaseMap.upper) : SpellsCall [w] s
  | before {w s run t : Text} {ws : List Text} (spelled : s = w ∨ s = w.flatMap CaseMap.upper)
      (filled : run ≠ []) (blank : ∀ c ∈ run, c = ' ' ∨ c = '_') (rest : SpellsCall ws t) :
      SpellsCall (w :: ws) (s ++ run ++ t)

/-- Whether nowhere in a text a capital stands right behind a digit. -/
def NoCapitalBehindDigit (t : Text) : Prop :=
  t.IsChain fun b c => isDigit b = true → isUpper c = false

/-- What the characters of a spelled word have in common. -/
structure IsWordCharacter (c : Char) : Prop where
  continues : continuesIdentifier c = true
  visible : isNameBlank c = false
  noMark : c ≠ '{' ∧ c ≠ '.'

/-- What capitals do to the characters of a plain word. -/
theorem letter_or_digit {c : Char} (h : isSmallLetter c = true ∨ isDigit c = true) :
    (∀ d, d = c ∨ d ∈ CaseMap.upper c → IsWordCharacter d) ∧ CaseMap.fold c = c ∧
      (CaseMap.upper c).map CaseMap.fold = [c] ∧ isUpper c = false ∧
      ∀ d ∈ CaseMap.upper c, isLower d = false := by
  have checked : ∀ n ∈ List.range' 48 10 ++ List.range' 97 26,
      ((Char.ofNat n :: CaseMap.upper (Char.ofNat n)).all fun d =>
        continuesIdentifier d = true ∧ isNameBlank d = false ∧ d ≠ '{' ∧ d ≠ '.') ∧
      CaseMap.fold (Char.ofNat n) = Char.ofNat n ∧
      (CaseMap.upper (Char.ofNat n)).map CaseMap.fold = [Char.ofNat n] ∧
      isUpper (Char.ofNat n) = false ∧
      (CaseMap.upper (Char.ofNat n)).all fun d => isLower d = false := by decide +kernel
  have mem : c.toNat ∈ List.range' 48 10 ++ List.range' 97 26 := by
    rw [List.mem_append, List.mem_range'_1, List.mem_range'_1]
    rcases h with h | h
    · simp only [isSmallLetter, Bool.and_eq_true, decide_eq_true_eq] at h
      have low : 97 ≤ c.toNat := h.1
      have high : c.toNat ≤ 122 := h.2
      omega
    · simp only [isDigit, Bool.and_eq_true, decide_eq_true_eq] at h
      have low : 48 ≤ c.toNat := h.1
      have high : c.toNat ≤ 57 := h.2
      omega
  have facts := checked c.toNat mem
  rw [Char.ofNat_toNat, List.all_iff_forall_prop, List.all_iff_forall_prop] at facts
  refine ⟨fun d hd => ?_, facts.2⟩
  obtain ⟨continues, visible, noMark⟩ := facts.1 d (List.mem_cons.2 hd)
  exact ⟨continues, visible, noMark⟩

/-- What holds of a text that writes some plain words: up to case and blanks it is these words, a
word stands at both ends, and no capital follows a small letter. -/
structure IsWellSpelled (words : List Text) (t : Text) : Prop where
  collapsed : Text.collapseBlanks false (t.map CaseMap.fold) = Text.joinWith ' ' words
  first : ∃ c, t.head? = some c ∧ IsWordCharacter c
  last : ∃ c, t.getLast? = some c ∧ IsWordCharacter c
  all : ∀ c ∈ t, IsWordCharacter c ∨ c = ' ' ∨ c = '_'
  smooth : t.IsChain fun b c => isLower b = true → isUpper c = false

/-- A plain word as it is or in capitals. -/
theorem IsPlainWord.spelled {w s : Text} (plain : IsPlainWord w)
    (h : s = w ∨ s = w.flatMap CaseMap.upper) :
    s.map CaseMap.fold = w ∧ s ≠ [] ∧ (∀ c ∈ s, IsWordCharacter c) ∧
      s.IsChain fun b c => isLower b = true → isUpper c = false := by
  have filled : w ≠ [] := by
    obtain ⟨c, first, -⟩ := plain.first
    rintro rfl
    cases first
  have letters (c : Char) (hc : c ∈ w) := letter_or_digit (plain.all c hc)
  rcases h with rfl | rfl
  · refine ⟨?_, filled, fun c hc => (letters c hc).1 c (.inl rfl), ?_⟩
    · exact (List.map_congr_left fun c hc => (letters c hc).2.1).trans (List.map_id s)
    · refine List.isChain_iff_forall_rel_of_append_cons_cons.2 fun b c front back split _ => ?_
      exact (letters c (by simp [split])).2.2.2.1
  · refine ⟨?_, ?_, fun d hd => ?_, ?_⟩
    · rw [List.map_flatMap, List.flatMap_congr fun c hc => (letters c hc).2.2.1,
        List.flatMap_singleton']
    · obtain ⟨c, rest, rfl⟩ := List.exists_cons_of_ne_nil filled
      simp [CaseMap.upper_ne_nil]
    · obtain ⟨c, hc, hd⟩ := List.mem_flatMap.1 hd
      exact (letters c hc).1 d (.inr hd)
    · refine List.isChain_iff_forall_rel_of_append_cons_cons.2 fun b c front back split low => ?_
      have mem : b ∈ w.flatMap CaseMap.upper := by simp [split]
      obtain ⟨e, he, hb⟩ := List.mem_flatMap.1 mem
      rw [(letters e he).2.2.2.2 b hb] at low
      cases low

namespace IsWellSpelled

theorem word {w s : Text} (plain : IsPlainWord w) (spelled : s = w ∨ s = w.flatMap CaseMap.upper) :
    IsWellSpelled [w] s := by
  obtain ⟨folded, filled, characters, smooth⟩ := plain.spelled spelled
  have visible : ∀ c ∈ s.map CaseMap.fold, isNameBlank c = false := by
    simpa using fun c hc => (characters c hc).visible
  have whole := Text.collapseBlanks_append_of_visible visible []
  rw [List.append_nil] at whole
  refine ⟨?_, ?_, ?_, fun c hc => .inl (characters c hc), smooth⟩
  · rw [whole, folded]
    exact List.append_nil w
  · exact ⟨_, List.head?_eq_some_head filled, characters _ (List.head_mem filled)⟩
  · exact ⟨_, List.getLast?_eq_some_getLast filled, characters _ (List.getLast_mem filled)⟩

/-- A word and some separators may be written in front. -/
theorem before {w s run t : Text} {ws : List Text} (plain : IsPlainWord w)
    (spelled : s = w ∨ s = w.flatMap CaseMap.upper) (between : run ≠ [])
    (blank : ∀ c ∈ run, c = ' ' ∨ c = '_') (more : ws ≠ []) (behind : IsWellSpelled ws t) :
    IsWellSpelled (w :: ws) (s ++ run ++ t) := by
  obtain ⟨folded, filled, characters, smooth⟩ := plain.spelled spelled
  have gap (c : Char) (hc : c ∈ run) :
      isNameBlank c = true ∧ isLower c = false ∧ isUpper c = false := by
    rcases blank c hc with rfl | rfl <;> decide
  have visible : ∀ c ∈ s.map CaseMap.fold, isNameBlank c = false := by
    simpa using fun c hc => (characters c hc).visible
  obtain ⟨d, starts, word⟩ := behind.first
  obtain ⟨e, ends, word'⟩ := behind.last
  refine ⟨?_, ?_, ?_, ?_, ?_⟩
  · have inner : Text.collapseBlanks true (t.map CaseMap.fold) =
        Text.collapseBlanks false (t.map CaseMap.fold) := by
      refine Text.collapseBlanks_of_head? ?_ true
      rw [List.head?_map, starts]
      rintro _ ⟨⟩
      rw [CharClass.isNameBlank_fold]
      exact word.visible
    rw [List.append_assoc, List.map_append, Text.collapseBlanks_append_of_visible visible,
      List.map_append, Text.collapseBlanks_run_append (mt List.map_eq_nil_iff.1 between)
        (by simpa using fun c hc => (gap c hc).1), inner, behind.collapsed, folded,
      Text.joinWith_cons ' ' w more]
  · refine ⟨_, ?_, characters _ (List.head_mem filled)⟩
    rw [List.append_assoc, List.head?_append, List.head?_eq_some_head filled]
    rfl
  · exact ⟨e, by rw [List.getLast?_append, ends]; rfl, word'⟩
  · intro c hc
    rcases List.mem_append.1 hc with hc | hc
    · rcases List.mem_append.1 hc with hc | hc
      · exact .inl (characters c hc)
      · exact .inr (blank c hc)
    · exact behind.all c hc
  · have inRun : run.IsChain fun b c => isLower b = true → isUpper c = false :=
      List.isChain_iff_forall_rel_of_append_cons_cons.2 fun b c front back split _ =>
        (gap c (by simp [split])).2.2
    refine (smooth.append inRun fun b _ c hc _ => ?_).append behind.smooth fun b hb c _ low => ?_
    · exact (gap c (List.mem_of_head? hc)).2.2
    · rw [List.getLast?_append, List.getLast?_eq_some_getLast between] at hb
      cases hb
      rw [(gap _ (List.getLast_mem between)).2.1] at low
      cases low

end IsWellSpelled

namespace SpellsCall

variable {words : List Text} {t : Text}

theorem ne_nil (h : SpellsCall words t) : words ≠ [] := by
  cases h <;> exact List.cons_ne_nil _ _

/-- Words joined by single spaces are written in one way of many. -/
theorem joinWith_space (filled : words ≠ []) : SpellsCall words (Text.joinWith ' ' words) := by
  induction words with
  | nil => exact absurd rfl filled
  | cons w ws ih =>
    by_cases more : ws = []
    · rw [more]
      exact .word (.inl rfl)
    · have step : SpellsCall (w :: ws) (w ++ [' '] ++ Text.joinWith ' ' ws) :=
        before (.inl rfl) (by simp) (by simp) (ih more)
      rw [List.append_assoc, List.singleton_append] at step
      rw [Text.joinWith_cons ' ' w more]
      exact step

theorem isWellSpelled (h : SpellsCall words t) (plain : ∀ w ∈ words, IsPlainWord w) :
    IsWellSpelled words t := by
  induction h with
  | word spelled => exact .word (plain _ List.mem_cons_self) spelled
  | before spelled between blank rest ih =>
    obtain ⟨first, others⟩ := List.forall_mem_cons.1 plain
    exact .before first spelled between blank rest.ne_nil (ih others)

end SpellsCall

/-- Where no capital follows a small letter, words are cut behind digits only. -/
theorem unbroken_iff {t : Text}
    (smooth : t.IsChain fun b c => isLower b = true → isUpper c = false) :
    Name.Unbroken t ↔ NoCapitalBehindDigit t := by
  rw [List.isChain_iff_forall_rel_of_append_cons_cons] at smooth
  rw [Name.Unbroken, NoCapitalBehindDigit, List.isChain_iff_forall_rel_of_append_cons_cons,
    List.isChain_iff_forall_rel_of_append_cons_cons]
  have boundary (b c : Char) : Name.isBoundary (some b) c = false ↔
      (isLower b = true → isUpper c = false) ∧ (isDigit b = true → isUpper c = false) := by
    rw [Name.isBoundary, Option.any_some]
    cases isUpper c <;> simp
  constructor
  · intro whole b c front back split
    exact ((boundary b c).1 (whole split)).2
  · intro noCapital b c front back split
    exact (boundary b c).2 ⟨smooth split, noCapital split⟩

namespace IsWellSpelled

variable {words : List Text} {t : Text}

theorem isBlank_of_head? (h : IsWellSpelled words t) : ∀ c ∈ t.head?, isNameBlank c = false := by
  obtain ⟨d, starts, word⟩ := h.first
  intro c hc
  rw [starts] at hc
  cases hc
  exact word.visible

theorem isBlank_of_getLast? (h : IsWellSpelled words t) :
    ∀ c ∈ t.getLast?, isNameBlank c = false := by
  obtain ⟨d, ends, word⟩ := h.last
  intro c hc
  rw [ends] at hc
  cases hc
  exact word.visible

theorem trim_eq (h : IsWellSpelled words t) : t.trim = t := by
  have visible {c : Char} (hc : isNameBlank c = false) : CharClass.isBlank c = false :=
    Bool.eq_false_iff.2 fun blank => by simp [CharClass.isNameBlank_of_isBlank blank] at hc
  exact Text.trim_eq_self_iff.2 ⟨fun c hc => visible (h.isBlank_of_head? c hc),
    fun c hc => visible (h.isBlank_of_getLast? c hc)⟩

/-- Neither braces nor dots are written. -/
theorem ne_mark (h : IsWellSpelled words t) {c : Char} (hc : c ∈ Name.ofFunction t) :
    c ≠ '{' ∧ c ≠ '.' := by
  rcases Name.mem_ofFunction hc with rfl | inside
  · decide
  · rcases h.all c inside with word | rfl | rfl
    · exact word.noMark
    · decide
    · decide

/-- Two ways to write the same words are alike. -/
theorem alike {s : Text} (h : IsWellSpelled words s) (h' : IsWellSpelled words t) : s.Alike t :=
  h.collapsed.trans h'.collapsed.symm

/-- A text that writes some words is its own name in words if there is a space in it. Otherwise it
is cut into words of its own, which are these words if no capital stands behind a digit. -/
theorem alike_ofFunction_iff (h : IsWellSpelled words t) :
    (Name.ofFunction t).Alike t ↔ ' ' ∈ t ∨ NoCapitalBehindDigit t := by
  by_cases spaced : ' ' ∈ t
  · have other : ¬ Name.IsIdentifier t.trim := by
      rw [h.trim_eq]
      intro single
      exact absurd (single.2 ' ' spaced) (by decide)
    rw [Name.ofFunction_of_not_isIdentifier other, h.trim_eq]
    exact ⟨fun _ => .inl spaced, fun _ => rfl⟩
  · have single : Name.IsIdentifier t := by
      constructor
      · rintro rfl
        obtain ⟨c, starts, -⟩ := h.first
        cases starts
      · intro c hc
        rcases h.all c hc with word | rfl | rfl
        · exact word.continues
        · exact absurd hc spaced
        · decide
    have noUnderscore {c : Char} (visible : isNameBlank c = false) : c ≠ '_' := by
      rintro rfl
      cases visible
    rw [Name.alike_ofFunction_iff single (fun c hc => noUnderscore (h.isBlank_of_head? c hc))
      (fun c hc => noUnderscore (h.isBlank_of_getLast? c hc)), unbroken_iff h.smooth]
    exact ⟨.inr, fun either => either.resolve_left spaced⟩

end IsWellSpelled

/-- Some plain words joined by single spaces are their own name. -/
theorem ofFunction_joinWith {words : List Text} (filled : words ≠ [])
    (plain : ∀ w ∈ words, IsPlainWord w) :
    Name.ofFunction (Text.joinWith ' ' words) = Text.joinWith ' ' words := by
  have characters : ∀ c ∈ Text.joinWith ' ' words, c ≠ '_' ∧ isUpper c = false := by
    intro c hc
    rcases Text.mem_joinWith hc with rfl | ⟨w, hw, inside⟩
    · decide
    · have letter := letter_or_digit ((plain w hw).all c inside)
      refine ⟨?_, letter.2.2.2.1⟩
      rintro rfl
      exact absurd (letter.1 '_' (.inl rfl)).visible (by decide)
  refine Name.ofFunction_eq_self
    ((SpellsCall.joinWith_space filled).isWellSpelled plain).trim_eq ?_ ?_
  · exact fun underscore => (characters _ underscore).1 rfl
  · exact .of_not_isUpper fun c hc => (characters c hc).2

namespace Keyword

/-- A call that writes the words of a keyword with other capitals and separators reaches it if there
is a space in it, and otherwise if it has no capital behind a digit, where it would be cut. -/
theorem isCalledBy_spelled_iff (qualifier : Option Text) (words : List Text) (takesArguments : Bool)
    (location : Location) (text : Text) (plain : ∀ w ∈ words, IsPlainWord w)
    (spelled : SpellsCall words text) :
    (declare qualifier (Text.joinWith ' ' words) takesArguments location).isCalledBy text ↔
      ' ' ∈ text ∨ NoCapitalBehindDigit text := by
  have declared := (SpellsCall.joinWith_space spelled.ne_nil).isWellSpelled plain
  have written := spelled.isWellSpelled plain
  have own := ofFunction_joinWith spelled.ne_nil plain
  have noBrace : '{' ∉ Text.joinWith ' ' words := fun brace =>
    (declared.ne_mark (own.symm ▸ brace)).1 rfl
  rw [isCalledBy_declare, own, VariableToken.pieces_eq_map_char noBrace,
    VariableToken.literals_map_char]
  -- a qualifier ends in a dot, and no dot is written
  have unqualified : FitsCall qualifier [Text.joinWith ' ' words] (Name.ofFunction text) ↔
      FitsLiterals [Text.joinWith ' ' words] (Name.ofFunction text) := by
    refine ⟨fun h => h.resolve_right ?_, .inl⟩
    rintro ⟨q, -, -, front, rest, split, same, -⟩
    have dot := List.mem_append_left rest (separator_mem_of_qualified same)
    exact (written.ne_mark (split ▸ dot)).2 rfl
  rw [unqualified, FitsLiterals.singleton_iff, ← written.alike_ofFunction_iff]
  have like := declared.alike written
  exact ⟨fun h => h.symm.trans like, fun h => like.trans h.symm⟩

/-- In capitals and joined by an underscore two words are cut into three. -/
theorem isCalledBy_spelled_iff_underscore :
    let words := ["a1b".toList, "c".toList]
    let k := declare none (Text.joinWith ' ' words) false (.document ⟨0⟩ ⟨0, 5⟩)
    (∀ w ∈ words, IsPlainWord w) ∧ SpellsCall words "A1B_C".toList ∧
      SpellsCall words "A1B C".toList ∧ ¬ k.isCalledBy "A1B_C".toList ∧
      k.isCalledBy "A1B C".toList := by
  intro words k
  have plain : ∀ w ∈ words, IsPlainWord w := by
    refine List.forall_mem_cons.2 ⟨⟨⟨'a', by decide⟩, ?_⟩, ?_⟩
    · exact List.all_iff_forall_prop.1 (by decide)
    · exact List.forall_mem_singleton.2 ⟨⟨'c', by decide⟩, List.all_iff_forall_prop.1 (by decide)⟩
  have spelled (d : Char) (blank : d = ' ' ∨ d = '_') :
      SpellsCall words ("A1B".toList ++ [d] ++ "C".toList) :=
    .before (.inr (by decide +kernel)) (by simp) (by simpa using blank)
      (.word (.inr (by decide +kernel)))
  have calls (d : Char) (blank : d = ' ' ∨ d = '_') :=
    isCalledBy_spelled_iff none words false (.document ⟨0⟩ ⟨0, 5⟩) _ plain (spelled d blank)
  have capital : ¬ NoCapitalBehindDigit "A1B_C".toList := by
    rw [NoCapitalBehindDigit]
    decide
  refine ⟨plain, spelled '_' (.inr rfl), spelled ' ' (.inl rfl), ?_, ?_⟩
  · exact mt (calls '_' (.inr rfl)).1 (not_or.2 ⟨by decide, capital⟩)
  · exact (calls ' ' (.inl rfl)).2 (.inl (by decide))

end Keyword

end RobotAnalysis
