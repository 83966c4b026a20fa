import Mathlib.Data.List.Chain
import RobotAnalysis.Proofs.BareNames

/-!
# The words of a function name

An identifier is cut into words at its underscores and where a capital follows a small letter or a
digit. Without such a capital its words are those that its underscores separate, and with one there
are more of them. Either way no character but underscores is lost.
-/
namespace RobotAnalysis

open CharClass (isBlank isNameBlank continuesIdentifier)

namespace Name

open Text (collapseBlanks bare)

/-- Whether nowhere in a text a capital follows a small letter or a digit. -/
def Unbroken (t : Text) : Prop := t.IsChain fun b c => isBoundary (some b) c = false

variable {t : Text} {room : Bool} {before : Option Char} {c d : Char}

theorem isBoundary_none (c : Char) : isBoundary none c = false := by
  rw [isBoundary, Option.any_none, Bool.and_false]

theorem isBoundary_underscore (c : Char) : isBoundary (some '_') c = false := by
  have neither : (CharClass.isLower '_' || CharClass.isDigit '_') = false := by decide
  rw [isBoundary, Option.any_some, neither, Bool.and_false]

theorem unbroken_append_cons_iff : Unbroken (before.toList ++ c :: t) ↔
    isBoundary before c = false ∧ Unbroken (c :: t) := by
  cases before <;> simp [Unbroken, isBoundary]

/-- Besides the words nothing but blanks between them is written. -/
theorem filter_splitIdentifier (room : Bool) (before : Option Char) (t : Text) :
    (splitIdentifier room before t).filter (fun c => !isNameBlank c) =
      t.filter fun c => !isNameBlank c := by
  have space : isNameBlank ' ' = true := by decide
  induction t generalizing room before with
  | nil => rfl
  | cons c t ih =>
    rw [splitIdentifier]
    split
    · rename_i underscore
      have blank : isNameBlank c = true := underscore ▸ by decide
      split <;> simp [blank, space, ih]
    · split <;> simp [space, ih, List.filter_cons]

section Underscores

/-- The words that underscores separate are words of the identifier, or make them up. -/
theorem collapseBlanks_sublist_splitIdentifier (blanks : ∀ c ∈ t, isNameBlank c = true → c = '_')
    (room : Bool) (before : Option Char) :
    (collapseBlanks (!room) t).Sublist (splitIdentifier room before t) := by
  induction t generalizing room before with
  | nil => exact List.Sublist.refl _
  | cons c t ih =>
    obtain ⟨first, others⟩ := List.forall_mem_cons.1 blanks
    rw [splitIdentifier]
    split
    · rename_i underscore
      rw [underscore, Text.collapseBlanks_cons_of_blank (by decide)]
      cases room with
      | true => exact (ih others false _).cons_cons ' '
      | false => exact ih others false _
    · rename_i other
      rw [Text.collapseBlanks_cons_of_not_blank (by simpa using mt first other)]
      split
      · exact ((ih others true _).cons_cons c).cons ' '
      · exact (ih others true _).cons_cons c

/-- An identifier has exactly the words that underscores separate when no capital in it follows a
small letter or a digit. -/
theorem splitIdentifier_eq_iff (blanks : ∀ c ∈ t, isNameBlank c = true → c = '_')
    (tight : room = false → ∀ c, isBoundary before c = false) :
    splitIdentifier room before t = collapseBlanks (!room) t ↔
      Unbroken (before.toList ++ t) := by
  induction t generalizing room before with
  | nil => cases before <;> simp [Unbroken, splitIdentifier, collapseBlanks]
  | cons c t ih =>
    obtain ⟨first, others⟩ := List.forall_mem_cons.1 blanks
    have after (room : Bool) (tight : room = false → ∀ d, isBoundary (some c) d = false) :
        splitIdentifier room (some c) t = collapseBlanks (!room) t ↔ Unbroken (c :: t) :=
      ih others tight
    rw [unbroken_append_cons_iff, splitIdentifier]
    split
    · rename_i underscore
      have low : CharClass.isUpper '_' = false := by decide
      have begins : isBoundary before c = false := by
        rw [underscore, isBoundary, low, Bool.false_and]
      have rest := after false fun _ d => underscore ▸ isBoundary_underscore d
      have blank : isNameBlank c = true := underscore ▸ by decide
      rw [Text.collapseBlanks_cons_of_blank blank]
      cases room <;> simpa [begins] using rest
    · rename_i other
      have visible : isNameBlank c = false := by simpa using mt first other
      have rest := after true (by simp)
      rw [Text.collapseBlanks_cons_of_not_blank visible]
      split
      · rename_i breaks
        obtain ⟨boundary, -⟩ := Bool.and_eq_true_iff.1 breaks
        refine ⟨fun same => ?_, fun h => absurd h.1 (by simp [boundary])⟩
        rw [← (List.cons.inj same).1] at visible
        exact absurd visible (by decide)
      · rename_i noBreak
        have begins : isBoundary before c = false := by
          cases room with
          | true => simpa using noBreak
          | false => exact tight rfl c
        simpa [begins] using rest

/-- The words of an identifier are separated by single spaces. -/
theorem collapseBlanks_splitIdentifier (blanks : ∀ c ∈ t, isNameBlank c = true → c = '_')
    (room : Bool) (before : Option Char) :
    collapseBlanks (!room) (splitIdentifier room before t) = splitIdentifier room before t := by
  induction t generalizing room before with
  | nil => rfl
  | cons c t ih =>
    obtain ⟨first, others⟩ := List.forall_mem_cons.1 blanks
    have space : isNameBlank ' ' = true := by decide
    rw [splitIdentifier]
    split
    · cases room with
      | true =>
        rw [if_pos rfl, Text.collapseBlanks_cons_of_blank space]
        exact congrArg (' ' :: ·) (ih others false _)
      | false => exact ih others false _
    · rename_i other
      have visible : isNameBlank c = false := by simpa using mt first other
      split
      · rename_i breaks
        obtain ⟨-, rfl⟩ := Bool.and_eq_true_iff.1 breaks
        rw [Text.collapseBlanks_cons_of_blank space,
          Text.collapseBlanks_cons_of_not_blank visible]
        exact congrArg (' ' :: c :: ·) (ih others true _)
      · rw [Text.collapseBlanks_cons_of_not_blank visible]
        exact congrArg _ (ih others true _)

theorem getLast?_splitIdentifier (h : t.getLast? = some c) (other : c ≠ '_') (room : Bool)
    (before : Option Char) : (splitIdentifier room before t).getLast? = some c := by
  induction t generalizing room before with
  | nil => cases h
  | cons d t ih =>
    cases t with
    | nil =>
      have same : d = c := by simpa using h
      rw [same, splitIdentifier, if_neg other]
      split <;> rfl
    | cons e t =>
      rw [List.getLast?_cons_cons] at h
      have later := ih h
      rw [splitIdentifier]
      split
      · split
        · rw [List.getLast?_cons, later]
          rfl
        · exact later _ _
      · split <;> simp [List.getLast?_cons, later]

end Underscores

/-- Whether a text is a single identifier. -/
def IsIdentifier (t : Text) : Prop := t ≠ [] ∧ ∀ c ∈ t, continuesIdentifier c = true

theorem ofFunction_of_not_isIdentifier (h : ¬ IsIdentifier t.trim) : ofFunction t = t.trim := by
  have other : (t.trim.isEmpty || !t.trim.all continuesIdentifier) = true := by
    by_contra single
    rw [Bool.or_eq_true, not_or] at single
    exact h ⟨by simpa using single.1, by simpa using single.2⟩
  rw [ofFunction]
  exact if_pos other

theorem ofFunction_of_isIdentifier (h : IsIdentifier t.trim) :
    ofFunction t = Text.trimEnd (splitIdentifier false none t.trim) := by
  have single : ¬ (t.trim.isEmpty || !t.trim.all continuesIdentifier) = true := by
    rw [Bool.or_eq_true, not_or]
    exact ⟨by simpa using h.1, by simpa using h.2⟩
  rw [ofFunction]
  exact if_neg single

theorem IsIdentifier.blanks (h : IsIdentifier t) : ∀ c ∈ t, isNameBlank c = true → c = '_' := by
  intro c hc blank
  rw [CharClass.isNameBlank, isBlank_of_continuesIdentifier (h.2 c hc), Bool.false_or] at blank
  simpa using blank

theorem IsIdentifier.trim_eq (h : IsIdentifier t) : t.trim = t := by
  refine Text.trim_eq_self_iff.2 ⟨fun c hc => ?_, fun c hc => ?_⟩
  · exact isBlank_of_continuesIdentifier (h.2 c (List.mem_of_head? hc))
  · exact isBlank_of_continuesIdentifier (h.2 c (List.mem_of_getLast? hc))

theorem filter_trimEnd (t : Text) :
    t.trimEnd.filter (fun c => !isNameBlank c) = t.filter fun c => !isNameBlank c := by
  obtain ⟨dropped, whole, blank⟩ := Sequence.exists_dropTrailing_append isBlank t
  have nothing : dropped.filter (fun c => !isNameBlank c) = [] :=
    List.filter_eq_nil_iff.2 fun c hc => by simp [CharClass.isNameBlank_of_isBlank (blank c hc)]
  conv => rhs; rw [whole, List.filter_append, nothing, List.append_nil]
  rfl

theorem filter_trim (t : Text) :
    t.trim.filter (fun c => !isNameBlank c) = t.filter fun c => !isNameBlank c := by
  have nothing : (t.takeWhile isBlank).filter (fun c => !isNameBlank c) = [] :=
    List.filter_eq_nil_iff.2 fun c hc => by
      simp [CharClass.isNameBlank_of_isBlank (List.mem_takeWhile_imp hc)]
  rw [Text.trim, filter_trimEnd, Text.trimStart]
  conv => rhs; rw [← List.takeWhile_append_dropWhile (p := isBlank) (l := t), List.filter_append,
    nothing, List.nil_append]

/-- No character but blanks and underscores is lost or invented. -/
theorem filter_ofFunction (t : Text) :
    (ofFunction t).filter (fun c => !isNameBlank c) = t.filter fun c => !isNameBlank c := by
  by_cases single : IsIdentifier t.trim
  · rw [ofFunction_of_isIdentifier single, filter_trimEnd, filter_splitIdentifier, filter_trim]
  · rw [ofFunction_of_not_isIdentifier single, filter_trim]

theorem bare_ofFunction (t : Text) : bare (ofFunction t) = bare t :=
  congrArg (List.map CaseMap.fold) (filter_ofFunction t)

theorem Unbroken.of_not_isUpper (h : ∀ c ∈ t, CharClass.isUpper c = false) : Unbroken t := by
  refine List.isChain_iff_forall_rel_of_append_cons_cons.2 fun b c front back split => ?_
  rw [isBoundary, h c (by simp [split]), Bool.false_and]

/-- The words of an identifier that ends with no underscore. -/
theorem ofFunction_eq_splitIdentifier (single : IsIdentifier t)
    (last : ∀ c ∈ t.getLast?, c ≠ '_') : ofFunction t = splitIdentifier false none t := by
  rw [ofFunction_of_isIdentifier (by rwa [single.trim_eq]), single.trim_eq]
  refine Sequence.dropTrailing_eq_self fun c hc => ?_
  obtain ⟨d, ends⟩ : ∃ d, t.getLast? = some d := ⟨_, List.getLast?_eq_some_getLast single.1⟩
  rw [getLast?_splitIdentifier ends (last d ends)] at hc
  cases hc
  exact isBlank_of_continuesIdentifier (single.2 _ (List.mem_of_getLast? ends))

/-- The words of an identifier that neither begins nor ends with an underscore are like it when no
capital in it follows a small letter or a digit, and only then. -/
theorem alike_ofFunction_iff (single : IsIdentifier t) (first : ∀ c ∈ t.head?, c ≠ '_')
    (last : ∀ c ∈ t.getLast?, c ≠ '_') : (ofFunction t).Alike t ↔ Unbroken t := by
  rw [ofFunction_eq_splitIdentifier single last, Text.alike_iff]
  obtain ⟨c, rest, rfl⟩ := List.exists_cons_of_ne_nil single.1
  have other : c ≠ '_' := first c rfl
  have visible : isNameBlank c = false :=
    Bool.eq_false_iff.2 fun blank => other (single.blanks c List.mem_cons_self blank)
  have begins :
      splitIdentifier false none (c :: rest) = c :: splitIdentifier true (some c) rest := by
    rw [splitIdentifier, if_neg other, Bool.and_false, if_neg Bool.false_ne_true]
  have words : collapseBlanks false (splitIdentifier false none (c :: rest)) =
      splitIdentifier false none (c :: rest) := by
    rw [← Text.collapseBlanks_of_head? (by rw [begins]; rintro _ ⟨⟩; exact visible) true]
    exact collapseBlanks_splitIdentifier single.blanks false none
  have whole : collapseBlanks false (c :: rest) = collapseBlanks (!false) (c :: rest) :=
    (Text.collapseBlanks_of_head? (by rintro _ ⟨⟩; exact visible) true).symm
  have fewer := collapseBlanks_sublist_splitIdentifier single.blanks false none
  rw [words, whole]
  refine Iff.trans ⟨fun same => ?_, congrArg _⟩
    (splitIdentifier_eq_iff single.blanks fun _ => isBoundary_none)
  have long := congrArg List.length same
  rw [List.length_map, List.length_map] at long
  exact (fewer.eq_of_length long.symm).symm

/-- A trimmed text is its own name in words where no underscore stands in it and no capital follows
a small letter or a digit. -/
theorem ofFunction_eq_self (trimmed : t.trim = t) (noUnderscore : '_' ∉ t) (whole : Unbroken t) :
    ofFunction t = t := by
  by_cases single : IsIdentifier t
  · have last : ∀ c ∈ t.getLast?, c ≠ '_' := fun c hc underscore =>
      noUnderscore (underscore ▸ List.mem_of_getLast? hc)
    have visible : ∀ c ∈ t, isNameBlank c = false := fun c hc =>
      Bool.eq_false_iff.2 fun blank => noUnderscore (single.blanks c hc blank ▸ hc)
    have plain := Text.collapseBlanks_append_of_visible visible []
    rw [List.append_nil] at plain
    rw [ofFunction_eq_splitIdentifier single last,
      (splitIdentifier_eq_iff single.blanks fun _ => isBoundary_none).2 whole, Bool.not_false,
      Text.collapseBlanks_of_head? (fun c hc => visible c (List.mem_of_head? hc)), plain]
    exact List.append_nil t
  · rw [ofFunction_of_not_isIdentifier (by rwa [trimmed]), trimmed]

section Settled

theorem notMem_splitIdentifier (room : Bool) (before : Option Char) (t : Text) :
    '_' ∉ splitIdentifier room before t := by
  have space : '_' ≠ ' ' := by decide
  induction t generalizing room before with
  | nil => exact List.not_mem_nil
  | cons c t ih =>
    rw [splitIdentifier]
    split
    · split
      · exact List.not_mem_cons_of_ne_of_not_mem space (ih _ _)
      · exact ih _ _
    · rename_i other
      have here := List.not_mem_cons_of_ne_of_not_mem (Ne.symm other) (ih true (some c))
      split
      · exact List.not_mem_cons_of_ne_of_not_mem space here
      · exact here

theorem isBoundary_space (c : Char) : isBoundary (some ' ') c = false := by
  have neither : (CharClass.isLower ' ' || CharClass.isDigit ' ') = false := by decide
  rw [isBoundary, Option.any_some, neither, Bool.and_false]

/-- The words of an identifier are not cut further. -/
theorem unbroken_splitIdentifier {written : Option Char} (known : room = true → written = before)
    (blank : room = false → ∀ c, isBoundary written c = false) (t : Text) :
    Unbroken (written.toList ++ splitIdentifier room before t) := by
  have space (written : Option Char) : isBoundary written ' ' = false := by
    have low : CharClass.isUpper ' ' = false := by decide
    rw [isBoundary, low, Bool.false_and]
  induction t generalizing room before written with
  | nil => cases written <;> simp [Unbroken, splitIdentifier]
  | cons c t ih =>
    have later : Unbroken ((some c).toList ++ splitIdentifier true (some c) t) :=
      ih (fun _ => rfl) (by simp)
    rw [splitIdentifier]
    split
    · cases room with
      | true =>
        have behind : Unbroken ((some ' ').toList ++ splitIdentifier false (some c) t) :=
          ih (by simp) fun _ => isBoundary_space
        exact unbroken_append_cons_iff.2 ⟨space written, behind⟩
      | false => exact ih (by simp) blank
    · split
      · have behind : Unbroken ((some ' ').toList ++ c :: splitIdentifier true (some c) t) :=
          unbroken_append_cons_iff.2 ⟨isBoundary_space c, later⟩
        exact unbroken_append_cons_iff.2 ⟨space written, behind⟩
      · rename_i noBreak
        refine unbroken_append_cons_iff.2 ⟨?_, later⟩
        cases room with
        | true =>
          rw [known rfl]
          simpa using noBreak
        | false => exact blank rfl c

/-- The words of an identifier hold no underscore and are not cut further. -/
theorem unbroken_ofFunction (single : IsIdentifier t.trim) :
    '_' ∉ ofFunction t ∧ Unbroken (ofFunction t) := by
  have parted := Sequence.dropTrailing_isPrefix isBlank (splitIdentifier false none t.trim)
  rw [ofFunction_of_isIdentifier single]
  refine ⟨fun underscore => ?_, ?_⟩
  · exact notMem_splitIdentifier _ _ _ (parted.subset underscore)
  · have whole : Unbroken (none.toList ++ splitIdentifier false none t.trim) :=
      unbroken_splitIdentifier (by simp) (fun _ => isBoundary_none) _
    exact whole.prefix parted

/-- A name in words is either no identifier, or one that is a single word. -/
theorem settled_ofFunction (t : Text) : ¬ IsIdentifier (ofFunction t) ∨
    '_' ∉ ofFunction t ∧ Unbroken (ofFunction t) := by
  by_cases single : IsIdentifier t.trim
  · exact .inr (unbroken_ofFunction single)
  · rw [ofFunction_of_not_isIdentifier single]
    exact .inl single

/-- Turning a name into words once is enough. -/
theorem ofFunction_ofFunction (t : Text) : ofFunction (ofFunction t) = ofFunction t := by
  rcases settled_ofFunction t with other | ⟨noUnderscore, whole⟩
  · rw [ofFunction_of_not_isIdentifier (by rwa [trim_ofFunction]), trim_ofFunction]
  · exact ofFunction_eq_self (trim_ofFunction t) noUnderscore whole

end Settled

end Name

end RobotAnalysis
