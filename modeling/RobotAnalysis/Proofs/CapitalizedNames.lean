import RobotAnalysis.Proofs.FunctionNames
import RobotAnalysis.Proofs.NameEnds

/-!
# Names with capitals

Writing the first letter of every word as a capital leaves a name the same up to case, unless the
uppercase of such a letter is not equal to it up to case, as with `SS` for `ß`. A capitalized name
is not cut into words in another way than the name was.
-/
namespace RobotAnalysis

open CharClass (isBlank isNameBlank continuesIdentifier)

namespace CaseMap

/-- Whether a character has a single character for its uppercase, equal to it up to case. -/
def FoldsAsUpper (c : Char) : Prop := (upper c).map fold = [fold c]

instance (c : Char) : Decidable (FoldsAsUpper c) :=
  inferInstanceAs (Decidable ((upper c).map fold = [fold c]))

variable {c d : Char}

theorem FoldsAsUpper.exists_upper (h : FoldsAsUpper c) : ∃ d, upper c = [d] ∧ fold d = fold c := by
  obtain ⟨d, rest, whole, same, nothing⟩ := List.map_eq_cons_iff.1 h
  rw [List.map_eq_nil_iff.1 nothing] at whole
  exact ⟨d, whole, same⟩

/-- An uppercase is the character itself, or no blank in place of no blank. -/
theorem eq_or_visible_of_mem_upper (h : d ∈ upper c) :
    d = c ∨ isNameBlank d = false ∧ isNameBlank c = false := by
  rcases upper_eq_or_moves c with same | moved
  · rw [same] at h
    exact .inl (List.mem_singleton.1 h)
  · obtain ⟨before, after⟩ := (moved d h).not_covers raisings_avoid_nameBlanks
    have visible {e : Char} (outside : ¬ Run.Covers CharTable.nameBlanks e) :
        isNameBlank e = false :=
      Bool.eq_false_iff.2 fun blank => outside (CharClass.exists_of_isNameBlank blank)
    exact .inr ⟨visible after, visible before⟩

theorem isNameBlank_of_mem_upper (h : d ∈ upper c) : isNameBlank d = isNameBlank c := by
  rcases eq_or_visible_of_mem_upper h with rfl | ⟨after, before⟩
  · rfl
  · rw [after, before]

theorem isBlank_of_mem_upper (h : d ∈ upper c) : isBlank d = isBlank c := by
  have visible {e : Char} (visible : isNameBlank e = false) : isBlank e = false :=
    Bool.eq_false_iff.2 fun blank => by simp [CharClass.isNameBlank_of_isBlank blank] at visible
  rcases eq_or_visible_of_mem_upper h with rfl | ⟨after, before⟩
  · rfl
  · rw [visible after, visible before]

theorem upper_eq_self_of_blank (h : isNameBlank c = true) : upper c = [c] :=
  upper_eq_self raisings_avoid_nameBlanks (.inl (CharClass.exists_of_isNameBlank h))

theorem foldsAsUpper_of_blank (h : isNameBlank c = true) : FoldsAsUpper c := by
  rw [FoldsAsUpper, upper_eq_self_of_blank h]
  rfl

/-- A mark is in an uppercase only where it is the character itself. -/
theorem eq_of_mem_upper (mark : Run.Covers CharTable.asciiMarks d) (h : d ∈ upper c) : c = d := by
  rw [upper_eq_self raisings_avoid_asciiMarks (.inr ⟨d, h, mark⟩)] at h
  exact (List.mem_singleton.1 h).symm

end CaseMap

open CaseMap (FoldsAsUpper)

theorem CharClass.covers_of_isDigit {c : Char} (h : isDigit c = true) :
    Run.Covers CharTable.asciiMarks c := by
  simp only [isDigit, Bool.and_eq_true, decide_eq_true_eq] at h
  have low : 48 ≤ c.toNat := h.1
  have high : c.toNat ≤ 57 := h.2
  exact ⟨⟨0x1, 0x40, 1⟩, List.mem_cons_self, by dsimp only; omega, by dsimp only; omega⟩

namespace Name.capitalize

variable {s t : Text} {c d : Char} {atStart : Bool}

theorem go_cons (atStart : Bool) (c : Char) (t : Text) : go atStart (c :: t) =
    (if atStart && !isBlank c then CaseMap.upper c else [c]) ++ go (isBlank c) t := by
  rw [go]

/-- Behind a text it is known whether a word may begin. -/
theorem go_append_of_getLast? (h : s.getLast? = some c) (atStart : Bool) (t : Text) :
    go atStart (s ++ t) = go atStart s ++ go (isBlank c) t := by
  induction s generalizing atStart with
  | nil => cases h
  | cons d s ih =>
    rw [List.cons_append, go_cons, go_cons, List.append_assoc]
    cases s with
    | nil =>
      cases h
      rfl
    | cons e s =>
      rw [List.getLast?_cons_cons] at h
      rw [ih h]

theorem mem_go (h : d ∈ go atStart t) : ∃ c ∈ t, d = c ∨ d ∈ CaseMap.upper c := by
  induction t generalizing atStart with
  | nil => cases h
  | cons c t ih =>
    rw [go_cons, List.mem_append] at h
    rcases h with here | later
    · refine ⟨c, List.mem_cons_self, ?_⟩
      split at here
      · exact .inr here
      · exact .inl (List.mem_singleton.1 here)
    · obtain ⟨e, he, found⟩ := ih later
      exact ⟨e, List.mem_cons_of_mem _ he, found⟩

/-- Every character is written as it is or in uppercase. -/
theorem mem_go_or (atStart : Bool) (h : c ∈ t) :
    c ∈ go atStart t ∨ ∀ d ∈ CaseMap.upper c, d ∈ go atStart t := by
  induction t generalizing atStart with
  | nil => cases h
  | cons e t ih =>
    rw [go_cons]
    rcases List.mem_cons.1 h with rfl | h
    · split
      · exact .inr fun d hd => List.mem_append_left _ hd
      · exact .inl (List.mem_append_left _ (List.mem_singleton_self _))
    · exact (ih _ h).imp (List.mem_append_right _) fun all d hd =>
        List.mem_append_right _ (all d hd)

theorem notMem_go_of_mark (mark : Run.Covers CharTable.asciiMarks d) (h : d ∉ t) :
    d ∉ go atStart t := by
  intro mem
  obtain ⟨c, hc, same | upper⟩ := mem_go mem
  · exact h (same ▸ hc)
  · exact h (CaseMap.eq_of_mem_upper mark upper ▸ hc)

/-- Inside a word nothing changes. -/
theorem go_eq_self (h : ∀ c ∈ t, isBlank c = false) : go false t = t := by
  induction t with
  | nil => rfl
  | cons c t ih =>
    obtain ⟨first, others⟩ := List.forall_mem_cons.1 h
    rw [go_cons, Bool.false_and, if_neg Bool.false_ne_true, first, ih others]
    rfl

/-- What is written for a character. -/
theorem written_ne_nil (upper : Bool) (c : Char) :
    (if upper then CaseMap.upper c else [c]) ≠ [] := by
  split
  · exact CaseMap.upper_ne_nil c
  · exact List.cons_ne_nil _ _

theorem isBlank_of_mem_written {upper : Bool}
    (h : d ∈ if upper then CaseMap.upper c else [c]) : isBlank d = isBlank c := by
  split at h
  · exact CaseMap.isBlank_of_mem_upper h
  · rw [List.mem_singleton.1 h]

theorem go_eq_nil_iff : go atStart t = [] ↔ t = [] := by
  cases t with
  | nil => exact ⟨fun _ => rfl, fun _ => rfl⟩
  | cons c t =>
    refine iff_of_false (fun none => ?_) (List.cons_ne_nil _ _)
    rw [go_cons] at none
    exact written_ne_nil _ c (List.append_eq_nil_iff.1 none).1

theorem isBlank_head?_go (h : ∀ c ∈ t.head?, isBlank c = false) :
    ∀ d ∈ (go atStart t).head?, isBlank d = false := by
  cases t with
  | nil => nofun
  | cons c t =>
    intro d hd
    rw [go_cons, List.head?_append_of_ne_nil _ (written_ne_nil _ c)] at hd
    rw [isBlank_of_mem_written (List.mem_of_head? hd)]
    exact h c rfl

theorem isBlank_getLast?_go (h : ∀ c ∈ t.getLast?, isBlank c = false) :
    ∀ d ∈ (go atStart t).getLast?, isBlank d = false := by
  induction t generalizing atStart with
  | nil => nofun
  | cons c t ih =>
    intro d hd
    rw [go_cons] at hd
    cases t with
    | nil =>
      rw [go, List.append_nil] at hd
      rw [isBlank_of_mem_written (List.mem_of_getLast? hd)]
      exact h c rfl
    | cons e t =>
      rw [List.getLast?_append_of_ne_nil _ (mt go_eq_nil_iff.1 (List.cons_ne_nil _ _))] at hd
      rw [List.getLast?_cons_cons] at h
      exact ih h d hd

/-- A trimmed text is so with capitals. -/
theorem trim_eq_self (trimmed : t.trim = t) : (capitalize t).trim = capitalize t := by
  obtain ⟨first, last⟩ := Text.trim_eq_self_iff.1 trimmed
  exact Text.trim_eq_self_iff.2 ⟨isBlank_head?_go first, isBlank_getLast?_go last⟩

end Name.capitalize

namespace VariableToken

/-- The characters outside of variables at which the words of some pieces begin; `atStart` says
whether the first piece may begin one. -/
def initials (atStart : Bool) : List Piece → List Char
  | [] => []
  | .char c :: ps => (if atStart && !isBlank c then [c] else []) ++ initials (isBlank c) ps
  | .token _ :: ps => initials false ps

/-- A capitalized text fits the pieces of the text. -/
theorem fits_go {ps : List Piece} {atStart : Bool}
    (tokens : ∀ v, .token v ∈ ps → IsToken v ∧ '\n' ∉ v)
    (regular : ∀ c ∈ initials atStart ps, FoldsAsUpper c) :
    FitsLiterals (literals ps) (Name.capitalize.go atStart (ps.flatMap Piece.text)) := by
  induction ps generalizing atStart with
  | nil => exact .last rfl
  | cons p ps ih =>
    have others : ∀ v, .token v ∈ ps → IsToken v ∧ '\n' ∉ v :=
      fun v hv => tokens v (List.mem_cons_of_mem _ hv)
    cases p with
    | char c =>
      rw [initials] at regular
      have behind := ih others fun d hd => regular d (List.mem_append_right _ hd)
      rw [literals, List.flatMap_cons, Piece.text, List.singleton_append, Name.capitalize.go_cons]
      split
      · rename_i starts
        rw [if_pos starts] at regular
        obtain ⟨d, upper, same⟩ :=
          (regular c (List.mem_append_left _ (List.mem_singleton_self c))).exists_upper
        rw [upper]
        exact behind.cons same.symm
      · exact behind.cons rfl
    | token v =>
      obtain ⟨token, oneLine⟩ := tokens v List.mem_cons_self
      have last : v.getLast? = some '}' := by
        obtain ⟨c, name, -, rfl⟩ := token
        rw [← List.cons_append, ← List.cons_append, List.getLast?_concat]
      have blank : isBlank '}' = false := by decide
      rw [literals, List.flatMap_cons, Piece.text, Name.capitalize.go_append_of_getLast? last,
        blank]
      have clear : '\n' ∉ Name.capitalize.go atStart v :=
        Name.capitalize.notMem_go_of_mark (by decide) oneLine
      exact FitsLiterals.gap (rfl : Text.Alike [] []) clear (ih others regular)

end VariableToken

namespace Name

variable {t : Text}

/-- Capitals make no identifier of a text that is none. -/
theorem isIdentifier_of_capitalize (h : IsIdentifier (capitalize t)) : IsIdentifier t := by
  obtain ⟨filled, all⟩ := h
  refine ⟨mt capitalize.go_eq_nil_iff.2 filled, fun c hc => ?_⟩
  by_contra outside
  rw [Bool.not_eq_true] at outside
  rcases capitalize.mem_go_or true hc with same | upper
  · rw [all c same] at outside
    cases outside
  · obtain ⟨d, hd⟩ := List.exists_mem_of_ne_nil _ (CaseMap.upper_ne_nil c)
    have stays := CaseMap.continuesIdentifier_of_mem_upper outside hd
    rw [all d (upper d hd)] at stays
    cases stays

/-- A word is not cut behind its first letter in uppercase, which is neither small nor a digit. -/
theorem unbroken_cons_of_upper {c d : Char} (upper : CaseMap.upper c = [d])
    (whole : Unbroken (c :: t)) : Unbroken (d :: t) := by
  by_cases same : d = c
  · rwa [same]
  cases t with
  | nil => exact List.isChain_singleton d
  | cons e t =>
    obtain ⟨-, behind⟩ := List.isChain_cons_cons.1 whole
    refine List.isChain_cons_cons.2 ⟨?_, behind⟩
    have letter : CharClass.isDigit d = false := by
      by_contra digit
      have mark := CharClass.covers_of_isDigit (by simpa using digit)
      exact same (CaseMap.eq_of_mem_upper mark (upper ▸ List.mem_singleton_self d)).symm
    rw [isBoundary, Option.any_some, CaseMap.isLower_of_upper upper same, letter, Bool.or_self,
      Bool.and_false]

/-- A capitalized name is its own name in words, if the letter of a single word is equal to its
uppercase up to case. -/
theorem ofFunction_capitalize (t : Text)
    (regular : IsIdentifier (ofFunction t) → ∀ c ∈ (ofFunction t).head?, FoldsAsUpper c) :
    ofFunction (capitalize (ofFunction t)) = capitalize (ofFunction t) := by
  have settled := settled_ofFunction t
  have trimmed := trim_ofFunction t
  generalize ofFunction t = name at settled trimmed regular ⊢
  have trimmed' := capitalize.trim_eq_self trimmed
  by_cases single : IsIdentifier name
  · obtain ⟨noUnderscore, whole⟩ := settled.resolve_left (not_not_intro single)
    obtain ⟨c, rest, rfl⟩ := List.exists_cons_of_ne_nil single.1
    obtain ⟨d, upper, -⟩ := (regular single c rfl).exists_upper
    have visible : ∀ e ∈ c :: rest, CharClass.isBlank e = false := fun e he =>
      isBlank_of_continuesIdentifier (single.2 e he)
    obtain ⟨first, others⟩ := List.forall_mem_cons.1 visible
    have written : capitalize (c :: rest) = d :: rest := by
      rw [capitalize, capitalize.go_cons, first, capitalize.go_eq_self others, upper]
      rfl
    refine ofFunction_eq_self trimmed' (capitalize.notMem_go_of_mark (by decide) noUnderscore) ?_
    rw [written]
    exact unbroken_cons_of_upper upper whole
  · have other : ¬ IsIdentifier (capitalize name) := mt isIdentifier_of_capitalize single
    rw [ofFunction_of_not_isIdentifier (by rwa [trimmed']), trimmed']

section Converse

variable {c : Char} {atStart : Bool}

theorem bare_upper (visible : isNameBlank c = false) :
    Text.bare (CaseMap.upper c) = (CaseMap.upper c).map CaseMap.fold := by
  rw [Text.bare, List.filter_eq_self.2 fun d hd => ?_]
  rw [CaseMap.isNameBlank_of_mem_upper hd, visible]
  rfl

/-- For a character no fewer ones that are no blanks are written. -/
theorem length_bare_le_written (upper : Bool) (c : Char) : (Text.bare [c]).length ≤
    (Text.bare (if upper then CaseMap.upper c else [c])).length := by
  split
  · cases blank : isNameBlank c with
    | true => rw [CaseMap.upper_eq_self_of_blank blank]
    | false =>
      rw [bare_upper blank, Text.bare_cons_of_not_blank blank, List.length_map]
      exact List.length_pos_iff.2 (CaseMap.upper_ne_nil c)
  · exact Nat.le_refl _

theorem length_bare_le_go (atStart : Bool) (t : Text) :
    (Text.bare t).length ≤ (Text.bare (capitalize.go atStart t)).length := by
  induction t generalizing atStart with
  | nil => exact Nat.le_refl _
  | cons c t ih =>
    have here := length_bare_le_written (atStart && !isBlank c) c
    have behind := ih (isBlank c)
    rw [capitalize.go_cons, Text.bare_append, Text.bare_cons c t, List.length_append,
      List.length_append]
    omega

/-- Where capitals leave a name the same up to case and blanks, the words begin with letters that
are equal to their uppercase up to case. -/
theorem foldsAsUpper_of_bare_eq (same : Text.bare (capitalize.go atStart t) = Text.bare t) :
    ∀ c ∈ VariableToken.initials atStart (t.map .char), FoldsAsUpper c := by
  induction t generalizing atStart with
  | nil => nofun
  | cons c t ih =>
    have here := length_bare_le_written (atStart && !isBlank c) c
    have behind := length_bare_le_go (isBlank c) t
    rw [capitalize.go_cons, Text.bare_append, Text.bare_cons c t] at same
    have long := congrArg List.length same
    rw [List.length_append, List.length_append] at long
    obtain ⟨first, rest⟩ := List.append_inj same (by omega)
    rw [List.map_cons, VariableToken.initials]
    refine List.forall_mem_append.2 ⟨fun d hd => ?_, ih rest⟩
    split at hd
    · rename_i starts
      rw [List.mem_singleton.1 hd]
      cases blank : isNameBlank c with
      | true => exact CaseMap.foldsAsUpper_of_blank blank
      | false =>
        rw [if_pos starts, bare_upper blank, Text.bare_cons_of_not_blank blank] at first
        exact first
    · cases hd

theorem mem_bare_iff_of_mark {d : Char} (mark : Run.Covers CharTable.asciiMarks d)
    (visible : isNameBlank d = false) : d ∈ Text.bare t ↔ d ∈ t := by
  rw [Text.bare, List.mem_map]
  constructor
  · rintro ⟨c, hc, folded⟩
    rw [← (CaseMap.fold_eq_iff_of_mark mark).1 folded]
    exact List.mem_of_mem_filter hc
  · intro inside
    refine ⟨d, List.mem_filter.2 ⟨inside, by simp [visible]⟩, ?_⟩
    exact (CaseMap.fold_eq_iff_of_mark mark).2 rfl

/-- Capitals neither make dots nor take them away. -/
theorem count_bare_go (atStart : Bool) (t : Text) :
    (Text.bare (capitalize.go atStart t)).count '.' = (Text.bare t).count '.' := by
  have written (upper : Bool) (c : Char) :
      (Text.bare (if upper then CaseMap.upper c else [c])).count '.' =
        (Text.bare [c]).count '.' := by
    have mark : Run.Covers CharTable.asciiMarks '.' := by decide
    split
    · by_cases dot : c = '.'
      · have alone : CaseMap.upper '.' = ['.'] := by decide
        rw [dot, alone]
      · have none (u : Text) (h : '.' ∉ u) : (Text.bare u).count '.' = 0 :=
          List.count_eq_zero.2 (mt (mem_bare_iff_of_mark mark (by decide)).1 h)
        rw [none _ (mt (CaseMap.eq_of_mem_upper mark) dot),
          none _ (mt List.mem_singleton.1 (Ne.symm dot))]
    · rfl
  induction t generalizing atStart with
  | nil => rfl
  | cons c t ih =>
    rw [capitalize.go_cons, Text.bare_append, Text.bare_cons c t, List.count_append,
      List.count_append, written, ih]

end Converse

end Name

end RobotAnalysis
