import RobotAnalysis.Proofs.CaseMoves

/-!
# Names without their blanks

What is left of a name when its blanks are taken out and its case is folded. Texts that are equal up
to case and the extent of their blanks have the same bare form, and the words of a function name
have that of the function name.
-/
namespace RobotAnalysis

open CharClass (isBlank isNameBlank continuesIdentifier)

namespace Text

/-- The characters of a text that are no blanks of a name, up to case. -/
def bare (t : Text) : Text := (t.filter fun c => !isNameBlank c).map CaseMap.fold

variable {s t a b : Text} {c d : Char}

@[simp] theorem bare_append (s t : Text) : bare (s ++ t) = bare s ++ bare t := by
  simp [bare]

theorem bare_cons (c : Char) (t : Text) : bare (c :: t) = bare [c] ++ bare t := bare_append [c] t

theorem bare_cons_of_blank (h : isNameBlank c = true) : bare (c :: t) = bare t := by
  simp [bare, h]

theorem bare_cons_of_not_blank (h : isNameBlank c = false) :
    bare (c :: t) = CaseMap.fold c :: bare t := by
  simp [bare, h]

theorem bare_eq_nil_iff : bare t = [] ↔ ∀ c ∈ t, isNameBlank c = true := by
  simp [bare]

/-- Where the bare form of a text falls in two, the text does. -/
theorem exists_of_bare_eq_append (h : bare t = a ++ b) :
    ∃ s u, t = s ++ u ∧ bare s = a ∧ bare u = b := by
  obtain ⟨front, back, split, hfront, hback⟩ := List.map_eq_append_iff.1 h
  obtain ⟨s, u, rfl, hs, hu⟩ := List.filter_eq_append_iff.1 split
  exact ⟨s, u, rfl, by rw [bare, hs, hfront], by rw [bare, hu, hback]⟩

/-- The first character of a bare form stands behind blanks only. -/
theorem exists_of_bare_eq_cons (h : bare t = d :: b) :
    ∃ run c u, t = run ++ c :: u ∧ (∀ e ∈ run, isNameBlank e = true) ∧ isNameBlank c = false ∧
      CaseMap.fold c = d ∧ bare u = b := by
  obtain ⟨c, rest, split, folded, hrest⟩ := List.map_eq_cons_iff.1 h
  obtain ⟨run, u, rfl, blank, visible, hu⟩ := List.filter_eq_cons_iff.1 split
  exact ⟨run, c, u, rfl, by simpa using blank, by simpa using visible, folded,
    by rw [bare, hu, hrest]⟩

@[simp] theorem fold_space : CaseMap.fold ' ' = ' ' := by decide

/-- Runs of blanks are found alike in every case. -/
theorem collapseBlanks_map_fold (inBlanks : Bool) (t : Text) :
    collapseBlanks inBlanks (t.map CaseMap.fold) =
      (collapseBlanks inBlanks t).map CaseMap.fold := by
  induction t generalizing inBlanks with
  | nil => rfl
  | cons c t ih =>
    rw [List.map_cons, collapseBlanks, collapseBlanks, CharClass.isNameBlank_fold]
    split
    · split <;> simp [ih]
    · simp [ih]

theorem alike_iff : s.Alike t ↔
    (collapseBlanks false s).map CaseMap.fold = (collapseBlanks false t).map CaseMap.fold := by
  rw [Alike, collapseBlanks_map_fold, collapseBlanks_map_fold]

/-- Characters that are no blanks stay in front of what follows. -/
theorem collapseBlanks_append_of_visible (visible : ∀ c ∈ s, isNameBlank c = false) (t : Text) :
    collapseBlanks false (s ++ t) = s ++ collapseBlanks false t := by
  induction s with
  | nil => rfl
  | cons c s ih =>
    obtain ⟨first, rest⟩ := List.forall_mem_cons.1 visible
    rw [List.cons_append, collapseBlanks_cons_of_not_blank first, ih rest, List.cons_append]

/-- Where no blank comes first it does not matter whether a run is open. -/
theorem collapseBlanks_of_head? (first : ∀ c ∈ t.head?, isNameBlank c = false) (inBlanks : Bool) :
    collapseBlanks inBlanks t = collapseBlanks false t := by
  cases t with
  | nil => rfl
  | cons c t =>
    rw [collapseBlanks_cons_of_not_blank (first c rfl),
      collapseBlanks_cons_of_not_blank (first c rfl)]

theorem filter_collapseBlanks (inBlanks : Bool) (t : Text) :
    (collapseBlanks inBlanks t).filter (fun c => !isNameBlank c) =
      t.filter fun c => !isNameBlank c := by
  induction t generalizing inBlanks with
  | nil => rfl
  | cons c t ih =>
    cases blank : isNameBlank c with
    | true =>
      have space : isNameBlank ' ' = true := by decide
      rw [collapseBlanks_cons_of_blank blank]
      split <;> simp [blank, space, ih]
    | false => simp [collapseBlanks_cons_of_not_blank, blank, ih]

theorem bare_eq_filter (t : Text) :
    bare t = (t.map CaseMap.fold).filter fun c => !isNameBlank c := by
  have same : (fun c => !isNameBlank c) ∘ CaseMap.fold = fun c => !isNameBlank c :=
    funext fun c => by simp
  rw [bare, List.filter_map, same]

theorem Alike.bare_eq (h : s.Alike t) : bare s = bare t := by
  rw [bare_eq_filter, bare_eq_filter, ← filter_collapseBlanks false, h, filter_collapseBlanks]

theorem joinWith_cons (d : Char) (w : Text) {ws : List Text} (more : ws ≠ []) :
    joinWith d (w :: ws) = w ++ d :: joinWith d ws := by
  obtain ⟨v, vs, rfl⟩ := List.exists_cons_of_ne_nil more
  rfl

theorem mem_joinWith {ws : List Text} (h : c ∈ joinWith d ws) : c = d ∨ ∃ w ∈ ws, c ∈ w := by
  induction ws with
  | nil => cases h
  | cons w ws ih =>
    by_cases more : ws = []
    · rw [more] at h
      exact .inr ⟨w, List.mem_cons_self, h⟩
    · rw [joinWith_cons d w more, List.mem_append, List.mem_cons] at h
      rcases h with here | same | later
      · exact .inr ⟨w, List.mem_cons_self, here⟩
      · exact .inl same
      · exact (ih later).imp_right fun ⟨v, hv, inside⟩ => ⟨v, List.mem_cons_of_mem _ hv, inside⟩

end Text

namespace VariableToken

/-- A text without braces has no variable in it. -/
theorem pieces_eq_map_char {t : Text} (h : '{' ∉ t) : pieces t = t.map .char := by
  have alone (escaped : Bool) : piecesAfter escaped t = t.map .char := by
    induction t generalizing escaped with
    | nil => rw [piecesAfter, List.map_nil]
    | cons c t ih =>
      rw [List.mem_cons, not_or] at h
      have noToken : unescaped? escaped (c :: t) = none := by
        rw [unescaped?]
        split
        · rfl
        · rw [atStart?]
          rintro d rest ⟨⟩
          exact absurd List.mem_cons_self h.2
      rw [piecesAfter, List.map_cons]
      split
      · rename_i found
        rw [noToken] at found
        cases found
      · rw [ih h.2]
  exact alone false

/-- A name without variables is its only literal. -/
theorem literals_map_char (t : Text) : literals (t.map .char) = [t] := by
  induction t with
  | nil => rfl
  | cons c t ih => rw [List.map_cons, literals, ih, List.modifyHead_cons]

theorem flatMap_text_map_char (l : Text) : (l.map Piece.char).flatMap Piece.text = l := by
  rw [List.flatMap_map]
  exact List.flatMap_singleton' l

theorem flatMap_text_pieces (t : Text) : (pieces t).flatMap Piece.text = t :=
  flatMap_text_piecesAfter false t

theorem mem_of_mem_token {t v : Text} {c : Char} (h : .token v ∈ pieces t) (hc : c ∈ v) :
    c ∈ t := by
  rw [← flatMap_text_pieces t]
  exact List.mem_flatMap.2 ⟨_, h, hc⟩

end VariableToken

namespace Keyword

theorem isCalledBy_iff_fitsCall (k : Keyword) (text : Text) : k.isCalledBy text ↔
    FitsCall k.qualifier (VariableToken.literals (VariableToken.pieces k.name))
      (Name.ofFunction text) := by
  rw [isCalledBy, Name.trim_ofFunction]
  exact accepts_ofName_iff _ _ _

/-- What calls of a declared keyword look like. -/
theorem isCalledBy_declare (qualifier : Option Text) (name : Text) (takesArguments : Bool)
    (location : Location) (text : Text) :
    (declare qualifier name takesArguments location).isCalledBy text ↔ FitsCall qualifier
      (VariableToken.literals (VariableToken.pieces (Name.ofFunction name)))
      (Name.ofFunction text) :=
  (isCalledBy_iff_fitsCall _ _).trans fitsCall_filter

/-- A call with a qualifier has a dot in it. -/
theorem separator_mem_of_qualified {q front : Text}
    (h : front.map CaseMap.fold = (q ++ [KeywordPattern.separator]).map CaseMap.fold) :
    KeywordPattern.separator ∈ front := by
  have folded : KeywordPattern.separator ∈ front.map CaseMap.fold := by
    rw [h, List.map_append]
    exact List.mem_append_right _ (List.mem_singleton.2 (by decide))
  obtain ⟨c, hc, same⟩ := List.mem_map.1 folded
  exact (CaseMap.fold_eq_iff_of_mark (by decide)).1 same ▸ hc

theorem fitsCall_none {words : List Text} {called : Text} :
    FitsCall none words called ↔ FitsLiterals words called := by
  simp [FitsCall]

end Keyword

end RobotAnalysis
