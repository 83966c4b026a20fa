import RobotAnalysis.Proofs.BareNames
import RobotAnalysis.Proofs.ShownSpans

/-!
# The variables of names that are alike

Neither case nor the extent of a run of blanks moves a variable of a name: what stands before,
between and behind the variables of two names that are alike is alike piece by piece, and so the
same texts fit both. A blank at an end of a name is no part of a variable either, and next to one
there it may be left out.
-/
namespace RobotAnalysis

open CharClass (isNameBlank)

namespace Text

/-- A text up to case and the extent of its runs of blanks; `inBlanks` says whether a run is
already open. -/
def even (inBlanks : Bool) (t : Text) : Text := collapseBlanks inBlanks (t.map CaseMap.fold)

variable {c : Char} {t : Text}

@[simp] theorem even_nil (inBlanks : Bool) : even inBlanks [] = [] := rfl

theorem even_cons_of_blank (h : isNameBlank c = true) (inBlanks : Bool) (t : Text) :
    even inBlanks (c :: t) = if inBlanks then even true t else ' ' :: even true t := by
  rw [even, List.map_cons, collapseBlanks_cons_of_blank (by simpa using h)]
  rfl

theorem even_cons_of_not_blank (h : isNameBlank c = false) (inBlanks : Bool) (t : Text) :
    even inBlanks (c :: t) = CaseMap.fold c :: even false t := by
  rw [even, List.map_cons, collapseBlanks_cons_of_not_blank (by simpa using h)]
  rfl

/-- A mark that is no blank stays where it is. -/
theorem even_cons_of_mark (mark : Run.Covers CharTable.asciiMarks c)
    (visible : isNameBlank c = false) (inBlanks : Bool) (t : Text) :
    even inBlanks (c :: t) = c :: even false t := by
  rw [even_cons_of_not_blank visible, (CaseMap.fold_eq_iff_of_mark mark).2 rfl]

/-- A mark comes first only where it did. -/
theorem head?_even (mark : Run.Covers CharTable.asciiMarks c) (visible : isNameBlank c = false)
    (h : (even false t).head? = some c) : t.head? = some c := by
  cases t with
  | nil => cases h
  | cons d t =>
    cases blank : isNameBlank d with
    | true =>
      rw [even_cons_of_blank blank, if_neg Bool.false_ne_true] at h
      cases h
      exact absurd visible (by decide)
    | false =>
      rw [even_cons_of_not_blank blank] at h
      rw [(CaseMap.fold_eq_iff_of_mark mark).1 (Option.some.inj h)]
      rfl

theorem even_eq_nil_iff : even false t = [] ↔ t = [] := by
  cases t with
  | nil => simp
  | cons d t =>
    cases blank : isNameBlank d with
    | true => simp [even_cons_of_blank blank]
    | false => simp [even_cons_of_not_blank blank]

end Text

open Text (even)

namespace VariableToken

variable {c : Char} {t token rest : Text} {escaped : Bool}

section Marks

theorem isSigil_iff : isSigil c = true ↔ c = '$' ∨ c = '@' ∨ c = '&' ∨ c = '%' := by
  simp [isSigil, or_assoc]

theorem mark_of_isSigil (h : isSigil c = true) :
    Run.Covers CharTable.asciiMarks c ∧ isNameBlank c = false := by
  rcases isSigil_iff.1 h with rfl | rfl | rfl | rfl <;> decide

theorem isSigil_eq_false_of_blank (h : isNameBlank c = true) : isSigil c = false :=
  Bool.eq_false_iff.2 fun sigil => by simp [(mark_of_isSigil sigil).2] at h

theorem isSigil_fold (c : Char) : isSigil (CaseMap.fold c) = isSigil c := by
  have same {d : Char} (mark : Run.Covers CharTable.asciiMarks d) :=
    (CaseMap.fold_eq_iff_of_mark (c := c) mark)
  rw [Bool.eq_iff_iff, isSigil_iff, isSigil_iff, same (by decide), same (by decide),
    same (by decide), same (by decide)]

end Marks

section Start

theorem atStart?_of_not_isSigil (h : isSigil c = false) (t : Text) : atStart? (c :: t) = none := by
  unfold atStart?
  split
  · rename_i same
    cases same
    rw [h, if_neg Bool.false_ne_true]
  · rfl

theorem atStart?_of_head? (h : t.head? ≠ some '{') (c : Char) : atStart? (c :: t) = none := by
  unfold atStart?
  split
  · rename_i same
    cases same
    exact absurd rfl h
  · rfl

theorem atStart?_brace (h : isSigil c = true) (t : Text) : atStart? (c :: '{' :: t) =
    (closing? 0 t).map fun (body, rest) => (c :: '{' :: body, rest) := by
  rw [atStart?, if_pos h]

/-- A token begins in a text or not, whatever stands before it. -/
theorem piecesAfter_of_unescaped? (h : unescaped? escaped t = some (token, rest)) :
    piecesAfter escaped t = .token token :: piecesAfter false rest := by
  cases t with
  | nil => simp [unescaped?, atStart?] at h
  | cons c t =>
    rw [piecesAfter]
    split
    · rename_i found
      rw [h] at found
      cases found
      rfl
    · rename_i found
      rw [h] at found
      cases found

theorem piecesAfter_cons_of_unescaped? (h : unescaped? escaped (c :: t) = none) :
    piecesAfter escaped (c :: t) = .char c :: piecesAfter (c == '\\') t := by
  rw [piecesAfter]
  split
  · rename_i found
    rw [h] at found
    cases found
  · rfl

theorem unescaped?_eq_none_of_isSigil (h : isSigil c = false) (escaped : Bool) (t : Text) :
    unescaped? escaped (c :: t) = none := by
  rw [unescaped?, atStart?_of_not_isSigil h, ite_self]

theorem isSigil_of_unescaped? (h : unescaped? escaped (c :: t) = some (token, rest)) :
    isSigil c = true := by
  by_contra other
  rw [unescaped?_eq_none_of_isSigil (by simpa using other)] at h
  cases h

end Start

section Closing

variable {depth : Nat}

theorem closing?_brace (depth : Nat) (t : Text) : closing? depth ('{' :: t) =
    (closing? (depth + 1) t).map fun (body, rest) => ('{' :: body, rest) := by
  rw [closing?.eq_def]
  rfl

theorem closing?_zero (t : Text) : closing? 0 ('}' :: t) = some (['}'], t) := by
  rw [closing?.eq_def]
  rfl

theorem closing?_succ (depth : Nat) (t : Text) : closing? (depth + 1) ('}' :: t) =
    (closing? depth t).map fun (body, rest) => ('}' :: body, rest) := by
  rw [closing?.eq_def]
  rfl

theorem closing?_of_ne (opening : c ≠ '{') (closing : c ≠ '}') (depth : Nat) (t : Text) :
    closing? depth (c :: t) = (closing? depth t).map fun (body, rest) => (c :: body, rest) := by
  rw [closing?.eq_def]
  exact (if_neg opening).trans (if_neg closing)

end Closing

section Even

/-- Braces are closed where they were. -/
theorem closing?_even (depth : Nat) (inBlanks : Bool) (t : Text) :
    closing? depth (even inBlanks t) =
      (closing? depth t).map fun (body, rest) => (even inBlanks body, even false rest) := by
  induction t generalizing depth inBlanks with
  | nil => rfl
  | cons c t ih =>
    by_cases opening : c = '{'
    · subst opening
      have moved (inBlanks : Bool) :=
        Text.even_cons_of_mark (c := '{') (by decide) (by decide) inBlanks
      simp [moved, closing?_brace, ih, Option.map_map, Function.comp_def]
    by_cases closing : c = '}'
    · subst closing
      have moved (inBlanks : Bool) :=
        Text.even_cons_of_mark (c := '}') (by decide) (by decide) inBlanks
      cases depth with
      | zero => simp [moved, closing?_zero]
      | succ depth => simp [moved, closing?_succ, ih, Option.map_map, Function.comp_def]
    cases blank : isNameBlank c with
    | true =>
      have space (t : Text) := closing?_of_ne (c := ' ') (by decide) (by decide) depth t
      rw [closing?_of_ne opening closing, Text.even_cons_of_blank blank]
      cases inBlanks <;>
        simp [space, ih, Option.map_map, Function.comp_def, Text.even_cons_of_blank blank]
    | false =>
      have same {d : Char} (mark : Run.Covers CharTable.asciiMarks d) (other : c ≠ d) :
          CaseMap.fold c ≠ d := mt (CaseMap.fold_eq_iff_of_mark mark).1 other
      rw [closing?_of_ne opening closing, Text.even_cons_of_not_blank blank,
        closing?_of_ne (same (by decide) opening) (same (by decide) closing)]
      simp [ih, Option.map_map, Function.comp_def, Text.even_cons_of_not_blank blank]

/-- A token begins a text where it did. -/
theorem atStart?_even (t : Text) : atStart? (even false t) =
    (atStart? t).map fun (token, rest) => (even false token, even false rest) := by
  cases t with
  | nil => rfl
  | cons c t =>
    cases sigil : isSigil c with
    | false =>
      rw [atStart?_of_not_isSigil sigil]
      cases blank : isNameBlank c with
      | true =>
        rw [Text.even_cons_of_blank blank, if_neg Bool.false_ne_true]
        exact atStart?_of_not_isSigil (by decide) _
      | false =>
        rw [Text.even_cons_of_not_blank blank]
        exact atStart?_of_not_isSigil (by rwa [isSigil_fold]) _
    | true =>
      obtain ⟨mark, visible⟩ := mark_of_isSigil sigil
      have moved (t : Text) := Text.even_cons_of_mark mark visible false t
      have brace (t : Text) := Text.even_cons_of_mark (c := '{') (by decide) (by decide) false t
      rw [moved]
      by_cases opening : t.head? = some '{'
      · obtain ⟨t, rfl⟩ := List.head?_eq_some_iff.1 opening
        simp [brace, moved, atStart?_brace sigil, closing?_even, Option.map_map, Function.comp_def]
      · rw [atStart?_of_head? opening,
          atStart?_of_head? (mt (Text.head?_even (by decide) (by decide)) opening)]
        rfl

theorem unescaped?_even (escaped : Bool) (t : Text) : unescaped? escaped (even false t) =
    (unescaped? escaped t).map fun (token, rest) => (even false token, even false rest) := by
  rw [unescaped?, unescaped?, atStart?_even]
  split <;> rfl

/-- What stands around the variables of a text is the same up to case and blanks. -/
theorem literals_even {l : Text} {ls : List Text} (inBlanks : Bool)
    (apart : inBlanks = true → escaped = false)
    (h : literals (piecesAfter escaped t) = l :: ls) :
    literals (piecesAfter escaped (even inBlanks t)) = even inBlanks l :: ls.map (even false) := by
  fun_induction piecesAfter escaped t generalizing inBlanks l ls with
  | case1 =>
    cases h
    rw [Text.even_nil, piecesAfter]
    rfl
  | case2 escaped c t token rest found ih =>
    have visible := (mark_of_isSigil (isSigil_of_unescaped? found)).2
    have moved : unescaped? escaped (even inBlanks (c :: t)) =
        some (even false token, even false rest) := by
      rw [Text.even_cons_of_not_blank visible, ← Text.even_cons_of_not_blank visible false,
        unescaped?_even, found]
      rfl
    obtain ⟨m, ms, behind⟩ := List.exists_cons_of_ne_nil
      (KeywordPattern.literals_ne_nil (piecesAfter false rest))
    rw [literals, behind] at h
    obtain ⟨rfl, rfl⟩ := List.cons.inj h
    rw [piecesAfter_of_unescaped? moved, literals, ih false (by simp) behind]
    rfl
  | case3 escaped c t found ih =>
    obtain ⟨m, ms, behind⟩ := List.exists_cons_of_ne_nil
      (KeywordPattern.literals_ne_nil (piecesAfter (c == '\\') t))
    rw [literals, behind, List.modifyHead_cons] at h
    obtain ⟨rfl, rfl⟩ := List.cons.inj h
    cases blank : isNameBlank c with
    | true =>
      have noMark : (c == '\\') = false := by
        rw [beq_eq_false_iff_ne]
        rintro rfl
        exact absurd blank (by decide)
      have later := ih true (fun _ => noMark) behind
      rw [Text.even_cons_of_blank blank, Text.even_cons_of_blank blank]
      rw [noMark] at later
      cases inBlanks with
      | true => rwa [apart rfl]
      | false =>
        rw [if_neg Bool.false_ne_true, if_neg Bool.false_ne_true, piecesAfter_cons_of_unescaped?
          (unescaped?_eq_none_of_isSigil (by decide) _ _), literals]
        rw [show (' ' == '\\') = false by decide, later]
        rfl
    | false =>
      have noToken : unescaped? escaped (CaseMap.fold c :: even false t) = none := by
        rw [← Text.even_cons_of_not_blank blank false, unescaped?_even, found]
        rfl
      have same : (CaseMap.fold c == '\\') = (c == '\\') := by
        rw [Bool.eq_iff_iff, beq_iff_eq, beq_iff_eq, CaseMap.fold_eq_iff_of_mark (by decide)]
      rw [Text.even_cons_of_not_blank blank, Text.even_cons_of_not_blank blank,
        piecesAfter_cons_of_unescaped? noToken, literals, same, ih false (by simp) behind]
      rfl

/-- Texts that are alike have alike texts around their variables. -/
theorem map_even_literals {s : Text} (h : s.Alike t) :
    (literals (pieces s)).map (even false) = (literals (pieces t)).map (even false) := by
  obtain ⟨l, ls, left⟩ := List.exists_cons_of_ne_nil (KeywordPattern.literals_ne_nil (pieces s))
  obtain ⟨m, ms, right⟩ := List.exists_cons_of_ne_nil (KeywordPattern.literals_ne_nil (pieces t))
  have first := literals_even false (by simp) left
  have second := literals_even false (by simp) right
  have same : even false s = even false t := h
  rw [same, second] at first
  rw [left, right, List.map_cons, List.map_cons, first]

end Even

end VariableToken

open VariableToken (literals pieces)

namespace FitsLiterals

variable {l t : Text} {ls ms : List Text}

/-- The same texts fit literals that are alike. -/
theorem of_map_even (same : ls.map (even false) = ms.map (even false)) (h : FitsLiterals ls t) :
    FitsLiterals ms t := by
  induction h generalizing ms with
  | @last l t like =>
    obtain ⟨m, rfl, alike⟩ : ∃ m, ms = [m] ∧ even false m = even false l := by
      simpa [eq_comm] using same
    exact .last (alike.trans like)
  | gap like oneLine behind ih =>
    rw [List.map_cons] at same
    obtain ⟨m, rest, rfl, alike, others⟩ := List.map_eq_cons_iff.1 same.symm
    exact .gap (alike.trans like) oneLine (ih others.symm)

end FitsLiterals

/-- Keywords whose names are alike are called by the same texts. -/
theorem Keyword.isCalledBy_eq_of_alike {k l : Keyword} (qualifier : k.qualifier = l.qualifier)
    (like : k.name.Alike l.name) (text : Text) : k.isCalledBy text = l.isCalledBy text := by
  have fits {called : Text} : FitsLiterals (literals (pieces k.name)) called ↔
      FitsLiterals (literals (pieces l.name)) called := by
    have same := VariableToken.map_even_literals like
    exact ⟨.of_map_even same, .of_map_even same.symm⟩
  rw [Bool.eq_iff_iff, isCalledBy_iff_fitsCall, isCalledBy_iff_fitsCall, qualifier, FitsCall,
    FitsCall]
  simp only [fits]

end RobotAnalysis
