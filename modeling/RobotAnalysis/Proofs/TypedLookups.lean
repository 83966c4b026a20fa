import Mathlib.Data.List.TakeWhile
import RobotAnalysis.Completion

/-!
# Typed texts that find a candidate

A candidate is found by what its lookup texts begin with, up to case. Case is taken away from the
typed text and from the lookup texts as wholes. This agrees for a text and for what it begins with,
but not for a capital sigma: at the end of what has been typed it gets its final form, also where
the word goes on. So a candidate is lost only when typing stops at such a sigma.
-/
namespace RobotAnalysis

open CharClass (isCaseIgnorable)

namespace Text

variable {before p q s t : Text} {c : Char}

/-! ## Lowercase of what comes before a text -/

theorem casedNext_append (p q : Text) :
    casedNext (p ++ q) = (casedNext p || (p.all isCaseIgnorable && casedNext q)) := by
  induction p with
  | nil => rfl
  | cons c p ih =>
    cases ignorable : isCaseIgnorable c with
    | true => simpa [casedNext, ignorable] using ih
    | false => simp [casedNext, ignorable]

theorem casedNext_of_all_ignorable (h : p.all isCaseIgnorable = true) : casedNext p = false := by
  have nothing : p.dropWhile isCaseIgnorable = [] :=
    List.dropWhile_eq_nil_iff.2 (List.all_eq_true.1 h)
  rw [casedNext, nothing]

/-- Every character in lowercase where another text follows; `goesOn` tells whether the next
character there that is not case-ignorable has a case. -/
def lowerWithin (goesOn : Bool) (before : Text) : Text → Text
  | [] => []
  | c :: t =>
    if c = 'Σ' then
      (if casedNext before && !(casedNext t || (t.all isCaseIgnorable && goesOn)) then 'ς'
        else 'σ') :: lowerWithin goesOn (c :: before) t
    else CaseMap.lower c ++ lowerWithin goesOn (c :: before) t

theorem go_append (before p q : Text) : lowerInContext.go before (p ++ q) =
    lowerWithin (casedNext q) before p ++ lowerInContext.go (p.reverse ++ before) q := by
  induction p generalizing before with
  | nil => rfl
  | cons c p ih =>
    have rest : (c :: p).reverse ++ before = p.reverse ++ c :: before := by simp
    rw [List.cons_append, lowerInContext.go, lowerWithin, ih, casedNext_append, rest]
    split
    · rfl
    · rw [List.append_assoc]

theorem lowerInContext_append (p q : Text) : (p ++ q).lowerInContext =
    lowerWithin (casedNext q) [] p ++ lowerInContext.go p.reverse q := by
  rw [lowerInContext, go_append, List.append_nil]

theorem lowerInContext_eq (p : Text) : p.lowerInContext = lowerWithin false [] p := by
  conv => lhs; rw [← List.append_nil p, lowerInContext_append]
  exact List.append_nil _

theorem length_lowerWithin (goesOn : Bool) (before p : Text) :
    (lowerWithin goesOn before p).length = (lowerWithin false before p).length := by
  induction p generalizing before with
  | nil => rfl
  | cons c p ih =>
    rw [lowerWithin, lowerWithin]
    split
    · rw [List.length_cons, List.length_cons, ih]
    · rw [List.length_append, List.length_append, ih]

/-! ## Where typing stops at a capital sigma -/

/-- Whether a text ends in a capital sigma that ends a word there, apart from case-ignorable
characters; `before` holds the characters in front of the text, the last one first. -/
def EndsInSigma (before p : Text) : Prop :=
  ∃ front marks, p = front ++ 'Σ' :: marks ∧ marks.all isCaseIgnorable = true ∧
    casedNext (front.reverse ++ before) = true

theorem endsInSigma_cons : EndsInSigma before (c :: p) ↔
    (c = 'Σ' ∧ p.all isCaseIgnorable = true ∧ casedNext before = true) ∨
      EndsInSigma (c :: before) p := by
  constructor
  · rintro ⟨_ | ⟨d, front⟩, marks, whole, ignorable, cased⟩
    · obtain ⟨rfl, rfl⟩ := List.cons.inj whole
      exact .inl ⟨rfl, ignorable, cased⟩
    · obtain ⟨rfl, rfl⟩ := List.cons.inj whole
      exact .inr ⟨front, marks, rfl, ignorable, by simpa using cased⟩
  · rintro (⟨rfl, ignorable, cased⟩ | ⟨front, marks, rfl, ignorable, cased⟩)
    · exact ⟨[], p, rfl, ignorable, cased⟩
    · exact ⟨c :: front, marks, rfl, ignorable, by simpa using cased⟩

/-- What follows a text matters to its lowercase only where the text ends in a capital sigma. -/
theorem lowerWithin_true_eq_iff :
    lowerWithin true before p = lowerWithin false before p ↔ ¬ EndsInSigma before p := by
  induction p generalizing before with
  | nil =>
    have noSigma : ¬ EndsInSigma before [] := by
      rintro ⟨front, marks, whole, -, -⟩
      simp at whole
    exact iff_of_true rfl noSigma
  | cons c p ih =>
    rw [lowerWithin, lowerWithin, endsInSigma_cons, not_or, ← ih]
    by_cases sigma : c = 'Σ'
    · rw [if_pos sigma, if_pos sigma, List.cons.injEq]
      refine and_congr_left fun _ => ?_
      cases ignorable : p.all isCaseIgnorable with
      | false => simp
      | true =>
        rw [casedNext_of_all_ignorable ignorable]
        cases casedNext before <;> simp [sigma]
    · rw [if_neg sigma, if_neg sigma, List.append_cancel_left_eq]
      simp [sigma]

/-- Whether a text that goes on as another one is cut off at a capital sigma inside of a word. -/
structure CutsSigma (p q : Text) : Prop where
  ends : EndsInSigma [] p
  goesOn : casedNext q = true

/-- Without a capital sigma there is no cut at one. -/
theorem not_cutsSigma_of_notMem (h : 'Σ' ∉ p) (q : Text) : ¬ CutsSigma p q := by
  rintro ⟨⟨front, marks, rfl, -, -⟩, -⟩
  simp at h

/-- The lowercase of a text begins with that of its beginning, unless a word is cut off at a capital
sigma. -/
theorem lowerInContext_isPrefix_iff (p q : Text) :
    p.lowerInContext <+: (p ++ q).lowerInContext ↔ ¬ CutsSigma p q := by
  rw [lowerInContext_append, lowerInContext_eq]
  cases goesOn : casedNext q with
  | false =>
    refine iff_of_true (List.prefix_append _ _) fun cut => ?_
    rw [cut.goesOn] at goesOn
    cases goesOn
  | true =>
    have ends : CutsSigma p q ↔ EndsInSigma [] p := ⟨CutsSigma.ends, fun ends => ⟨ends, goesOn⟩⟩
    rw [ends, ← lowerWithin_true_eq_iff]
    have long := length_lowerWithin true [] p
    constructor
    · intro begins
      have inside := List.prefix_of_prefix_length_le begins (List.prefix_append _ _) long.ge
      exact (inside.eq_of_length long.symm).symm
    · intro same
      rw [same]
      exact List.prefix_append _ _

/-- Whether a lookup text begins with a typed text, up to case. -/
def Finds (typed lookup : Text) : Prop := typed.lowerInContext <+: lookup.lowerInContext

theorem finds_iff_of_append (h : (p ++ q).Finds s) : p.Finds s ↔ ¬ CutsSigma p q := by
  rw [← lowerInContext_isPrefix_iff]
  constructor
  · intro found
    refine List.prefix_of_prefix_length_le found h ?_
    rw [lowerInContext_append, lowerInContext_eq, List.length_append,
      length_lowerWithin (casedNext q)]
    exact Nat.le_add_right _ _
  · intro begins
    exact begins.trans h

end Text

namespace CompletionItem

theorem isFoundBy_iff {item : CompletionItem} {typed : Text} :
    item.isFoundBy typed = true ↔ ∃ l ∈ item.lookups, typed.Finds l := by
  simp [isFoundBy, Text.Finds]

theorem mem_lookups_make {label : Text} {kind : CompletionKind} {tail : Tail} {lookups : List Text}
    {s : Text} (h : s ∈ label :: lookups) : s ∈ (make label kind tail lookups).lookups :=
  Sequence.mem_distinctBy_id h

/-- A candidate is found by each beginning of a lookup text, and by each beginning of a text that
finds it by way of one, unless a word is cut off at a capital sigma. Where one is, only another
lookup text can make it found. -/
theorem isFoundBy_iff_of_mem (label : Text) (kind : CompletionKind) (tail : Tail)
    (lookups : List Text) {s : Text} (h : s ∈ label :: lookups) :
    let item := make label kind tail lookups
    (∀ p q, s = p ++ q → (item.isFoundBy p = true ↔
      ¬ p.CutsSigma q ∨ ∃ other ∈ item.lookups, other ≠ s ∧ p.Finds other)) ∧
    ∀ p q : Text, (p ++ q).Finds s → (p.Finds s ↔ ¬ p.CutsSigma q) ∧
      (item.isFoundBy p = true ↔
        ¬ p.CutsSigma q ∨ ∃ other ∈ item.lookups, other ≠ s ∧ p.Finds other) := by
  intro item
  have found {p q : Text} (typed : (p ++ q).Finds s) : item.isFoundBy p = true ↔
      ¬ p.CutsSigma q ∨ ∃ other ∈ item.lookups, other ≠ s ∧ p.Finds other := by
    rw [isFoundBy_iff, ← Text.finds_iff_of_append typed]
    constructor
    · rintro ⟨other, mem, finds⟩
      by_cases same : other = s
      · exact .inl (same ▸ finds)
      · exact .inr ⟨other, mem, same, finds⟩
    · rintro (finds | ⟨other, mem, -, finds⟩)
      · exact ⟨s, mem_lookups_make h, finds⟩
      · exact ⟨other, mem, finds⟩
  refine ⟨fun p q whole => found ?_, fun p q typed => ⟨Text.finds_iff_of_append typed, found typed⟩⟩
  rw [whole]
  exact List.prefix_refl _

/-- A candidate that is lost while its second letter is typed and is there again afterwards. -/
theorem isFoundBy_of_inner_sigma :
    let s : Text := "ΑΣΑ".toList
    let item := make s .keyword .none []
    s ∈ [s] ∧ item.isFoundBy "Α".toList = true ∧ item.isFoundBy "ΑΣ".toList = false ∧
      item.isFoundBy "ΑΣΑ".toList = true := by
  intro s item
  have mem : s ∈ [s] := List.mem_cons_self
  obtain ⟨begins, -⟩ := isFoundBy_iff_of_mem s .keyword .none [] mem
  refine ⟨mem, ?_, ?_, ?_⟩
  · exact (begins _ "ΣΑ".toList rfl).2 (.inl (Text.not_cutsSigma_of_notMem (by decide) _))
  · rw [← Bool.not_eq_true, begins _ "Α".toList rfl]
    rintro (noCut | ⟨other, mem, differs, -⟩)
    · exact noCut ⟨⟨"Α".toList, [], rfl, rfl, by decide +kernel⟩, by decide +kernel⟩
    · exact differs (List.mem_singleton.1 mem)
  · refine (begins _ [] rfl).2 (.inl fun cut => ?_)
    cases cut.goesOn

end CompletionItem

end RobotAnalysis
