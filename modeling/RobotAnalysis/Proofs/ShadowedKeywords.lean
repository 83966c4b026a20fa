import RobotAnalysis.Proofs.DeclaredKeywords
import RobotAnalysis.Proofs.NameKeys

/-!
# Keywords that an earlier one stands for

Of the keywords of a document that have the same key only the first is kept. A call of another one
reaches the first if their names are alike. If they are not, this depends on the ends of the names,
as a key has no blanks there: a name that begins or ends with a blank fits no call without it.
-/
namespace RobotAnalysis

open CharClass (isNameBlank)

open Text (even startsBlank endsBlank)

open VariableToken (literals pieces Opens Closes)

namespace Name

variable {s t : Text}

/-- A name that begins or ends with a variable has words. -/
theorem key_ne_nil (h : Opens t ∨ Closes t) : key t ≠ [] := by
  obtain ⟨c, hc, visible⟩ : ∃ c ∈ t, isNameBlank c = false := by
    rcases h with opens | closes
    · obtain ⟨c, first, visible⟩ := opens.exists_head?
      exact ⟨c, List.mem_of_head? first, visible⟩
    · obtain ⟨c, last, visible⟩ := closes.exists_getLast?
      exact ⟨c, List.mem_of_getLast? last, visible⟩
  intro none
  rw [key_eq_nil_iff.1 none c hc] at visible
  cases visible

/-- Whether every end of a name has a blank where that of another one has, or else a variable. -/
structure Stretches (t s : Text) : Prop where
  start : Opens t ∨ startsBlank s = startsBlank t
  stop : Closes t ∨ endsBlank s = endsBlank t

/-- Blanks that a name need not begin with are cut off. -/
theorem exists_front (same : key s = key t) (start : Opens t ∨ startsBlank s = startsBlank t) :
    ∃ front core, s = front ++ core ∧ (∀ c ∈ front, isNameBlank c = true) ∧
      (front ≠ [] → Opens t) ∧ startsBlank core = startsBlank t ∧ endsBlank core = endsBlank s := by
  by_cases agree : startsBlank s = startsBlank t
  · exact ⟨[], s, rfl, nofun, absurd rfl, agree, rfl⟩
  have opens := start.resolve_right agree
  have whole := List.takeWhile_append_dropWhile (p := isNameBlank) (l := s)
  have filled : s.dropWhile isNameBlank ≠ [] := fun none =>
    key_ne_nil (.inl opens) (same ▸ key_eq_nil_iff.2 (List.dropWhile_eq_nil_iff.1 none))
  have visible : startsBlank t = false := by
    obtain ⟨c, first, visible⟩ := opens.exists_head?
    rwa [startsBlank, first]
  have begins : startsBlank (s.dropWhile isNameBlank) = false := by
    have stops := List.head?_dropWhile_not isNameBlank s
    rw [List.head?_eq_some_head filled] at stops
    rw [startsBlank, List.head?_eq_some_head filled, Option.any_some]
    simpa using stops
  refine ⟨_, _, whole.symm, fun c hc => List.mem_takeWhile_imp hc, fun _ => opens,
    begins.trans visible.symm, ?_⟩
  conv => rhs; rw [← whole]
  rw [Text.endsBlank_append filled]

/-- Blanks that a name need not end with are cut off. -/
theorem exists_back (same : key s = key t) (stop : Closes t ∨ endsBlank s = endsBlank t) :
    ∃ core back, s = core ++ back ∧ (∀ c ∈ back, isNameBlank c = true) ∧
      (back ≠ [] → Closes t) ∧ endsBlank core = endsBlank t ∧ startsBlank core = startsBlank s := by
  by_cases agree : endsBlank s = endsBlank t
  · exact ⟨s, [], (List.append_nil s).symm, nofun, absurd rfl, agree, rfl⟩
  have closes := stop.resolve_right agree
  obtain ⟨back, whole, blank⟩ := Sequence.exists_dropTrailing_append isNameBlank s
  have filled : Sequence.dropTrailing isNameBlank s ≠ [] := by
    intro none
    rw [none, List.nil_append] at whole
    exact key_ne_nil (.inr closes) (same ▸ key_eq_nil_iff.2 (whole ▸ blank))
  have visible : endsBlank t = false := by
    obtain ⟨c, last, visible⟩ := closes.exists_getLast?
    rwa [endsBlank, last]
  have ends : endsBlank (Sequence.dropTrailing isNameBlank s) = false := by
    have last := List.getLast?_eq_some_getLast filled
    rw [endsBlank, last, Option.any_some]
    exact Sequence.getLast?_dropTrailing last
  refine ⟨_, back, whole, blank, fun _ => closes, ends.trans visible.symm, ?_⟩
  conv => rhs; rw [whole]
  rw [Text.startsBlank_append filled]

theorem Stretches.of_fits (h : FitsLiterals (literals (pieces t)) s) : Stretches t s :=
  ⟨h.startsBlank_eq, h.endsBlank_eq⟩

/-- Of two names with one key the second fits every text in one line that the first fits, if it has
a blank or a variable at its ends where the first has a blank. -/
theorem Stretches.fits (h : Stretches t s) (same : key s = key t)
    (regular : ∀ c, c ∈ s ∨ c ∈ t → CaseMap.FoldsAsLower c) {text : Text} (oneLine : '\n' ∉ text)
    (fits : FitsLiterals (literals (pieces s)) text) : FitsLiterals (literals (pieces t)) text := by
  obtain ⟨start, stop⟩ := h
  obtain ⟨front, rest, rfl, before, opens, starts, ends⟩ := exists_front same start
  have cut : key (front ++ rest ++ []) = key rest := key_append_blank (by simpa using before) rest
  rw [List.append_nil, same] at cut
  rw [← ends] at stop
  obtain ⟨core, back, rfl, behind, closes, stops, begins⟩ := exists_back cut.symm stop
  have blank : ∀ c ∈ front ++ back, isNameBlank c = true :=
    List.forall_mem_append.2 ⟨before, behind⟩
  rw [← List.append_assoc] at same fits regular
  have like : core.Alike t := by
    refine alike_of_key_eq (fun c hc => regular c (hc.imp_left fun inside => ?_)) ?_
      (begins.trans starts) stops
    · exact List.mem_append_left _ (List.mem_append_right _ inside)
    · rw [← key_append_blank blank, same]
  have bare := FitsLiterals.without_edges blank (fun some => (opens some).of_alike like)
    (fun some => (closes some).of_alike like) oneLine fits
  exact bare.of_map_even (VariableToken.map_even_literals like)

end Name

/-- Every element has one of its key among those that are kept. -/
theorem Sequence.exists_mem_distinctBy {α κ : Type} [DecidableEq κ] (key : α → κ) {l : List α}
    {a : α} (h : a ∈ l) : ∃ b ∈ distinctBy key l, key b = key a := by
  have known (seen : List κ) :
      key a ∈ seen ∨ ∃ b ∈ distinctBy.select key seen l, key b = key a := by
    induction l generalizing seen with
    | nil => cases h
    | cons b l ih =>
      rw [distinctBy.select]
      split
      · rename_i seenBefore
        rcases List.mem_cons.1 h with rfl | h
        · exact .inl seenBefore
        · exact ih h seen
      · rcases List.mem_cons.1 h with rfl | h
        · exact .inr ⟨a, List.mem_cons_self, rfl⟩
        · rcases ih h (key b :: seen) with earlier | ⟨c, hc, same⟩
          · rcases List.mem_cons.1 earlier with same | earlier
            · exact .inr ⟨b, List.mem_cons_self, same.symm⟩
            · exact .inl earlier
          · exact .inr ⟨c, List.mem_cons_of_mem _ hc, same⟩
  exact (known []).resolve_left List.not_mem_nil

namespace SectionModel

/-- Every keyword that a document declares has one of its key among those that are kept. This one is
called by the same texts if the names are alike, and if it has no variable in its name, by all texts
of the other one only then. If every letter is equal to its lowercase up to case, it is called by
all texts of the other one in one line if and only if its ends have blanks where those of the other
one do, or variables. -/
theorem exists_kept_of_declared (file : FileId) (text : Text) {k : Keyword}
    (declared : k ∈ (ofTree file (parse text).value).flatMap fun s => s.found.keywords) :
    ∃ kept ∈ keywords (ofTree file (parse text).value), kept.key = k.key ∧
      (kept.name.Alike k.name → ∀ call, kept.isCalledBy call = k.isCalledBy call) ∧
      (VariableToken.all kept.name = [] →
        ((∀ call, k.isCalledBy call → kept.isCalledBy call) ↔ kept.name.Alike k.name)) ∧
      ((∀ c, c ∈ k.name ∨ c ∈ kept.name → CaseMap.FoldsAsLower c) →
        ((∀ call, '\n' ∉ call → k.isCalledBy call → kept.isCalledBy call) ↔
          Name.Stretches kept.name k.name)) := by
  obtain ⟨kept, mem, same⟩ := Sequence.exists_mem_distinctBy Keyword.key declared
  obtain ⟨name, takesArguments, location, oneLine, whole⟩ := exists_declare_of_mem_ofTree declared
  obtain ⟨_, _, _, -, first⟩ := exists_declare_of_mem_ofTree (Sequence.mem_of_mem_distinctBy mem)
  have unqualified : k.qualifier = none ∧ kept.qualifier = none :=
    ⟨by rw [whole]; rfl, by rw [first]; rfl⟩
  have calls (call : Text) : k.isCalledBy call ↔
      FitsLiterals (literals (pieces k.name)) (Name.ofFunction call) := by
    rw [Keyword.isCalledBy_iff_fitsCall, unqualified.1, Keyword.fitsCall_none]
  have keptCalls (call : Text) : kept.isCalledBy call ↔
      FitsLiterals (literals (pieces kept.name)) (Name.ofFunction call) := by
    rw [Keyword.isCalledBy_iff_fitsCall, unqualified.2, Keyword.fitsCall_none]
  have named : Name.ofFunction name = k.name := by rw [whole]; rfl
  have lineOf {t : Text} (clear : '\n' ∉ t) : '\n' ∉ Name.ofFunction t := by
    intro feed
    rcases Name.mem_ofFunction feed with space | inside
    · exact absurd space (by decide)
    · exact clear inside
  -- a keyword is called by its own name
  have own : k.isCalledBy name := by
    have fits : FitsLiterals (literals (pieces k.name)) k.name :=
      VariableToken.fits_pieces fun v hv feed =>
        lineOf oneLine (named ▸ VariableToken.mem_of_mem_token hv feed)
    rw [calls, named]
    exact fits
  have alike (like : kept.name.Alike k.name) (call : Text) :
      kept.isCalledBy call = k.isCalledBy call :=
    Keyword.isCalledBy_eq_of_alike (unqualified.2.trans unqualified.1.symm) like call
  refine ⟨kept, mem, same, alike, fun plain => ⟨fun all => ?_, fun like call h => ?_⟩,
    fun regular => ⟨fun all => ?_, fun stretches call clear h => ?_⟩⟩
  · have fits := (keptCalls name).1 (all name own)
    rwa [VariableToken.pieces_eq_map_char_of_all plain, VariableToken.literals_map_char, named,
      FitsLiterals.singleton_iff] at fits
  · rwa [alike like]
  · have fits := (keptCalls name).1 (all name oneLine own)
    rw [named] at fits
    exact .of_fits fits
  · exact (keptCalls call).2 (stretches.fits same.symm regular (lineOf clear) ((calls call).1 h))

/-- A name that begins with an underscore takes away the calls of the same name without it. -/
theorem exists_kept_of_declared_underscore :
    let text := "*** Keywords ***\n_Foo Bar\n    Log    x\nFoo Bar\n    Log    y\n".toList
    let k := Keyword.declare none "Foo Bar".toList false (.document ⟨0⟩ ⟨39, 7⟩)
    let kept := Keyword.declare none "_Foo Bar".toList false (.document ⟨0⟩ ⟨17, 8⟩)
    k ∈ ((ofTree ⟨0⟩ (parse text).value).flatMap fun s => s.found.keywords) ∧
      keywords (ofTree ⟨0⟩ (parse text).value) = [kept] ∧ kept.key = k.key ∧
      (¬ ∀ call, k.isCalledBy call → kept.isCalledBy call) ∧
      k.isCalledBy "Foo Bar".toList ∧ ¬ kept.isCalledBy "Foo Bar".toList := by
  intro text k kept
  have declared : k ∈ (ofTree ⟨0⟩ (parse text).value).flatMap fun s => s.found.keywords := by
    decide +kernel
  have only : keywords (ofTree ⟨0⟩ (parse text).value) = [kept] := by decide +kernel
  have apart : ¬ kept.name.Alike k.name := by
    rw [Text.Alike]
    decide +kernel
  obtain ⟨found, mem, same, -, plain, -⟩ := exists_kept_of_declared ⟨0⟩ text declared
  rw [only, List.mem_singleton] at mem
  subst mem
  exact ⟨declared, only, same, mt (plain (by decide +kernel)).1 apart, by decide +kernel,
    by decide +kernel⟩

end SectionModel

end RobotAnalysis
