import RobotAnalysis.Proofs.KeywordMatching

/-!
# What case mappings leave alone

Folding and uppercase move characters along runs of their tables. A class of characters that no move
begins or ends in is left alone by them, so neither blanks nor braces and dots come or go with the
case of a text.
-/
namespace RobotAnalysis

open CharClass (isBlank isNameBlank)

/-- Whether a character lies between the ends of some run. -/
def Run.Covers (rs : List Run) (c : Char) : Prop := ∃ r ∈ rs, r.first ≤ c.toNat ∧ c.toNat ≤ r.last

instance (rs : List Run) (c : Char) : Decidable (Run.Covers rs c) :=
  inferInstanceAs (Decidable (∃ r ∈ rs, r.first ≤ c.toNat ∧ c.toNat ≤ r.last))

namespace Run

/-- Whether a code point of a run lies in a sorted table. -/
def meets (s : Run) : List Run → Bool
  | [] => false
  | r :: rs =>
    bif Nat.blt r.last s.first then meets s rs
    else bif Nat.blt s.last r.first then false
    else (List.range' s.first ((s.last - s.first) / s.step + 1) s.step).any r.holds || meets s rs

/-- Whether a run lies in one run of a sorted table, without gaps where it has more than one code
point. -/
def isInside (s : Run) : List Run → Bool
  | [] => false
  | r :: rs =>
    bif Nat.blt r.last s.first && Nat.ble r.first s.first then isInside s rs
    else bif Nat.beq r.step 1 then Nat.ble r.first s.first && Nat.ble s.last r.last
    else Nat.beq s.first s.last && r.holds s.first

variable {s : Run} {rs : List Run} {n : Nat}

theorem holds_iff {r : Run} : r.holds n = true ↔
    r.first ≤ n ∧ n ≤ r.last ∧ (n - r.first) % r.step = 0 := by
  simp [holds, and_assoc]

theorem anyHolds_eq_false_of_meets (h : s.meets rs = false) (hn : s.holds n = true) :
    anyHolds rs n = false := by
  obtain ⟨above, below, even⟩ := holds_iff.1 hn
  induction rs with
  | nil => rfl
  | cons r rs ih =>
    rw [meets, cond_eq_ite, cond_eq_ite] at h
    rw [anyHolds]
    split at h
    · rename_i before
      have outside : r.holds n = false := by
        rw [Nat.blt_eq] at before
        exact Bool.eq_false_iff.2 fun held => by have := holds_iff.1 held; omega
      rw [outside, ih h, Bool.or_false, ite_self]
    · split at h
      · rename_i behind
        rw [Nat.blt_eq] at behind
        rw [if_pos (by omega)]
      · rw [Bool.or_eq_false_iff] at h
        have outside : r.holds n = false := by
          have mem : n ∈ List.range' s.first ((s.last - s.first) / s.step + 1) s.step := by
            rw [List.mem_range']
            refine ⟨(n - s.first) / s.step, ?_, ?_⟩
            · exact Nat.lt_succ_of_le (Nat.div_le_div_right (by omega))
            · rw [Nat.mul_div_cancel' (Nat.dvd_of_mod_eq_zero even)]
              omega
          simpa using List.any_eq_false.1 h.1 n mem
        rw [outside, ih h.2, Bool.or_false, ite_self]

theorem anyHolds_of_isInside (h : s.isInside rs = true) (hn : s.holds n = true) :
    anyHolds rs n = true := by
  obtain ⟨above, below, even⟩ := holds_iff.1 hn
  induction rs with
  | nil => cases h
  | cons r rs ih =>
    rw [isInside, cond_eq_ite, cond_eq_ite] at h
    rw [anyHolds]
    split at h
    · rename_i before
      rw [Bool.and_eq_true, Nat.blt_eq, Nat.ble_eq] at before
      rw [if_neg (by omega), ih h, Bool.or_true]
    · have held : r.holds n = true := by
        split at h
        · rename_i single
          rw [Bool.and_eq_true, Nat.ble_eq, Nat.ble_eq] at h
          refine holds_iff.2 ⟨by omega, by omega, ?_⟩
          rw [Nat.eq_of_beq_eq_true single, Nat.mod_one]
        · rw [Bool.and_eq_true] at h
          have single := Nat.eq_of_beq_eq_true h.1
          have same : n = s.first := by omega
          rw [same]
          exact h.2
      have := holds_iff.1 held
      rw [if_neg (by omega), held, Bool.true_or]

end Run

namespace Shift

/-- Whether some of the moves takes a character to another one. -/
def Moves (ss : List Shift) (c d : Char) : Prop :=
  ∃ s ∈ ss, (s.run.first ≤ c.toNat ∧ c.toNat ≤ s.run.last) ∧
    d = Char.ofNat (c.toNat + s.distance).toNat

/-- Whether no move begins or ends in a class of characters. -/
def Avoids (ss : List Shift) (rs : List Run) : Prop :=
  Run.Apart rs (ss.map run) ∧ Run.Apart rs (ss.map imageRun) ∧ ∀ r ∈ rs, 0 < r.first

instance (ss : List Shift) (rs : List Run) : Decidable (Avoids ss rs) :=
  inferInstanceAs (Decidable (Run.Apart rs (ss.map run) ∧ Run.Apart rs (ss.map imageRun) ∧
    ∀ r ∈ rs, 0 < r.first))

variable {ss : List Shift} {rs : List Run} {c d : Char}

theorem moves_of_image? {n : Nat} (h : image? ss c.toNat = some n) : Moves ss c (Char.ofNat n) := by
  obtain ⟨s, hs, above, below, rfl⟩ := exists_of_image? h
  exact ⟨s, hs, ⟨above, below⟩, rfl⟩

theorem Moves.append_right (h : Moves ss c d) (more : List Shift) : Moves (ss ++ more) c d :=
  have ⟨s, hs, place⟩ := h
  ⟨s, List.mem_append_left _ hs, place⟩

/-- A number that is no code point stands for the character zero. -/
theorem toNat_ofNat_eq_or (n : Nat) : (Char.ofNat n).toNat = n ∨ (Char.ofNat n).toNat = 0 := by
  rw [Char.ofNat]
  by_cases valid : n.isValidChar
  · rw [dif_pos valid]
    exact .inl rfl
  · rw [dif_neg valid]
    exact .inr rfl

/-- Moves that avoid a class neither take a character from it nor to it. -/
theorem Moves.not_covers (h : Moves ss c d) (avoids : Avoids ss rs) :
    ¬ Run.Covers rs c ∧ ¬ Run.Covers rs d := by
  obtain ⟨s, hs, ⟨above, below⟩, rfl⟩ := h
  obtain ⟨sources, images, positive⟩ := avoids
  constructor
  · rintro ⟨r, hr, first, last⟩
    rcases sources r hr s.run (List.mem_map_of_mem hs) with low | high <;> omega
  · rintro ⟨r, hr, first, last⟩
    have elsewhere := images r hr s.imageRun (List.mem_map_of_mem hs)
    have inside := positive r hr
    simp only [imageRun] at elsewhere
    rcases toNat_ofNat_eq_or (c.toNat + s.distance).toNat with code | zero <;> omega

/-- Where the code points of a run are moved to, with the gaps between them. -/
def movedRun (s : Shift) : Run :=
  ⟨(s.run.first + s.distance).toNat, (s.run.last + s.distance).toNat, s.run.step⟩

theorem exists_holds_of_image? {n m : Nat} (h : image? ss n = some m) :
    ∃ s ∈ ss, s.run.holds n = true ∧ m = (n + s.distance).toNat := by
  induction ss with
  | nil => cases h
  | cons s ss ih =>
    rw [image?] at h
    split at h
    · cases h
    · split at h
      · rename_i held
        exact ⟨s, List.mem_cons_self, held, (Option.some.inj h).symm⟩
      · obtain ⟨r, hr, found⟩ := ih h
        exact ⟨r, List.mem_cons_of_mem _ hr, found⟩

theorem holds_movedRun {s : Shift} {n : Nat} (positive : 0 ≤ s.run.first + s.distance)
    (h : s.run.holds n = true) : s.movedRun.holds (n + s.distance).toNat = true := by
  obtain ⟨above, below, even⟩ := Run.holds_iff.1 h
  rw [movedRun, Run.holds_iff]
  refine ⟨by dsimp only; omega, by dsimp only; omega, ?_⟩
  dsimp only
  rw [← even]
  congr 1
  omega

end Shift

namespace CharTable

/-- The characters of ASCII that are no letters, the first one left out. -/
def asciiMarks : List Run := [⟨0x1, 0x40, 1⟩, ⟨0x5B, 0x60, 1⟩, ⟨0x7B, 0x7F, 1⟩]

/-- The moves to uppercase, those to more than one character taken apart. -/
def raisings : List Shift :=
  toUpper ++ toUpperMany.flatMap fun (n, images) => images.map fun m => ⟨⟨n, n, 1⟩, m - n⟩

end CharTable

open CharTable (nameBlanks foldings asciiMarks raisings toUpper toUpperMany)

namespace CaseMap

variable {rs : List Run} {c d : Char}

theorem fold_eq_or_moves (c : Char) : fold c = c ∨ Shift.Moves foldings c (fold c) := by
  rcases fold_eq_or c with same | ⟨s, hs, place, moved⟩
  · exact .inl same
  · exact .inr ⟨s, hs, place, moved⟩

theorem mem_toUpperMany {n : Nat} {images : List Nat}
    (h : CharTable.toUpperMany.lookup n = some images) : (n, images) ∈ CharTable.toUpperMany := by
  obtain ⟨before, after, split, -⟩ := List.lookup_eq_some_iff.1 h
  rw [split]
  exact List.mem_append_right _ List.mem_cons_self

theorem upper_eq_or_moves (c : Char) :
    upper c = [c] ∨ ∀ d ∈ upper c, Shift.Moves raisings c d := by
  rw [upper]
  split
  · rename_i n found
    refine .inr fun d hd => ?_
    rw [List.mem_singleton.1 hd]
    exact (Shift.moves_of_image? found).append_right _
  · split
    · rename_i ns found
      refine .inr fun d hd => ?_
      obtain ⟨m, hm, rfl⟩ := List.mem_map.1 hd
      have entry := mem_toUpperMany found
      refine ⟨_, List.mem_append_right _ (List.mem_flatMap.2 ⟨_, entry, List.mem_map_of_mem hm⟩),
        ⟨Nat.le_refl _, Nat.le_refl _⟩, ?_⟩
      congr 1
      dsimp only
      omega
    · exact .inl rfl

theorem lower_ne_nil (c : Char) : lower c ≠ [] := by
  rw [lower]
  split
  · exact List.cons_ne_nil _ _
  · split <;> exact List.cons_ne_nil _ _

theorem one_lt_length_of_mem_toUpperMany :
    ∀ entry ∈ CharTable.toUpperMany, 1 < entry.2.length := by decide +kernel

theorem upper_ne_nil (c : Char) : upper c ≠ [] := by
  rw [upper]
  split
  · exact List.cons_ne_nil _ _
  · split
    · rename_i ns found
      have long := one_lt_length_of_mem_toUpperMany _ (mem_toUpperMany found)
      exact mt List.map_eq_nil_iff.1 (List.length_pos_iff.1 (Nat.lt_of_succ_lt long))
    · exact List.cons_ne_nil _ _

/-- Characters of a class that folding avoids are like themselves only. -/
theorem fold_eq_self (avoids : Shift.Avoids foldings rs)
    (h : Run.Covers rs c ∨ Run.Covers rs (fold c)) : fold c = c := by
  refine (fold_eq_or_moves c).resolve_right fun moved => ?_
  obtain ⟨before, after⟩ := moved.not_covers avoids
  exact h.elim before after

theorem upper_eq_self (avoids : Shift.Avoids raisings rs)
    (h : Run.Covers rs c ∨ ∃ d ∈ upper c, Run.Covers rs d) : upper c = [c] := by
  refine (upper_eq_or_moves c).resolve_right fun moved => ?_
  rcases h with before | ⟨d, hd, after⟩
  · obtain ⟨d, hd⟩ := List.exists_mem_of_ne_nil _ (upper_ne_nil c)
    exact ((moved d hd).not_covers avoids).1 before
  · exact ((moved d hd).not_covers avoids).2 after

theorem foldings_avoid_asciiMarks : Shift.Avoids foldings asciiMarks := by decide +kernel

theorem raisings_avoid_asciiMarks : Shift.Avoids raisings asciiMarks := by decide +kernel

theorem raisings_avoid_nameBlanks : Shift.Avoids raisings nameBlanks := by decide +kernel

/-- Only a mark itself is like it up to case. -/
theorem fold_eq_iff_of_mark (mark : Run.Covers asciiMarks d) : fold c = d ↔ c = d := by
  constructor
  · intro same
    rw [← same, fold_eq_self foldings_avoid_asciiMarks (.inr (same ▸ mark))]
  · rintro rfl
    exact fold_eq_self foldings_avoid_asciiMarks (.inl mark)

section Uppercase

variable {n m : Nat}

/-- The moves to a single uppercase character end apart from small letters. -/
theorem toUpper_apart_lowercase : ∀ s ∈ toUpper, 0 ≤ s.run.first + s.distance ∧
    s.movedRun.meets CharTable.lowercase = false := by decide +kernel

/-- They begin in identifiers, or else end outside of them. -/
theorem toUpper_in_identifiers : ∀ s ∈ toUpper,
    (s.run.isInside CharTable.identifierContinue ||
      !s.movedRun.meets CharTable.identifierContinue) = true := by decide +kernel

theorem toUpperMany_in_identifiers : ∀ entry ∈ toUpperMany,
    Run.isInside ⟨entry.1, entry.1, 1⟩ CharTable.identifierContinue = true := by decide +kernel

/-- A letter that becomes another one in capitals becomes no small letter. -/
theorem isLower_of_upper (h : upper c = [d]) (moved : d ≠ c) : CharClass.isLower d = false := by
  rw [upper] at h
  split at h
  · rename_i n found
    obtain ⟨s, hs, held, rfl⟩ := Shift.exists_holds_of_image? found
    obtain ⟨positive, apart⟩ := toUpper_apart_lowercase s hs
    cases h
    have outside := Run.anyHolds_eq_false_of_meets apart (Shift.holds_movedRun positive held)
    rw [CharClass.isLower]
    rcases Shift.toNat_ofNat_eq_or (c.toNat + s.distance).toNat with code | zero
    · rwa [code]
    · rw [zero]
      decide
  · split at h
    · rename_i ns found
      have long := one_lt_length_of_mem_toUpperMany _ (mem_toUpperMany found)
      have short : ns.length = 1 := by simpa using congrArg List.length h
      exact absurd short long.ne'
    · cases h
      exact absurd rfl moved

/-- A character outside of identifiers stays outside of them in capitals. -/
theorem continuesIdentifier_of_mem_upper (h : CharClass.continuesIdentifier c = false)
    (hd : d ∈ upper c) : CharClass.continuesIdentifier d = false := by
  rw [upper] at hd
  split at hd
  · rename_i n found
    obtain ⟨s, hs, held, rfl⟩ := Shift.exists_holds_of_image? found
    have positive := (toUpper_apart_lowercase s hs).1
    rcases Bool.or_eq_true_iff.1 (toUpper_in_identifiers s hs) with inside | apart
    · rw [CharClass.continuesIdentifier, Run.anyHolds_of_isInside inside held] at h
      cases h
    · rw [List.mem_singleton.1 hd, CharClass.continuesIdentifier]
      rcases Shift.toNat_ofNat_eq_or (c.toNat + s.distance).toNat with code | zero
      · rw [code]
        exact Run.anyHolds_eq_false_of_meets (by simpa using apart)
          (Shift.holds_movedRun positive held)
      · rw [zero]
        decide
  · split at hd
    · rename_i ns found
      have inside := toUpperMany_in_identifiers _ (mem_toUpperMany found)
      have single : Run.holds ⟨c.toNat, c.toNat, 1⟩ c.toNat = true :=
        Run.holds_iff.2 ⟨Nat.le_refl _, Nat.le_refl _, Nat.mod_one _⟩
      rw [CharClass.continuesIdentifier, Run.anyHolds_of_isInside inside single] at h
      cases h
    · rwa [List.mem_singleton.1 hd]

end Uppercase

end CaseMap

end RobotAnalysis
