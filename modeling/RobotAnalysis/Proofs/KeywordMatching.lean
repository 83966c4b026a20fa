import Mathlib.Data.List.TakeWhile
import RobotAnalysis.Symbol

/-!
# What calls of a keyword look like

A keyword matches a text by a pattern of atoms. Said without them: the name is cut at its variables
into literals, and the text, or what comes behind a qualifier in it, is cut into pieces that are the
literals up to case and the extent of their blanks, with any text in one line in the place of each
variable.
-/
namespace RobotAnalysis

open CharClass (isBlank isNameBlank continuesIdentifier)

namespace Run

theorem exists_of_anyHolds {rs : List Run} {n : Nat} (h : anyHolds rs n = true) :
    ∃ r ∈ rs, r.first ≤ n ∧ n ≤ r.last := by
  induction rs with
  | nil => cases h
  | cons r rs ih =>
    rw [anyHolds] at h
    split at h
    · cases h
    · rw [Bool.or_eq_true] at h
      rcases h with here | later
      · simp only [holds, Bool.and_eq_true, decide_eq_true_eq] at here
        exact ⟨r, List.mem_cons_self, here.1.1, here.1.2⟩
      · obtain ⟨s, hs, bounds⟩ := ih later
        exact ⟨s, List.mem_cons_of_mem _ hs, bounds⟩

/-- Whether no code point lies in a run of both tables. -/
def Apart (rs ss : List Run) : Prop := ∀ r ∈ rs, ∀ s ∈ ss, r.last < s.first ∨ s.last < r.first

instance (rs ss : List Run) : Decidable (Apart rs ss) :=
  inferInstanceAs (Decidable (∀ r ∈ rs, ∀ s ∈ ss, r.last < s.first ∨ s.last < r.first))

theorem Apart.anyHolds_eq_false {rs ss : List Run} (apart : Apart rs ss) {n : Nat}
    (h : ∃ r ∈ rs, r.first ≤ n ∧ n ≤ r.last) : anyHolds ss n = false := by
  obtain ⟨r, hr, above, below⟩ := h
  by_contra held
  obtain ⟨s, hs, above', below'⟩ := exists_of_anyHolds (Bool.not_eq_false _ ▸ held)
  rcases apart r hr s hs with first | second <;> omega

end Run

namespace Shift

theorem exists_of_image? {ss : List Shift} {n m : Nat} (h : image? ss n = some m) :
    ∃ s ∈ ss, s.run.first ≤ n ∧ n ≤ s.run.last ∧ m = (n + s.distance).toNat := by
  induction ss with
  | nil => cases h
  | cons s ss ih =>
    rw [image?] at h
    split at h
    · cases h
    · split at h
      · rename_i here
        simp only [Run.holds, Bool.and_eq_true, decide_eq_true_eq] at here
        exact ⟨s, List.mem_cons_self, here.1.1, here.1.2, (Option.some.inj h).symm⟩
      · obtain ⟨r, hr, bounds⟩ := ih h
        exact ⟨r, List.mem_cons_of_mem _ hr, bounds⟩

/-- Where the code points of a run are moved to. -/
def imageRun (s : Shift) : Run :=
  ⟨(s.run.first + s.distance).toNat, (s.run.last + s.distance).toNat, 1⟩

end Shift

namespace CharTable

/-- The blanks of names. -/
def nameBlanks : List Run := ⟨0x5F, 0x5F, 1⟩ :: whiteSpace

/-- The moves of case folding, the exceptions first. -/
def foldings : List Shift := foldException ++ toLower

end CharTable

open CharTable (nameBlanks foldings)

theorem CharClass.exists_of_isNameBlank {c : Char} (h : isNameBlank c = true) :
    ∃ r ∈ nameBlanks, r.first ≤ c.toNat ∧ c.toNat ≤ r.last := by
  rw [isNameBlank, Bool.or_eq_true, beq_iff_eq] at h
  rcases h with blank | rfl
  · obtain ⟨r, hr, bounds⟩ := Run.exists_of_anyHolds blank
    exact ⟨r, List.mem_cons_of_mem _ hr, bounds⟩
  · exact ⟨_, List.mem_cons_self, by decide⟩

/-- Case folding leaves a character as it is or moves it along one of the foldings. -/
theorem CaseMap.fold_eq_or (c : Char) : fold c = c ∨ ∃ s ∈ foldings,
    (s.run.first ≤ c.toNat ∧ c.toNat ≤ s.run.last) ∧
      fold c = Char.ofNat (c.toNat + s.distance).toNat := by
  rw [fold]
  split
  · rename_i n found
    obtain ⟨s, hs, above, below, rfl⟩ := Shift.exists_of_image? found
    exact .inr ⟨s, List.mem_append_left _ hs, ⟨above, below⟩, rfl⟩
  · split
    · rename_i n found
      obtain ⟨s, hs, above, below, rfl⟩ := Shift.exists_of_image? found
      exact .inr ⟨s, List.mem_append_right _ hs, ⟨above, below⟩, rfl⟩
    · exact .inl rfl

/-- Case folding neither takes a blank away nor makes one. -/
@[simp] theorem CharClass.isNameBlank_fold (c : Char) :
    isNameBlank (CaseMap.fold c) = isNameBlank c := by
  have sources : Run.Apart nameBlanks (foldings.map Shift.run) := by decide +kernel
  have images : Run.Apart nameBlanks (foldings.map Shift.imageRun) := by decide +kernel
  rcases CaseMap.fold_eq_or c with same | ⟨s, hs, ⟨above, below⟩, moved⟩
  · rw [same]
  · have before : isNameBlank c = false := by
      by_contra blank
      obtain ⟨r, hr, first, last⟩ := exists_of_isNameBlank (Bool.not_eq_false _ ▸ blank)
      rcases sources r hr s.run (List.mem_map_of_mem hs) with low | high <;> omega
    have after : isNameBlank (CaseMap.fold c) = false := by
      by_contra blank
      obtain ⟨r, hr, first, last⟩ := exists_of_isNameBlank (Bool.not_eq_false _ ▸ blank)
      have code : (CaseMap.fold c).toNat = (c.toNat + s.distance).toNat ∨
          (CaseMap.fold c).toNat = 0 := by
        rw [moved, Char.ofNat]
        by_cases valid : (c.toNat + s.distance).toNat.isValidChar
        · rw [dif_pos valid]
          exact .inl rfl
        · rw [dif_neg valid]
          exact .inr rfl
      rcases code with code | zero
      · have elsewhere := images r hr s.imageRun (List.mem_map_of_mem hs)
        simp only [Shift.imageRun] at elsewhere
        omega
      · have positive : ∀ r ∈ nameBlanks, 0 < r.first := by decide
        have := positive r hr
        omega
    rw [before, after]

namespace Text

/-- The text with every run of blanks of a name as one space; `inBlanks` says whether a run is
already open. -/
def collapseBlanks (inBlanks : Bool) : Text → Text
  | [] => []
  | c :: t =>
    if isNameBlank c then
      if inBlanks then collapseBlanks true t else ' ' :: collapseBlanks true t
    else c :: collapseBlanks false t

/-- Whether two texts are equal up to case and the extent of their runs of blanks. -/
def Alike (s t : Text) : Prop :=
  collapseBlanks false (s.map CaseMap.fold) = collapseBlanks false (t.map CaseMap.fold)

variable {s t : Text} {c : Char}

theorem collapseBlanks_cons_of_not_blank (h : isNameBlank c = false) (inBlanks : Bool) :
    collapseBlanks inBlanks (c :: t) = c :: collapseBlanks false t := by
  rw [collapseBlanks, h, if_neg Bool.false_ne_true]

theorem collapseBlanks_cons_of_blank (h : isNameBlank c = true) (inBlanks : Bool) :
    collapseBlanks inBlanks (c :: t) =
      if inBlanks then collapseBlanks true t else ' ' :: collapseBlanks true t := by
  rw [collapseBlanks, h, if_pos rfl]

/-- An open run goes on over the blanks at the start. -/
theorem collapseBlanks_true (t : Text) :
    collapseBlanks true t = collapseBlanks false (t.dropWhile isNameBlank) := by
  induction t with
  | nil => rfl
  | cons c t ih =>
    cases blank : isNameBlank c with
    | true =>
      rw [collapseBlanks_cons_of_blank blank, if_pos rfl, List.dropWhile_cons_of_pos blank, ih]
    | false =>
      rw [List.dropWhile_cons_of_neg (by simp [blank]), collapseBlanks_cons_of_not_blank blank,
        collapseBlanks_cons_of_not_blank blank]

theorem collapseBlanks_run_append {run : Text} (filled : run ≠ [])
    (blank : ∀ c ∈ run, isNameBlank c = true) :
    collapseBlanks false (run ++ t) = ' ' :: collapseBlanks true t := by
  obtain ⟨c, run, rfl⟩ := List.exists_cons_of_ne_nil filled
  obtain ⟨first, others⟩ := List.forall_mem_cons.1 blank
  rw [List.cons_append, collapseBlanks_cons_of_blank first, if_neg Bool.false_ne_true,
    collapseBlanks_true, List.dropWhile_append_of_pos others, ← collapseBlanks_true]

/-- What is written of a text in an open run begins with no blank. -/
theorem head?_collapseBlanks_true (t : Text) :
    ∀ c ∈ (collapseBlanks true t).head?, isNameBlank c = false := by
  induction t with
  | nil => nofun
  | cons c t ih =>
    cases blank : isNameBlank c with
    | true => rwa [collapseBlanks_cons_of_blank blank, if_pos rfl]
    | false =>
      rw [collapseBlanks_cons_of_not_blank blank]
      rintro d ⟨⟩
      exact blank

/-- A text that is written like one in an open run begins with no blank itself. -/
theorem collapseBlanks_true_eq_false (h : collapseBlanks true s = collapseBlanks false t) :
    collapseBlanks true t = collapseBlanks false t := by
  cases t with
  | nil => rfl
  | cons c t =>
    cases blank : isNameBlank c with
    | true =>
      rw [collapseBlanks_cons_of_blank blank, if_neg Bool.false_ne_true] at h
      have first := head?_collapseBlanks_true s ' ' (by rw [h]; rfl)
      exact absurd first (by decide)
    | false =>
      rw [collapseBlanks_cons_of_not_blank blank, collapseBlanks_cons_of_not_blank blank]

theorem dropWhile_map_fold (t : Text) : (t.map CaseMap.fold).dropWhile isNameBlank =
    (t.dropWhile isNameBlank).map CaseMap.fold := by
  have same : isNameBlank ∘ CaseMap.fold = isNameBlank := funext fun c => by simp
  rw [List.dropWhile_map, same]

/-- A visible character is written first where the text begins with one that folds to it. -/
theorem cons_eq_collapseBlanks_iff (visible : isNameBlank c = false) :
    c :: s = collapseBlanks false (t.map CaseMap.fold) ↔
      ∃ d rest, t = d :: rest ∧ c = CaseMap.fold d ∧
        s = collapseBlanks false (rest.map CaseMap.fold) := by
  constructor
  · intro written
    cases t with
    | nil => cases written
    | cons d rest =>
      rw [List.map_cons] at written
      cases blank : isNameBlank (CaseMap.fold d) with
      | true =>
        rw [collapseBlanks_cons_of_blank blank, if_neg Bool.false_ne_true] at written
        rw [(List.cons.inj written).1] at visible
        exact absurd visible (by decide)
      | false =>
        rw [collapseBlanks_cons_of_not_blank blank] at written
        obtain ⟨same, behind⟩ := List.cons.inj written
        exact ⟨d, rest, rfl, same, behind⟩
  · rintro ⟨d, rest, rfl, rfl, rfl⟩
    rw [List.map_cons, collapseBlanks_cons_of_not_blank visible]

/-- A space is written in front of an open run where the text begins with blanks. -/
theorem space_cons_eq_collapseBlanks_iff :
    ' ' :: collapseBlanks true s = collapseBlanks false (t.map CaseMap.fold) ↔
      ∃ run rest, t = run ++ rest ∧ run ≠ [] ∧ (∀ d ∈ run, isNameBlank d = true) ∧
        collapseBlanks true s = collapseBlanks false (rest.map CaseMap.fold) := by
  constructor
  · intro written
    cases t with
    | nil => cases written
    | cons d t =>
      rw [List.map_cons] at written
      cases blank : isNameBlank (CaseMap.fold d) with
      | false =>
        rw [collapseBlanks_cons_of_not_blank blank] at written
        rw [← (List.cons.inj written).1] at blank
        exact absurd blank (by decide)
      | true =>
        rw [collapseBlanks_cons_of_blank blank, if_neg Bool.false_ne_true,
          collapseBlanks_true (List.map _ t), dropWhile_map_fold] at written
        rw [CharClass.isNameBlank_fold] at blank
        refine ⟨d :: t.takeWhile isNameBlank, t.dropWhile isNameBlank, ?_, List.cons_ne_nil _ _,
          List.forall_mem_cons.2 ⟨blank, fun e he => List.mem_takeWhile_imp he⟩,
          (List.cons.inj written).2⟩
        rw [List.cons_append, List.takeWhile_append_dropWhile]
  · rintro ⟨run, rest, rfl, filled, all, written⟩
    rw [List.map_append, collapseBlanks_run_append (mt List.map_eq_nil_iff.1 filled)
      (by simpa using all), collapseBlanks_true_eq_false written, written]

end Text

namespace VariableToken

/-- The texts before, between and behind the variables among some pieces. -/
def literals : List Piece → List Text
  | [] => [[]]
  | .char c :: ps => (literals ps).modifyHead (c :: ·)
  | .token _ :: ps => [] :: literals ps

end VariableToken

/-- Whether a text consists of pieces that are like some literals, one after the other, with any
text without a line feed in each place between two of them. -/
inductive FitsLiterals : List Text → Text → Prop
  | last {l t : Text} (like : l.Alike t) : FitsLiterals [l] t
  | gap {l piece gap rest : Text} {ls : List Text} (like : l.Alike piece) (oneLine : '\n' ∉ gap)
      (behind : FitsLiterals ls rest) : FitsLiterals (l :: ls) (piece ++ gap ++ rest)

namespace FitsLiterals

variable {l t : Text} {ls : List Text}

theorem ne_nil (h : FitsLiterals ls t) : ls ≠ [] := by
  cases h <;> exact List.cons_ne_nil _ _

theorem singleton_iff : FitsLiterals [l] t ↔ l.Alike t := by
  refine ⟨fun h => ?_, last⟩
  cases h with
  | last like => exact like
  | gap _ _ behind => exact absurd rfl behind.ne_nil

theorem cons_iff (more : ls ≠ []) : FitsLiterals (l :: ls) t ↔
    ∃ piece gap rest, t = piece ++ gap ++ rest ∧ l.Alike piece ∧ '\n' ∉ gap ∧
      FitsLiterals ls rest := by
  constructor
  · intro h
    cases h with
    | last => exact absurd rfl more
    | gap like oneLine behind => exact ⟨_, _, _, rfl, like, oneLine, behind⟩
  · rintro ⟨piece, between, rest, rfl, like, oneLine, behind⟩
    exact gap like oneLine behind

end FitsLiterals

namespace Atom

variable {as : List Atom} {t : Text}

theorem accepts_char_iff {d : Char} : accepts (.char d :: as) t ↔
    ∃ c rest, t = c :: rest ∧ CaseMap.fold d = CaseMap.fold c ∧ accepts as rest = true := by
  cases t with
  | nil => simp [skips]
  | cons c t => simp [accepts_cons_cons, takes, repeats, skips, CaseMap.same, and_assoc]

theorem accepts_gap_iff : accepts (.gap :: as) t ↔
    ∃ gap rest, t = gap ++ rest ∧ '\n' ∉ gap ∧ accepts as rest = true := by
  induction t with
  | nil =>
    rw [accepts_cons_nil, skips, Bool.true_and]
    constructor
    · intro h
      exact ⟨[], [], rfl, List.not_mem_nil, h⟩
    · rintro ⟨gap, rest, whole, -, h⟩
      rwa [(List.append_eq_nil_iff.1 whole.symm).2] at h
  | cons c t ih =>
    rw [accepts_cons_cons]
    simp only [takes, repeats, skips, Bool.true_and, Bool.or_eq_true, Bool.and_eq_true, bne_iff_ne,
      ih]
    constructor
    · rintro (⟨inside, now | ⟨gap, rest, rfl, oneLine, h⟩⟩ | h)
      · exact ⟨[c], t, rfl, by simpa using inside.symm, now⟩
      · exact ⟨c :: gap, rest, rfl, by simpa using ⟨inside.symm, oneLine⟩, h⟩
      · exact ⟨[], c :: t, rfl, List.not_mem_nil, h⟩
    · rintro ⟨gap, rest, whole, oneLine, h⟩
      cases gap with
      | nil => exact .inr (whole ▸ h)
      | cons d gap =>
        obtain ⟨rfl, rfl⟩ := List.cons.inj whole
        rw [List.mem_cons, not_or] at oneLine
        exact .inl ⟨Ne.symm oneLine.1, .inr ⟨gap, rest, rfl, oneLine.2, h⟩⟩

theorem accepts_blankRun_iff : accepts (.blankRun :: as) t ↔
    ∃ run rest, t = run ++ rest ∧ run ≠ [] ∧ (∀ c ∈ run, isNameBlank c = true) ∧
      accepts as rest = true := by
  induction t with
  | nil =>
    rw [accepts_cons_nil, skips, Bool.false_and]
    simp
  | cons c t ih =>
    rw [accepts_cons_cons]
    simp only [takes, repeats, skips, Bool.true_and, Bool.false_and, Bool.or_false,
      Bool.or_eq_true, Bool.and_eq_true, ih]
    constructor
    · rintro ⟨blank, now | ⟨run, rest, rfl, -, all, h⟩⟩
      · exact ⟨[c], t, rfl, List.cons_ne_nil _ _, by simpa using blank, now⟩
      · exact ⟨c :: run, rest, rfl, List.cons_ne_nil _ _, List.forall_mem_cons.2 ⟨blank, all⟩, h⟩
    · rintro ⟨run, rest, whole, filled, all, h⟩
      cases run with
      | nil => exact absurd rfl filled
      | cons d run =>
        obtain ⟨rfl, rfl⟩ := List.cons.inj whole
        obtain ⟨blank, others⟩ := List.forall_mem_cons.1 all
        refine ⟨blank, ?_⟩
        by_cases empty : run = []
        · exact .inl (empty ▸ h)
        · exact .inr ⟨run, rest, rfl, empty, others, h⟩

/-- The characters of a qualifier are read one by one. -/
theorem accepts_map_char_append_iff {u : Text} : accepts (u.map .char ++ as) t ↔
    ∃ front rest, t = front ++ rest ∧ front.map CaseMap.fold = u.map CaseMap.fold ∧
      accepts as rest = true := by
  induction u generalizing t with
  | nil =>
    constructor
    · intro h
      exact ⟨[], t, rfl, rfl, h⟩
    · rintro ⟨front, rest, rfl, none, h⟩
      rwa [List.map_eq_nil_iff.1 none]
  | cons d u ih =>
    rw [List.map_cons, List.cons_append, accepts_char_iff]
    constructor
    · rintro ⟨c, rest, rfl, same, h⟩
      obtain ⟨front, behind, rfl, folded, h⟩ := ih.1 h
      exact ⟨c :: front, behind, rfl, by rw [List.map_cons, folded, ← same, List.map_cons], h⟩
    · rintro ⟨front, rest, rfl, folded, h⟩
      cases front with
      | nil => cases folded
      | cons c front =>
        obtain ⟨same, folded⟩ := List.cons.inj folded
        exact ⟨c, front ++ rest, rfl, same.symm, ih.2 ⟨front, rest, rfl, folded, h⟩⟩

end Atom

namespace KeywordPattern

open VariableToken (Piece literals)

variable {as : List Atom} {l t : Text}

/-- The atoms of a literal take a text that is written as the literal is. -/
theorem accepts_literal_append_iff (inBlanks : Bool) :
    Atom.accepts (bodyOf inBlanks (l.map .char) ++ as) t ↔
      ∃ piece rest, t = piece ++ rest ∧
        Text.collapseBlanks inBlanks (l.map CaseMap.fold) =
          Text.collapseBlanks false (piece.map CaseMap.fold) ∧
        Atom.accepts as rest = true := by
  induction l generalizing inBlanks t with
  | nil =>
    constructor
    · intro h
      exact ⟨[], t, rfl, rfl, h⟩
    · rintro ⟨piece, rest, rfl, none, h⟩
      cases piece with
      | nil => exact h
      | cons c piece =>
        rw [List.map_cons, Text.collapseBlanks] at none
        split at none <;> cases none
  | cons c l ih =>
    rw [List.map_cons, List.map_cons, bodyOf]
    cases blank : isNameBlank c with
    | false =>
      have kept : isNameBlank (CaseMap.fold c) = false := by simpa using blank
      rw [if_neg Bool.false_ne_true, List.cons_append, Atom.accepts_char_iff,
        Text.collapseBlanks_cons_of_not_blank kept]
      constructor
      · rintro ⟨d, rest, rfl, same, h⟩
        obtain ⟨piece, behind, rfl, written, h⟩ := (ih false).1 h
        have longer := (Text.cons_eq_collapseBlanks_iff kept).2 ⟨d, piece, rfl, same, written⟩
        exact ⟨d :: piece, behind, rfl, longer, h⟩
      · rintro ⟨piece, rest, rfl, written, h⟩
        obtain ⟨d, inner, rfl, same, behind⟩ := (Text.cons_eq_collapseBlanks_iff kept).1 written
        exact ⟨d, inner ++ rest, rfl, same, (ih false).2 ⟨inner, rest, rfl, behind, h⟩⟩
    | true =>
      have kept : isNameBlank (CaseMap.fold c) = true := by simpa using blank
      rw [if_pos rfl, Text.collapseBlanks_cons_of_blank kept]
      cases inBlanks with
      | true => exact ih true
      | false =>
        rw [if_neg Bool.false_ne_true, if_neg Bool.false_ne_true, List.cons_append,
          Atom.accepts_blankRun_iff]
        constructor
        · rintro ⟨run, rest, rfl, filled, all, h⟩
          obtain ⟨piece, behind, rfl, written, h⟩ := (ih true).1 h
          have longer := Text.space_cons_eq_collapseBlanks_iff.2
            ⟨run, piece, rfl, filled, all, written⟩
          exact ⟨run ++ piece, behind, (List.append_assoc _ _ _).symm, longer, h⟩
        · rintro ⟨piece, rest, rfl, written, h⟩
          obtain ⟨run, inner, rfl, filled, all, behind⟩ :=
            Text.space_cons_eq_collapseBlanks_iff.1 written
          exact ⟨run, inner ++ rest, List.append_assoc _ _ _, filled, all,
            (ih true).2 ⟨inner, rest, rfl, behind, h⟩⟩

theorem literals_ne_nil (ps : List Piece) : literals ps ≠ [] := by
  induction ps with
  | nil => exact List.cons_ne_nil _ _
  | cons p ps ih =>
    cases p with
    | char c => exact mt List.modifyHead_eq_nil_iff.1 ih
    | token v => exact List.cons_ne_nil _ _

theorem modifyHead_nil_append (ls : List Text) : ls.modifyHead ([] ++ ·) = ls := by
  cases ls <;> rfl

/-- The atoms of some pieces, of which the first literal has been read up to some point, take the
texts that fit the literals. -/
theorem accepts_bodyOf_append_iff (l : Text) (ps : List Piece) (t : Text) :
    Atom.accepts (bodyOf false (l.map .char ++ ps)) t ↔
      FitsLiterals ((literals ps).modifyHead (l ++ ·)) t := by
  induction ps generalizing l t with
  | nil =>
    have alone : Atom.accepts (bodyOf false (l.map .char) ++ []) t ↔ _ :=
      accepts_literal_append_iff false
    rw [List.append_nil] at alone ⊢
    rw [alone, literals, List.modifyHead_cons, List.append_nil, FitsLiterals.singleton_iff,
      Text.Alike]
    constructor
    · rintro ⟨piece, rest, rfl, written, h⟩
      rw [Atom.accepts_nil, List.isEmpty_iff] at h
      rwa [h, List.append_nil]
    · intro written
      exact ⟨t, [], (List.append_nil t).symm, written, rfl⟩
  | cons p ps ih =>
    cases p with
    | char c =>
      have moved := ih (l ++ [c]) t
      rw [List.map_append, List.append_assoc] at moved
      rw [literals, List.modifyHead_modifyHead]
      refine moved.trans ?_
      simp [Function.comp_def]
    | token v =>
      rw [bodyOf_append_token, accepts_literal_append_iff, literals, List.modifyHead_cons,
        List.append_nil, FitsLiterals.cons_iff (literals_ne_nil ps)]
      have next (rest : Text) :
          Atom.accepts (bodyOf false ps) rest ↔ FitsLiterals (literals ps) rest := by
        have h := ih [] rest
        rwa [modifyHead_nil_append] at h
      constructor
      · rintro ⟨piece, rest, rfl, written, h⟩
        obtain ⟨gap, behind, rfl, oneLine, h⟩ := Atom.accepts_gap_iff.1 h
        exact ⟨piece, gap, behind, (List.append_assoc _ _ _).symm, written, oneLine,
          (next behind).1 h⟩
      · rintro ⟨piece, gap, rest, rfl, written, oneLine, h⟩
        refine ⟨piece, gap ++ rest, List.append_assoc _ _ _, written, ?_⟩
        exact Atom.accepts_gap_iff.2 ⟨gap, rest, rfl, oneLine, (next rest).2 h⟩

/-- The atoms of a name take the texts that fit its literals. -/
theorem accepts_bodyOf_iff (ps : List Piece) (t : Text) :
    Atom.accepts (bodyOf false ps) t ↔ FitsLiterals (literals ps) t := by
  have h := accepts_bodyOf_append_iff [] ps t
  rwa [modifyHead_nil_append] at h

end KeywordPattern

namespace Name

/-- Characters of identifiers are no blanks. -/
theorem isBlank_of_continuesIdentifier {c : Char} (h : continuesIdentifier c = true) :
    isBlank c = false := by
  have apart : Run.Apart CharTable.identifierContinue CharTable.whiteSpace := by decide +kernel
  exact apart.anyHolds_eq_false (Run.exists_of_anyHolds h)

/-- The words of an identifier do not begin with a blank that is not in it. -/
theorem head?_splitIdentifier (before : Option Char) (t : Text) :
    ∀ c ∈ (splitIdentifier false before t).head?, c ∈ t := by
  induction t generalizing before with
  | nil => nofun
  | cons d t ih =>
    rw [splitIdentifier]
    split
    · rw [if_neg Bool.false_ne_true]
      exact fun c hc => List.mem_cons_of_mem _ (ih (some d) c hc)
    · rw [Bool.and_false, if_neg Bool.false_ne_true]
      rintro c ⟨⟩
      exact List.mem_cons_self

theorem trim_ofFunction (name : Text) : (ofFunction name).trim = ofFunction name := by
  rw [ofFunction]
  split
  · exact Text.trim_trim name
  · rename_i identifier
    have continues : ∀ c ∈ name.trim, continuesIdentifier c = true := by
      rw [Bool.or_eq_true, not_or] at identifier
      simpa using identifier.2
    have start : (splitIdentifier false none name.trim).trimStart =
        splitIdentifier false none name.trim := by
      have first := head?_splitIdentifier none name.trim
      generalize splitIdentifier false none name.trim = words at first ⊢
      cases words with
      | nil => rfl
      | cons c rest =>
        have visible := isBlank_of_continuesIdentifier (continues c (first c rfl))
        exact List.dropWhile_cons_of_neg (by simp [visible])
    rw [Text.trim_trimEnd, Text.trim, start]

theorem mem_ofFunction {name : Text} {c : Char} (h : c ∈ ofFunction name) :
    c = ' ' ∨ c ∈ name := by
  rw [ofFunction] at h
  split at h
  · exact .inr ((Text.trim_sublist name).mem h)
  · exact (mem_splitIdentifier ((Text.trimEnd_sublist _).mem h)).imp_right
      (Text.trim_sublist name).mem

end Name

/-- A text without line feeds fits the literals of its own pieces. -/
theorem VariableToken.fits_literals (l : Text) (ps : List Piece)
    (oneLine : '\n' ∉ ps.flatMap Piece.text) :
    FitsLiterals ((literals ps).modifyHead (l ++ ·)) (l ++ ps.flatMap Piece.text) := by
  induction ps generalizing l with
  | nil =>
    rw [literals, List.modifyHead_cons, List.flatMap_nil]
    exact .last rfl
  | cons p ps ih =>
    rw [List.flatMap_cons, List.mem_append, not_or] at oneLine
    cases p with
    | char c =>
      have moved := ih (l ++ [c]) oneLine.2
      rw [List.append_assoc] at moved
      rw [literals, List.modifyHead_modifyHead]
      simpa [Function.comp_def, Piece.text] using moved
    | token v =>
      have behind := ih [] oneLine.2
      rw [KeywordPattern.modifyHead_nil_append] at behind
      rw [literals, List.modifyHead_cons, List.append_nil, List.flatMap_cons, ← List.append_assoc]
      exact .gap rfl oneLine.1 behind

namespace Keyword

open VariableToken (literals pieces)

/-- Whether a called text fits the literals of a name, or does behind the qualifier and its
separator, which are given up to case. An empty qualifier is none. -/
def FitsCall (qualifier : Option Text) (words : List Text) (called : Text) : Prop :=
  FitsLiterals words called ∨
    ∃ q ∈ qualifier, q ≠ [] ∧ ∃ front rest, called = front ++ rest ∧
      front.map CaseMap.fold = (q ++ [KeywordPattern.separator]).map CaseMap.fold ∧
      FitsLiterals words rest

theorem accepts_ofName_iff (qualifier : Option Text) (name called : Text) :
    (KeywordPattern.ofName qualifier name).accepts called ↔
      FitsCall qualifier (literals (pieces name)) called := by
  have body := KeywordPattern.accepts_bodyOf_iff (pieces name)
  have qualified (q : Text) :
      Atom.accepts (KeywordPattern.qualifierAtoms q ++
          KeywordPattern.bodyOf false (pieces name)) called ↔
        ∃ front rest, called = front ++ rest ∧
          front.map CaseMap.fold = (q ++ [KeywordPattern.separator]).map CaseMap.fold ∧
          FitsLiterals (literals (pieces name)) rest := by
    have atoms : KeywordPattern.qualifierAtoms q =
        (q ++ [KeywordPattern.separator]).map .char := by
      simp [KeywordPattern.qualifierAtoms]
    simp only [atoms, Atom.accepts_map_char_append_iff, body]
  rw [KeywordPattern.accepts, Bool.or_eq_true]
  refine or_congr (body called) ?_
  cases qualifier with
  | none => simp [KeywordPattern.ofName]
  | some q =>
    by_cases empty : q = []
    · simp [KeywordPattern.ofName, empty]
    · have kept : (KeywordPattern.ofName (some q) name).qualifier = some q := by
        simp [KeywordPattern.ofName, empty]
      rw [kept, Option.any_some]
      simpa [empty, KeywordPattern.ofName] using qualified q

theorem fitsCall_filter {qualifier : Option Text} {words : List Text} {called : Text} :
    FitsCall (qualifier.filter fun q => !q.isEmpty) words called ↔
      FitsCall qualifier words called := by
  cases qualifier with
  | none => rfl
  | some q =>
    by_cases empty : q = []
    · simp [FitsCall, empty]
    · rw [Option.filter_some, if_pos (by simpa using empty)]

/-- A text calls a keyword if its words, or what comes behind the qualifier and a dot, are those of
the name up to case and blanks, with any text in one line for each variable in it. A name in one
line calls its own keyword. -/
theorem isCalledBy_iff (qualifier : Option Text) (name : Text) (takesArguments : Bool)
    (location : Location) :
    let k := declare qualifier name takesArguments location
    (∀ text, k.isCalledBy text ↔ FitsCall qualifier (literals (pieces (Name.ofFunction name)))
        (Name.ofFunction text).trim) ∧
      ('\n' ∉ name → k.isCalledBy name) := by
  intro k
  have calls (text : Text) : k.isCalledBy text ↔ FitsCall qualifier
      (literals (pieces (Name.ofFunction name))) (Name.ofFunction text).trim :=
    (accepts_ofName_iff _ _ _).trans fitsCall_filter
  refine ⟨calls, fun oneLine => (calls name).2 (.inl ?_)⟩
  have own := VariableToken.fits_literals [] (pieces (Name.ofFunction name))
  rw [KeywordPattern.modifyHead_nil_append, List.nil_append, pieces,
    VariableToken.flatMap_text_piecesAfter] at own
  rw [Name.trim_ofFunction]
  refine own fun feed => ?_
  rcases Name.mem_ofFunction feed with blank | inside
  · exact absurd blank (by decide)
  · exact oneLine inside

/-- A qualified call of a keyword with a variable in its name. -/
theorem isCalledBy_iff_embedded :
    let name : Text := "Open $\x7bpage\x7d Page".toList
    let text : Text := "lib.open  the FIRST_page".toList
    let k := declare (some "Lib".toList) name true (.document ⟨0⟩ ⟨0, 17⟩)
    literals (pieces (Name.ofFunction name)) = ["Open ".toList, " Page".toList] ∧
      FitsCall (some "Lib".toList) ["Open ".toList, " Page".toList] text ∧
      '\n' ∉ name ∧ k.isCalledBy name := by
  intro name text k
  have words : literals (pieces (Name.ofFunction name)) = ["Open ".toList, " Page".toList] := by
    decide +kernel
  have trimmed : (Name.ofFunction text).trim = text := by decide +kernel
  have oneLine : '\n' ∉ name := by decide +kernel
  obtain ⟨calls, own⟩ := isCalledBy_iff (some "Lib".toList) name true (.document ⟨0⟩ ⟨0, 17⟩)
  have called : k.isCalledBy text := by decide +kernel
  rw [calls, words, trimmed] at called
  exact ⟨words, called, oneLine, own oneLine⟩

end Keyword

end RobotAnalysis
