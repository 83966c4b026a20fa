import Mathlib.Data.Bool.AllAny
import RobotAnalysis.Proofs.BareNames
import RobotAnalysis.Proofs.ShownSpans

/-!
# What usages of a variable look like

A variable matches a usage by a pattern of atoms. Said without them: a usage is any sigil and, in
braces, the name with blanks anywhere, in any case and with any text for each variable nested in it.
An attribute or item may follow the name, and items the braces.
-/
namespace RobotAnalysis

open CharClass (isBlank isNameBlank)

namespace Atom

variable {as : List Atom} {t : Text}

theorem accepts_oneOf_iff {cs : List Char} : accepts (.oneOf cs :: as) t ↔
    ∃ c rest, t = c :: rest ∧ c ∈ cs ∧ accepts as rest = true := by
  cases t with
  | nil => simp [skips]
  | cons c t => simp [accepts_cons_cons, takes, repeats, skips, and_assoc]

/-- A mark of ASCII is read as it is. -/
theorem accepts_mark_iff {m : Char} (mark : Run.Covers CharTable.asciiMarks m) :
    accepts (.char m :: as) t ↔ ∃ rest, t = m :: rest ∧ accepts as rest = true := by
  have alone (c : Char) : CaseMap.fold m = CaseMap.fold c ↔ c = m := by
    rw [(CaseMap.fold_eq_iff_of_mark mark).2 rfl, eq_comm, CaseMap.fold_eq_iff_of_mark mark]
  rw [accepts_char_iff]
  simp only [alone]
  constructor
  · rintro ⟨c, rest, rfl, rfl, h⟩
    exact ⟨rest, rfl, h⟩
  · rintro ⟨rest, rfl, h⟩
    exact ⟨m, rest, rfl, rfl, h⟩

theorem accepts_blanks_iff : accepts (.blanks :: as) t ↔
    ∃ run rest, t = run ++ rest ∧ (∀ c ∈ run, isNameBlank c = true) ∧ accepts as rest = true := by
  induction t with
  | nil =>
    rw [accepts_cons_nil, skips, Bool.true_and]
    constructor
    · intro h
      exact ⟨[], [], rfl, List.forall_mem_nil _, h⟩
    · rintro ⟨run, rest, whole, -, h⟩
      rwa [(List.append_eq_nil_iff.1 whole.symm).2] at h
  | cons c t ih =>
    rw [accepts_cons_cons]
    simp only [takes, repeats, skips, Bool.true_and, Bool.or_eq_true, Bool.and_eq_true, ih]
    constructor
    · rintro (⟨blank, now | ⟨run, rest, rfl, all, h⟩⟩ | h)
      · exact ⟨[c], t, rfl, by simpa using blank, now⟩
      · exact ⟨c :: run, rest, rfl, List.forall_mem_cons.2 ⟨blank, all⟩, h⟩
      · exact ⟨[], c :: t, rfl, List.forall_mem_nil _, h⟩
    · rintro ⟨run, rest, whole, all, h⟩
      cases run with
      | nil => exact .inr (whole ▸ h)
      | cons d run =>
        obtain ⟨rfl, rfl⟩ := List.cons.inj whole
        obtain ⟨blank, others⟩ := List.forall_mem_cons.1 all
        exact .inl ⟨blank, .inr ⟨run, rest, rfl, others, h⟩⟩

theorem accepts_blanks_char_iff {c : Char} : accepts (.blanks :: .char c :: as) t ↔
    ∃ run d rest, t = run ++ d :: rest ∧ (∀ e ∈ run, isNameBlank e = true) ∧
      CaseMap.fold d = CaseMap.fold c ∧ accepts as rest = true := by
  rw [accepts_blanks_iff]
  constructor
  · rintro ⟨run, behind, rfl, blank, h⟩
    obtain ⟨d, rest, rfl, same, h⟩ := accepts_char_iff.1 h
    exact ⟨run, d, rest, rfl, blank, same.symm, h⟩
  · rintro ⟨run, d, rest, rfl, blank, same, h⟩
    exact ⟨run, d :: rest, rfl, blank, accepts_char_iff.2 ⟨d, rest, rfl, same.symm, h⟩⟩

/-- A gap in one line takes the blanks behind it as well as those before it. -/
theorem accepts_blanks_gap_iff (oneLine : '\n' ∉ t) : accepts (.blanks :: .gap :: as) t ↔
    ∃ front rest, t = front ++ rest ∧ accepts (.blanks :: as) rest = true := by
  rw [accepts_blanks_iff]
  constructor
  · rintro ⟨run, behind, rfl, -, h⟩
    obtain ⟨gap, rest, rfl, -, h⟩ := accepts_gap_iff.1 h
    refine ⟨run ++ gap, rest, (List.append_assoc _ _ _).symm, ?_⟩
    exact accepts_blanks_iff.2 ⟨[], rest, rfl, List.forall_mem_nil _, h⟩
  · rintro ⟨front, behind, rfl, h⟩
    obtain ⟨run, rest, rfl, -, h⟩ := accepts_blanks_iff.1 h
    refine ⟨[], front ++ (run ++ rest), rfl, List.forall_mem_nil _, accepts_gap_iff.2 ?_⟩
    refine ⟨front ++ run, rest, (List.append_assoc _ _ _).symm, fun feed => oneLine ?_, h⟩
    rw [← List.append_assoc]
    exact List.mem_append_left _ feed

end Atom

namespace VariableToken

/-- Whether a text arises from some pieces when any text is written for each variable. -/
inductive Filled : List Piece → Text → Prop
  | nil : Filled [] []
  | char (c : Char) {ps : List Piece} {t : Text} (rest : Filled ps t) :
      Filled (.char c :: ps) (c :: t)
  | token (v filling : Text) {ps : List Piece} {t : Text} (rest : Filled ps t) :
      Filled (.token v :: ps) (filling ++ t)

/-- A text arises from its own pieces. -/
theorem filled_flatMap_text (ps : List Piece) : Filled ps (ps.flatMap Piece.text) := by
  induction ps with
  | nil => exact .nil
  | cons p ps ih =>
    cases p with
    | char c => exact .char c ih
    | token v => exact .token v v ih

/-- From characters alone only they arise. -/
theorem filled_map_char_iff {name t : Text} : Filled (name.map .char) t ↔ t = name := by
  constructor
  · intro h
    induction name generalizing t with
    | nil =>
      cases h
      rfl
    | cons c name ih =>
      cases h with
      | char _ rest => rw [ih rest]
  · rintro rfl
    have own := filled_flatMap_text (t.map .char)
    simpa [List.flatMap_map, Piece.text] using own

/-- Whether a text is like what arises from some pieces, up to blanks and case. -/
def Arises (ps : List Piece) (w : Text) : Prop := ∃ filled, Filled ps filled ∧ w.bare = filled.bare

section Arises

variable {ps : List Piece} {c : Char} {w : Text}

theorem arises_nil_iff : Arises [] w ↔ ∀ c ∈ w, isNameBlank c = true := by
  rw [← Text.bare_eq_nil_iff]
  constructor
  · rintro ⟨_, ⟨⟩, like⟩
    exact like
  · intro like
    exact ⟨[], .nil, like⟩

theorem arises_blank_iff (blank : isNameBlank c = true) :
    Arises (.char c :: ps) w ↔ Arises ps w := by
  constructor
  · rintro ⟨_, arises, like⟩
    cases arises with
    | char _ arises =>
      rw [Text.bare_cons_of_blank blank] at like
      exact ⟨_, arises, like⟩
  · rintro ⟨filled, arises, like⟩
    exact ⟨c :: filled, .char c arises, by rw [Text.bare_cons_of_blank blank, like]⟩

theorem arises_char_iff (visible : isNameBlank c = false) : Arises (.char c :: ps) w ↔
    ∃ run d rest, w = run ++ d :: rest ∧ (∀ e ∈ run, isNameBlank e = true) ∧
      CaseMap.fold d = CaseMap.fold c ∧ Arises ps rest := by
  constructor
  · rintro ⟨_, arises, like⟩
    cases arises with
    | char _ arises =>
      rw [Text.bare_cons_of_not_blank visible] at like
      obtain ⟨run, d, rest, rfl, blanks, -, same, like⟩ := Text.exists_of_bare_eq_cons like
      exact ⟨run, d, rest, rfl, blanks, same, _, arises, like⟩
  · rintro ⟨run, d, rest, rfl, blanks, same, filled, arises, like⟩
    have shown : isNameBlank d = false := by
      rw [← CharClass.isNameBlank_fold, same, CharClass.isNameBlank_fold, visible]
    refine ⟨c :: filled, .char c arises, ?_⟩
    rw [Text.bare_append, Text.bare_eq_nil_iff.2 blanks, List.nil_append,
      Text.bare_cons_of_not_blank shown, Text.bare_cons_of_not_blank visible, same, like]

theorem arises_token_iff {v : Text} : Arises (.token v :: ps) w ↔
    ∃ front rest, w = front ++ rest ∧ Arises ps rest := by
  constructor
  · rintro ⟨_, arises, like⟩
    cases arises with
    | token _ filling arises =>
      rw [Text.bare_append] at like
      obtain ⟨front, rest, rfl, -, like⟩ := Text.exists_of_bare_eq_append like
      exact ⟨front, rest, rfl, _, arises, like⟩
  · rintro ⟨front, rest, rfl, filled, arises, like⟩
    exact ⟨front ++ filled, .token v front arises, by rw [Text.bare_append, Text.bare_append, like]⟩

end Arises

end VariableToken

namespace VariablePattern

open VariableToken (Piece Filled Arises)

variable {as : List Atom} {ps : List Piece} {t : Text}

/-- The atoms of a name take the texts that are like what arises from it. In a text of more than one
line this holds where the name has no variable in it. -/
theorem accepts_blanks_bodyOf_append_iff (oneLine : '\n' ∉ t ∨ ∀ p ∈ ps, ∃ c, p = .char c) :
    Atom.accepts (.blanks :: (bodyOf ps ++ as)) t ↔
      ∃ w rest, t = w ++ rest ∧ Arises ps w ∧ Atom.accepts as rest = true := by
  induction ps generalizing t with
  | nil =>
    rw [bodyOf, List.nil_append, Atom.accepts_blanks_iff]
    simp only [VariableToken.arises_nil_iff]
  | cons p ps ih =>
    cases p with
    | char c =>
      have inLine {u : Text} (tail : u <:+ t) : '\n' ∉ u ∨ ∀ p ∈ ps, ∃ c, p = .char c :=
        oneLine.imp (mt fun feed => tail.subset feed) fun h => (List.forall_mem_cons.1 h).2
      rw [bodyOf]
      cases blank : isNameBlank c with
      | true =>
        rw [if_pos rfl, ih (inLine (List.suffix_refl t))]
        simp only [VariableToken.arises_blank_iff blank]
      | false =>
        rw [if_neg Bool.false_ne_true, List.cons_append, List.cons_append,
          Atom.accepts_blanks_char_iff]
        simp only [VariableToken.arises_char_iff blank]
        constructor
        · rintro ⟨run, d, behind, rfl, blanks, same, h⟩
          obtain ⟨w, rest, rfl, arises, h⟩ := (ih (inLine ⟨run ++ [d], by simp⟩)).1 h
          exact ⟨run ++ d :: w, rest, by simp, ⟨run, d, w, rfl, blanks, same, arises⟩, h⟩
        · rintro ⟨_, rest, rfl, ⟨run, d, w, rfl, blanks, same, arises⟩, h⟩
          refine ⟨run, d, w ++ rest, by simp, blanks, same, ?_⟩
          exact (ih (inLine ⟨run ++ [d], by simp⟩)).2 ⟨w, rest, rfl, arises, h⟩
    | token v =>
      have oneLine : '\n' ∉ t := oneLine.resolve_right fun h => by
        obtain ⟨c, same⟩ := h _ List.mem_cons_self
        cases same
      rw [bodyOf, List.cons_append, Atom.accepts_blanks_gap_iff oneLine]
      simp only [VariableToken.arises_token_iff]
      constructor
      · rintro ⟨front, behind, rfl, h⟩
        have inLine : '\n' ∉ behind := fun feed => oneLine (List.mem_append_right _ feed)
        obtain ⟨w, rest, rfl, arises, h⟩ := (ih (.inl inLine)).1 h
        exact ⟨front ++ w, rest, (List.append_assoc _ _ _).symm, ⟨front, w, rfl, arises⟩, h⟩
      · rintro ⟨_, rest, rfl, ⟨front, w, rfl, arises⟩, h⟩
        rw [List.append_assoc] at oneLine ⊢
        have inLine : '\n' ∉ w ++ rest := fun feed => oneLine (List.mem_append_right _ feed)
        exact ⟨front, w ++ rest, rfl, (ih (.inl inLine)).2 ⟨w, rest, rfl, arises, h⟩⟩

/-- What may follow the name of a variable in its braces: nothing, an attribute or an item. -/
def IsAccess (access : Text) : Prop := ∀ c ∈ access.head?, c = '.' ∨ c = '['

theorem isAccess_nil : IsAccess [] := by simp [IsAccess]

/-- What may follow the braces of a variable: nothing, or items. -/
def IsItems (items : Text) : Prop :=
  items = [] ∨ items.head? = some '[' ∧ items.getLast? = some ']'

theorem accepts_access_append_iff : (∃ access ∈ accesses, Atom.accepts (access ++ as) t = true) ↔
    ∃ access rest, t = access ++ rest ∧ IsAccess access ∧ '\n' ∉ access ∧
      Atom.accepts as rest = true := by
  simp only [accesses, List.exists_mem_cons_iff, List.not_mem_nil, false_and, exists_false,
    or_false, List.nil_append, List.cons_append, Atom.accepts_oneOf_iff, Atom.accepts_gap_iff]
  constructor
  · rintro (h | ⟨c, behind, rfl, opens, gap, rest, rfl, oneLine, h⟩)
    · exact ⟨[], t, rfl, isAccess_nil, List.not_mem_nil, h⟩
    · have starts : c = '.' ∨ c = '[' := by simpa using opens
      refine ⟨c :: gap, rest, rfl, ?_, ?_, h⟩
      · rintro d ⟨⟩
        exact starts
      · rcases starts with rfl | rfl <;> simpa using oneLine
  · rintro ⟨access, rest, rfl, starts, oneLine, h⟩
    cases access with
    | nil => exact .inl h
    | cons c gap =>
      refine .inr ⟨c, gap ++ rest, rfl, by simpa using starts c rfl, gap, rest, rfl, ?_, h⟩
      exact fun feed => oneLine (List.mem_cons_of_mem _ feed)

theorem accepts_items_iff : (∃ item ∈ items, Atom.accepts item t = true) ↔
    IsItems t ∧ '\n' ∉ t := by
  have opening : Run.Covers CharTable.asciiMarks '[' := by decide
  have closing : Run.Covers CharTable.asciiMarks ']' := by decide
  simp only [items, List.exists_mem_cons_iff, List.not_mem_nil, false_and, exists_false, or_false,
    Atom.accepts_mark_iff opening, Atom.accepts_gap_iff, Atom.accepts_mark_iff closing,
    Atom.accepts_nil, List.isEmpty_iff]
  constructor
  · rintro (rfl | ⟨behind, rfl, gap, rest, rfl, oneLine, last, rfl, rfl⟩)
    · exact ⟨.inl rfl, List.not_mem_nil⟩
    · exact ⟨.inr ⟨rfl, by simp [List.getLast?_cons]⟩, by simpa using oneLine⟩
  · rintro ⟨rfl | ⟨first, last⟩, oneLine⟩
    · exact .inl rfl
    · obtain ⟨rest, rfl⟩ := List.head?_eq_some_iff.1 first
      cases rest with
      | nil => exact absurd last (by decide)
      | cons d rest =>
        rw [List.getLast?_cons_cons] at last
        obtain ⟨gap, whole⟩ := List.getLast?_eq_some_iff.1 last
        rw [whole] at oneLine ⊢
        refine .inr ⟨_, rfl, gap, [']'], rfl, ?_, [], rfl, rfl⟩
        exact fun feed => oneLine (by simp [feed])

end VariablePattern

open VariableToken (Piece Filled pieces withoutAssignment)

/-- Whether a text is a usage of the variable of some name: any sigil, and in braces what is like
the name up to blanks and case when any text is written for each variable nested in it. An attribute
or item may follow the name, and items the braces. -/
inductive IsUsage (name : Text) : Text → Prop
  | intro {sigil : Char} {w filled access items : Text}
      (announced : VariableToken.isSigil sigil = true) (arises : Filled (pieces name) filled)
      (like : w.bare = filled.bare) (inside : VariablePattern.IsAccess access)
      (behind : VariablePattern.IsItems items) :
      IsUsage name (sigil :: '{' :: (w ++ access ++ '}' :: items))

namespace VariablePattern

variable {name t : Text}

/-- The pattern of a name takes the usages of the variable in which no line feed stands behind the
name. In a text of more than one line this holds where the name has no variable in it. -/
theorem accepts_iff (oneLine : '\n' ∉ t ∨ ∀ p ∈ pieces name, ∃ c, p = .char c) :
    (⟨.blanks :: bodyOf (pieces name)⟩ : VariablePattern).accepts t ↔
      ∃ (sigil : Char) (w filled access items : Text),
        t = sigil :: '{' :: (w ++ access ++ '}' :: items) ∧
        VariableToken.isSigil sigil = true ∧ Filled (pieces name) filled ∧ w.bare = filled.bare ∧
        IsAccess access ∧ '\n' ∉ access ∧ IsItems items ∧ '\n' ∉ items := by
  have brace : Run.Covers CharTable.asciiMarks '{' := by decide
  have closing : Run.Covers CharTable.asciiMarks '}' := by decide
  have isSigil (c : Char) : c ∈ sigils ↔ VariableToken.isSigil c = true := by
    simp [sigils, VariableToken.isSigil, or_assoc]
  have reads (access item : List Atom) :
      Atom.accepts (.oneOf sigils :: .char '{' :: (.blanks :: bodyOf (pieces name)) ++ access ++
          .char '}' :: item) t = true ↔
        ∃ sigil rest, t = sigil :: '{' :: rest ∧ VariableToken.isSigil sigil = true ∧
          Atom.accepts (.blanks :: (bodyOf (pieces name) ++ (access ++ .char '}' :: item)))
            rest = true := by
    simp only [List.cons_append, List.append_assoc, Atom.accepts_oneOf_iff, isSigil,
      Atom.accepts_mark_iff brace]
    constructor
    · rintro ⟨c, behind, rfl, sigil, rest, rfl, h⟩
      exact ⟨c, rest, rfl, sigil, h⟩
    · rintro ⟨c, rest, rfl, sigil, h⟩
      exact ⟨c, _, rfl, sigil, rest, rfl, h⟩
  simp only [accepts, List.any_eq_true, reads]
  constructor
  · rintro ⟨access, haccess, item, hitem, sigil, rest, rfl, announced, h⟩
    have inLine : '\n' ∉ rest ∨ ∀ p ∈ pieces name, ∃ c, p = .char c :=
      oneLine.imp_left (mt fun feed => List.mem_cons_of_mem _ (List.mem_cons_of_mem _ feed))
    obtain ⟨w, behind, rfl, ⟨filled, arises, like⟩, h⟩ :=
      (accepts_blanks_bodyOf_append_iff inLine).1 h
    obtain ⟨a, behind, rfl, isAccess, noFeed, h⟩ := accepts_access_append_iff.1 ⟨access, haccess, h⟩
    obtain ⟨items, rfl, h⟩ := (Atom.accepts_mark_iff closing).1 h
    obtain ⟨isItems, noFeed'⟩ := accepts_items_iff.1 ⟨item, hitem, h⟩
    exact ⟨sigil, w, filled, a, items, by simp, announced, arises, like, isAccess, noFeed, isItems,
      noFeed'⟩
  · rintro ⟨sigil, w, filled, a, items, rfl, announced, arises, like, isAccess, noFeed, isItems,
      noFeed'⟩
    have inLine : '\n' ∉ w ++ a ++ '}' :: items ∨ ∀ p ∈ pieces name, ∃ c, p = .char c :=
      oneLine.imp_left (mt fun feed => List.mem_cons_of_mem _ (List.mem_cons_of_mem _ feed))
    obtain ⟨item, hitem, h⟩ := accepts_items_iff.2 ⟨isItems, noFeed'⟩
    obtain ⟨access, haccess, h⟩ := accepts_access_append_iff.2
      ⟨a, _, rfl, isAccess, noFeed, (Atom.accepts_mark_iff closing).2 ⟨items, rfl, h⟩⟩
    refine ⟨access, haccess, item, hitem, sigil, _, rfl, announced, ?_⟩
    exact (accepts_blanks_bodyOf_append_iff inLine).2
      ⟨w, a ++ '}' :: items, List.append_assoc _ _ _, ⟨filled, arises, like⟩, h⟩

/-- A name without variables takes a plain one in braces if they are equal up to blanks and case. -/
theorem accepts_braces_iff {sigil : Char} {m : Text} (plain : pieces name = name.map .char)
    (announced : VariableToken.isSigil sigil = true) (noMark : ∀ c ∈ m, c ∉ ['.', '[', '{', '}']) :
    (⟨.blanks :: bodyOf (pieces name)⟩ : VariablePattern).accepts
      (sigil :: '{' :: (m ++ ['}'])) ↔ name.bare = m.bare := by
  have chars : ∀ p ∈ pieces name, ∃ c, p = .char c := by
    rw [plain]
    intro p hp
    obtain ⟨c, -, rfl⟩ := List.mem_map.1 hp
    exact ⟨c, rfl⟩
  rw [accepts_iff (.inr chars), plain]
  simp only [VariableToken.filled_map_char_iff]
  constructor
  · rintro ⟨c, w, filled, access, items, used, -, rfl, like, inside, -, -, -⟩
    have braces : m ++ ['}'] = w ++ access ++ '}' :: items :=
      (List.cons.inj (List.cons.inj used).2).2
    -- The closing brace is the only one, and nothing in front of it begins an attribute or item.
    rcases List.eq_nil_or_concat items with rfl | ⟨front, last, rfl⟩
    · have inner : m = w ++ access := List.append_cancel_right braces
      cases access with
      | nil => rw [inner, List.append_nil, like]
      | cons d access =>
        have mem : d ∈ m := by simp [inner]
        rcases inside d rfl with rfl | rfl <;> simpa using noMark _ mem
    · have shorter : m ++ ['}'] = (w ++ access ++ '}' :: front) ++ [last] := by simp [braces]
      have mem : '}' ∈ m := by simp [(List.append_inj' shorter rfl).1]
      simpa using noMark _ mem
  · intro same
    exact ⟨sigil, m, name, [], [], by simp, announced, rfl, same.symm, isAccess_nil,
      List.not_mem_nil, .inl rfl, List.not_mem_nil⟩

end VariablePattern

/-- A variable is a usage of its own name. -/
theorem isUsage_self {sigil : Char} (announced : VariableToken.isSigil sigil = true)
    (name : Text) : IsUsage name (sigil :: '{' :: (name ++ ['}'])) := by
  have own := VariableToken.filled_flatMap_text (pieces name)
  rw [pieces, VariableToken.flatMap_text_piecesAfter] at own
  have same : sigil :: '{' :: (name ++ ['}']) = sigil :: '{' :: (name ++ [] ++ '}' :: []) := by
    simp
  rw [same]
  exact .intro announced own rfl VariablePattern.isAccess_nil (.inl rfl)

namespace VariableToken

theorem name_of_isSigil {sigil : Char} (h : isSigil sigil = true) (n : Text) :
    VariableToken.name (sigil :: '{' :: (n ++ ['}'])) = n := by
  simp [VariableToken.name, h]

/-- A variable is no assignment, and nothing is trimmed around it. -/
theorem withoutAssignment_trim_eq_self {sigil : Char} (h : isSigil sigil = true) (n : Text) :
    withoutAssignment (Text.trim (sigil :: '{' :: (n ++ ['}']))) =
      sigil :: '{' :: (n ++ ['}']) := by
  have last (c : Char) (hc : c ∈ (sigil :: '{' :: (n ++ ['}'])).getLast?) : c = '}' := by
    simpa [List.getLast?_cons] using hc.symm
  have whole : Text.trimEnd (sigil :: '{' :: (n ++ ['}'])) = sigil :: '{' :: (n ++ ['}']) :=
    Sequence.dropTrailing_eq_self fun c hc => by rw [last c hc]; decide
  have mark : Sequence.dropTrailing (· == '=') (sigil :: '{' :: (n ++ ['}'])) =
      sigil :: '{' :: (n ++ ['}']) :=
    Sequence.dropTrailing_eq_self fun c hc => by rw [last c hc]; decide
  rw [withoutAssignment_trim h, withoutAssignment, whole, mark, whole]

/-- A text in braces that is one variable has a sigil before them. -/
theorem isSigil_of_isWholeCell {c : Char} {n : Text}
    (h : isWholeCell (c :: '{' :: (n ++ ['}'])) = true) : isSigil c = true := by
  rw [isWholeCell] at h
  split at h
  · rename_i token only
    have spelled := flatMap_text_piecesAfter false (withoutAssignment (c :: '{' :: (n ++ ['}'])))
    rw [← pieces, only] at spelled
    have mem : .token token ∈ pieces (withoutAssignment (c :: '{' :: (n ++ ['}']))) :=
      only ▸ List.mem_cons_self
    obtain ⟨d, name, sigil, rfl⟩ := isToken_of_mem_piecesAfter mem
    obtain ⟨rest, whole⟩ := withoutAssignment_isPrefix (c :: '{' :: (n ++ ['}']))
    rw [← spelled] at whole
    rw [← (List.cons.inj whole).1]
    exact sigil
  · cases h

end VariableToken

namespace Variable

/-- A usage refers to a declared variable exactly when it is one of the variable's name. In
particular a variable in one line refers to itself, and where no variable is nested in the name, a
plain usage refers to it when the two names differ in blanks, underscores and case only. -/
theorem isUsedBy_iff (v : Variable) {sigil : Char} {name : Text}
    (written : v.text = sigil :: '{' :: (name ++ ['}']))
    (whole : VariableToken.isWholeCell v.text = true) :
    (∀ usage : Text, '\n' ∉ withoutAssignment usage.trim →
        (v.isUsedBy usage ↔ IsUsage name (withoutAssignment usage.trim))) ∧
      ('\n' ∉ v.text → v.isUsedBy v.text) ∧
      (pieces name = name.map .char → ∀ (other : Char) (m : Text),
        VariableToken.isSigil other = true → (∀ c ∈ m, c ∉ ['.', '[', '{', '}']) →
          (v.isUsedBy (other :: '{' :: (m ++ ['}'])) ↔ name.bare = m.bare)) := by
  have announced := VariableToken.isSigil_of_isWholeCell (written ▸ whole)
  have body : v.pattern = ⟨.blanks :: VariablePattern.bodyOf (pieces name)⟩ := by
    rw [pattern, VariablePattern.ofDeclaration, written, VariableToken.name_of_isSigil announced]
  have uses (usage : Text) (oneLine : '\n' ∉ withoutAssignment usage.trim) :
      v.isUsedBy usage ↔ IsUsage name (withoutAssignment usage.trim) := by
    rw [isUsedBy, body, VariablePattern.accepts_iff (.inl oneLine)]
    constructor
    · rintro ⟨c, w, filled, access, items, used, sigil, arises, like, inside, -, behind, -⟩
      rw [used]
      exact .intro sigil arises like inside behind
    · intro h
      generalize withoutAssignment usage.trim = used at h oneLine
      cases h with
      | @intro c w filled access items sigil arises like inside behind =>
        refine ⟨c, w, filled, access, items, rfl, sigil, arises, like, inside, ?_, behind, ?_⟩
        · exact fun feed => oneLine (by simp [feed])
        · exact fun feed => oneLine (by simp [feed])
  refine ⟨uses, fun oneLine => ?_, fun plain other m sigil noMark => ?_⟩
  · rw [written] at oneLine ⊢
    have itself := VariableToken.withoutAssignment_trim_eq_self announced name
    rw [uses _ (itself.symm ▸ oneLine), itself]
    exact isUsage_self announced name
  · rw [isUsedBy, body, VariableToken.withoutAssignment_trim_eq_self sigil]
    exact VariablePattern.accepts_braces_iff plain sigil noMark

/-- An item of an attribute of a variable with another one in its name, and a plain usage. -/
theorem isUsedBy_iff_nested :
    let nested := declare "$\x7bMy $\x7bx\x7d_Var\x7d =".toList .suite .everywhere
      (.document ⟨0⟩ ⟨0, 14⟩)
    let plain := declare "$\x7bmy var\x7d".toList .suite .everywhere (.document ⟨0⟩ ⟨20, 9⟩)
    nested.text = '$' :: '{' :: ("My $\x7bx\x7d_Var".toList ++ ['}']) ∧
      VariableToken.isWholeCell nested.text = true ∧
      IsUsage "My $\x7bx\x7d_Var".toList "@\x7bmy any_VAR.size\x7d[0]".toList ∧
      nested.isUsedBy nested.text ∧ plain.text = '$' :: '{' :: ("my var".toList ++ ['}']) ∧
      VariableToken.isWholeCell plain.text = true ∧
      plain.isUsedBy ('@' :: '{' :: ("MY_VAR".toList ++ ['}'])) := by
  intro nested plain
  have text : nested.text = '$' :: '{' :: ("My $\x7bx\x7d_Var".toList ++ ['}']) := by decide +kernel
  have whole : VariableToken.isWholeCell nested.text = true := by decide +kernel
  obtain ⟨uses, own, -⟩ := isUsedBy_iff nested text whole
  have bareUsage : withoutAssignment (Text.trim "@\x7bmy any_VAR.size\x7d[0]".toList) =
      "@\x7bmy any_VAR.size\x7d[0]".toList := by decide +kernel
  have usage := uses "@\x7bmy any_VAR.size\x7d[0]".toList (by rw [bareUsage]; decide +kernel)
  rw [bareUsage] at usage
  have plainText : plain.text = '$' :: '{' :: ("my var".toList ++ ['}']) := by decide +kernel
  have plainWhole : VariableToken.isWholeCell plain.text = true := by decide +kernel
  obtain ⟨-, -, alike⟩ := isUsedBy_iff plain plainText plainWhole
  exact ⟨text, whole, usage.1 (by decide +kernel), own (by rw [text]; decide +kernel), plainText,
    plainWhole, (alike (by decide +kernel) '@' "MY_VAR".toList (by decide)
      (List.all_iff_forall_prop.1 (by decide))).2 (by decide +kernel)⟩

end Variable

end RobotAnalysis
