/-!
# Sequences

Operations on lists that several layers share. Each of them only selects or groups: concatenating
what `groupAt` returns gives the list back, and `dropTrailing` and `distinctBy` return sublists.
-/
namespace RobotAnalysis.Sequence

universe u v

variable {α : Type u} {κ : Type v}

/-- The list without its longest final part in which every element satisfies `p`. -/
def dropTrailing (p : α → Bool) : List α → List α
  | [] => []
  | a :: l =>
    match dropTrailing p l with
    | [] => if p a then [] else [a]
    | b :: r => a :: b :: r

@[simp] theorem dropTrailing_nil (p : α → Bool) : dropTrailing p [] = [] := rfl

theorem dropTrailing_cons (p : α → Bool) (a : α) (l : List α) :
    dropTrailing p (a :: l) =
      if dropTrailing p l = [] ∧ p a = true then [] else a :: dropTrailing p l := by
  cases h : dropTrailing p l <;> cases hp : p a <;> simp [dropTrailing, h, hp]

theorem length_dropTrailing_le (p : α → Bool) (l : List α) :
    (dropTrailing p l).length ≤ l.length := by
  induction l with
  | nil => simp
  | cons a l ih =>
    rw [dropTrailing_cons]
    split <;> simp [ih]

/-- Only a final part is dropped, and every element of it satisfies `p`. -/
theorem exists_dropTrailing_append (p : α → Bool) (l : List α) :
    ∃ dropped, l = dropTrailing p l ++ dropped ∧ ∀ a ∈ dropped, p a = true := by
  induction l with
  | nil => exact ⟨[], rfl, by simp⟩
  | cons a l ih =>
    obtain ⟨dropped, whole, all⟩ := ih
    rw [dropTrailing_cons]
    split
    · rename_i gone
      rw [gone.1, List.nil_append] at whole
      refine ⟨a :: dropped, by rw [List.nil_append, ← whole], ?_⟩
      exact List.forall_mem_cons.2 ⟨gone.2, all⟩
    · exact ⟨dropped, by rw [List.cons_append, ← whole], all⟩

theorem dropTrailing_isPrefix (p : α → Bool) (l : List α) : dropTrailing p l <+: l := by
  obtain ⟨dropped, whole, -⟩ := exists_dropTrailing_append p l
  exact ⟨dropped, whole.symm⟩

theorem dropTrailing_eq_nil {p : α → Bool} {l : List α} (h : ∀ a ∈ l, p a = true) :
    dropTrailing p l = [] := by
  induction l with
  | nil => rfl
  | cons a l ih =>
    obtain ⟨first, rest⟩ := List.forall_mem_cons.1 h
    rw [dropTrailing_cons, if_pos ⟨ih rest, first⟩]

/-- Nothing is dropped where the last element does not satisfy `p`. -/
theorem dropTrailing_eq_self {p : α → Bool} {l : List α}
    (h : ∀ a ∈ l.getLast?, p a = false) : dropTrailing p l = l := by
  obtain ⟨dropped, whole, all⟩ := exists_dropTrailing_append p l
  rcases List.eq_nil_or_concat dropped with none | ⟨front, a, some⟩
  · rw [none, List.append_nil] at whole
    exact whole.symm
  · have held : p a = true := all a (by simp [some])
    rw [h a (by rw [whole, some]; simp)] at held
    cases held

theorem dropTrailing_append {p : α → Bool} (l : List α) {m : List α} (h : ∀ a ∈ m, p a = true) :
    dropTrailing p (l ++ m) = dropTrailing p l := by
  induction l with
  | nil => exact dropTrailing_eq_nil h
  | cons a l ih => rw [List.cons_append, dropTrailing_cons, dropTrailing_cons, ih]

theorem dropTrailing_map {β : Type v} {p : α → Bool} {q : β → Bool} {f : α → β}
    (h : ∀ a, q (f a) = p a) (l : List α) : dropTrailing q (l.map f) = (dropTrailing p l).map f := by
  induction l with
  | nil => rfl
  | cons a l ih =>
    rw [List.map_cons, dropTrailing_cons, dropTrailing_cons, ih, h]
    simp only [List.map_eq_nil_iff]
    split <;> rfl

theorem dropTrailing_dropTrailing (p : α → Bool) (l : List α) :
    dropTrailing p (dropTrailing p l) = dropTrailing p l := by
  obtain ⟨dropped, whole, all⟩ := exists_dropTrailing_append p l
  have same := dropTrailing_append (dropTrailing p l) all
  rw [← whole] at same
  exact same.symm

theorem mem_dropTrailing {p : α → Bool} {l : List α} {a : α} (h : a ∈ l) (kept : p a = false) :
    a ∈ dropTrailing p l := by
  obtain ⟨dropped, whole, all⟩ := exists_dropTrailing_append p l
  rw [whole, List.mem_append] at h
  rcases h with h | h
  · exact h
  · rw [all a h] at kept
    cases kept

theorem mem_dropWhile {p : α → Bool} {l : List α} {a : α} (h : a ∈ l) (kept : p a = false) :
    a ∈ l.dropWhile p := by
  rw [← List.takeWhile_append_dropWhile (p := p) (l := l), List.mem_append] at h
  rcases h with h | h
  · rw [List.all_eq_true.1 List.all_takeWhile a h] at kept
    cases kept
  · exact h

/-- What `dropTrailing` leaves out satisfies `p`. -/
theorem of_mem_drop_dropTrailing {p : α → Bool} {l : List α} {a : α}
    (h : a ∈ l.drop (dropTrailing p l).length) : p a = true := by
  obtain ⟨dropped, whole, all⟩ := exists_dropTrailing_append p l
  have rest := congrArg (List.drop (dropTrailing p l).length) whole
  rw [List.drop_left] at rest
  exact all a (rest ▸ h)

theorem getLast?_dropTrailing {p : α → Bool} {l : List α} {a : α}
    (h : (dropTrailing p l).getLast? = some a) : p a = false := by
  induction l with
  | nil => cases h
  | cons b l ih =>
    rw [dropTrailing_cons] at h
    split at h
    · cases h
    · rename_i kept
      cases rest : dropTrailing p l with
      | nil =>
        rw [rest] at h kept
        cases h
        simpa using kept
      | cons c r =>
        rw [rest, List.getLast?_cons_cons, ← rest] at h
        exact ih h

/-- Where the first element is kept, the last one that is left does not satisfy `p`. -/
theorem getLast?_cons_dropTrailing {p : α → Bool} {a : α} (h : p a = false) (l : List α) :
    ∀ b ∈ (a :: dropTrailing p l).getLast?, p b = false := by
  intro b last
  rw [List.getLast?_cons] at last
  cases rest : (dropTrailing p l).getLast? with
  | none =>
    rw [rest] at last
    cases last
    exact h
  | some c =>
    rw [rest] at last
    cases last
    exact getLast?_dropTrailing rest

theorem takeWhile_drop {p : α → Bool} {l : List α} {n : Nat} (h : n ≤ (l.takeWhile p).length) :
    (l.drop n).takeWhile p = (l.takeWhile p).drop n := by
  induction n generalizing l with
  | zero => rfl
  | succ n ih =>
    cases l with
    | nil => simp at h
    | cons a l =>
      cases first : p a with
      | true =>
        rw [List.takeWhile_cons_of_pos first] at h ⊢
        exact ih (Nat.le_of_succ_le_succ h)
      | false => simp [first] at h

/-- Where the second of two lists does not begin with an element that satisfies `p`, the first part
of both together is that of the first one. -/
theorem takeWhile_append_of_head? {p : α → Bool} (l : List α) {m : List α}
    (h : ∀ a, m.head? = some a → p a = false) :
    (l ++ m).takeWhile p = l.takeWhile p ∧ (l ++ m).dropWhile p = l.dropWhile p ++ m := by
  induction l with
  | nil =>
    cases m with
    | nil => exact ⟨rfl, rfl⟩
    | cons a m => simp [h a rfl]
  | cons a l ih =>
    cases first : p a with
    | true => simp [first, ih.1, ih.2]
    | false => simp [first]

/-- Where a list stops being taken, what is behind it is not looked at. -/
theorem takeWhile_append_of_exists {p : α → Bool} {l : List α} (m : List α)
    (h : ∃ a ∈ l, p a = false) :
    (l ++ m).takeWhile p = l.takeWhile p ∧ (l ++ m).dropWhile p = l.dropWhile p ++ m := by
  obtain ⟨a, ha, stops⟩ := h
  obtain ⟨before, after, rfl⟩ := List.append_of_mem ha
  have short := takeWhile_append_of_head? before (m := a :: after) (by simpa using stops)
  have long := takeWhile_append_of_head? before (m := a :: (after ++ m)) (by simpa using stops)
  rw [List.append_assoc, List.cons_append, long.1, long.2, short.1, short.2]
  simp

/-- The elements whose key no earlier element has, in their order. -/
def distinctBy [DecidableEq κ] (key : α → κ) (l : List α) : List α :=
  select [] l
where
  select (seen : List κ) : List α → List α
    | [] => []
    | a :: l => if key a ∈ seen then select seen l else a :: select (key a :: seen) l

theorem select_append_singleton [DecidableEq κ] (key : α → κ) (seen : List κ) (l : List α) (a : α) :
    distinctBy.select key seen (l ++ [a]) =
      distinctBy.select key seen l ++
        if key a ∈ seen ∨ key a ∈ l.map key then [] else [a] := by
  induction l generalizing seen with
  | nil => simp [distinctBy.select]
  | cons b l ih =>
    rw [List.cons_append, distinctBy.select, distinctBy.select]
    by_cases known : key b ∈ seen
    · have same : (key a ∈ seen ∨ key a ∈ (b :: l).map key) ↔ key a ∈ seen ∨ key a ∈ l.map key := by
        grind
      simp only [known, if_true, ih, same]
    · have same : (key a ∈ key b :: seen ∨ key a ∈ l.map key) ↔
          key a ∈ seen ∨ key a ∈ (b :: l).map key := by grind
      simp only [known, if_false, ih, List.cons_append, same]

/-- A last element is kept if its key is new. -/
theorem distinctBy_append_singleton [DecidableEq κ] (key : α → κ) (l : List α) (a : α) :
    distinctBy key (l ++ [a]) = distinctBy key l ++ if key a ∈ l.map key then [] else [a] := by
  rw [distinctBy, select_append_singleton]
  simp [distinctBy]

theorem mem_of_mem_distinctBy [DecidableEq κ] {key : α → κ} {l : List α} {a : α}
    (h : a ∈ distinctBy key l) : a ∈ l := by
  rw [distinctBy] at h
  generalize ([] : List κ) = seen at h
  induction l generalizing seen with
  | nil => exact h
  | cons b l ih =>
    rw [distinctBy.select] at h
    split at h
    · exact List.mem_cons_of_mem _ (ih seen h)
    · rcases List.mem_cons.1 h with rfl | h
      · exact List.mem_cons_self
      · exact List.mem_cons_of_mem _ (ih _ h)

/-- Every element is kept where the elements are their own keys. -/
theorem mem_distinctBy_id [DecidableEq α] {l : List α} {a : α} (h : a ∈ l) :
    a ∈ distinctBy id l := by
  have kept (seen : List α) (l : List α) (h : a ∈ l) : a ∈ seen ∨ a ∈ distinctBy.select id seen l := by
    induction l generalizing seen with
    | nil => cases h
    | cons b l ih =>
      rw [distinctBy.select]
      split
      · rename_i known
        rcases List.mem_cons.1 h with rfl | h
        · exact .inl known
        · exact ih seen h
      · rcases List.mem_cons.1 h with rfl | h
        · exact .inr List.mem_cons_self
        · rcases ih (id b :: seen) h with known | h
          · rcases List.mem_cons.1 known with rfl | known
            · exact .inr List.mem_cons_self
            · exact .inl known
          · exact .inr (List.mem_cons_of_mem _ h)
  exact (kept [] l h).resolve_left (List.not_mem_nil)

/-- The elements before the first one that satisfies `p`, then every element that satisfies `p`
with the elements after it up to the next one. -/
def groupAt (p : α → Bool) : List α → List α × List (α × List α)
  | [] => ([], [])
  | a :: l =>
    let (body, groups) := groupAt p l
    if p a then ([], (a, body) :: groups) else (a :: body, groups)

theorem groupAt_flatten (p : α → Bool) (l : List α) :
    (groupAt p l).1 ++ (groupAt p l).2.flatMap (fun g => g.1 :: g.2) = l := by
  induction l with
  | nil => rfl
  | cons a l ih =>
    by_cases h : p a <;> simp_all [groupAt]

theorem groupAt_cons_of_pos {p : α → Bool} {a : α} (h : p a = true) (l : List α) :
    groupAt p (a :: l) = ([], (a, (groupAt p l).1) :: (groupAt p l).2) := by
  simp [groupAt, h]

theorem groupAt_cons_of_neg {p : α → Bool} {a : α} (h : p a = false) (l : List α) :
    groupAt p (a :: l) = (a :: (groupAt p l).1, (groupAt p l).2) := by
  simp [groupAt, h]

theorem of_mem_groupAt_fst {p : α → Bool} {l : List α} {a : α} (h : a ∈ (groupAt p l).1) :
    p a = false := by
  induction l with
  | nil => cases h
  | cons b l ih =>
    cases begins : p b with
    | true =>
      rw [groupAt_cons_of_pos begins] at h
      cases h
    | false =>
      rw [groupAt_cons_of_neg begins] at h
      rcases List.mem_cons.1 h with rfl | h
      · exact begins
      · exact ih h

theorem of_mem_groupAt_snd {p : α → Bool} {l : List α} {g : α × List α}
    (h : g ∈ (groupAt p l).2) : p g.1 = true ∧ ∀ a ∈ g.2, p a = false := by
  induction l with
  | nil => cases h
  | cons b l ih =>
    cases begins : p b with
    | true =>
      rw [groupAt_cons_of_pos begins] at h
      rcases List.mem_cons.1 h with rfl | h
      · exact ⟨begins, fun a ha => of_mem_groupAt_fst ha⟩
      · exact ih h
    | false =>
      rw [groupAt_cons_of_neg begins] at h
      exact ih h

/-- The groups of a list whose elements have been replaced by others that are grouped alike. -/
theorem groupAt_map {β : Type v} {p : α → Bool} {q : β → Bool} {f : α → β}
    (h : ∀ a, q (f a) = p a) (l : List α) :
    groupAt q (l.map f) =
      ((groupAt p l).1.map f, (groupAt p l).2.map fun g => (f g.1, g.2.map f)) := by
  induction l with
  | nil => rfl
  | cons a l ih =>
    rw [List.map_cons]
    cases begins : p a with
    | true => rw [groupAt_cons_of_pos ((h a).trans begins), groupAt_cons_of_pos begins, ih]; rfl
    | false => rw [groupAt_cons_of_neg ((h a).trans begins), groupAt_cons_of_neg begins, ih]; rfl

/-- Where a list begins with an element that begins a group, it is grouped behind another list as it
is alone. -/
theorem groupAt_append {p : α → Bool} {m : List α}
    (h : ∀ a ∈ m.head?, p a = true) (l : List α) :
    groupAt p (l ++ m) = ((groupAt p l).1, (groupAt p l).2 ++ (groupAt p m).2) := by
  induction l with
  | nil =>
    cases m with
    | nil => rfl
    | cons a m =>
      rw [List.nil_append, groupAt_cons_of_pos (h a rfl)]
      rfl
  | cons a l ih =>
    rw [List.cons_append]
    cases begins : p a with
    | true => rw [groupAt_cons_of_pos begins, groupAt_cons_of_pos begins, ih]; rfl
    | false => rw [groupAt_cons_of_neg begins, groupAt_cons_of_neg begins, ih]

/-- Elements that begin no group belong to the one in front of them. -/
theorem groupAt_append_of_outside {p : α → Bool} {l : List α} (h : ∀ a ∈ l, p a = false)
    (m : List α) : groupAt p (l ++ m) = (l ++ (groupAt p m).1, (groupAt p m).2) := by
  induction l with
  | nil => rfl
  | cons a l ih =>
    obtain ⟨first, others⟩ := List.forall_mem_cons.1 h
    rw [List.cons_append, groupAt_cons_of_neg first, ih others]
    rfl

/-- The group of an element that begins one, and of some that begin none. -/
theorem groupAt_append_cons {p : α → Bool} {a : α} {l : List α} (begins : p a = true)
    (outside : ∀ b ∈ l, p b = false) (front m : List α) :
    groupAt p (front ++ a :: (l ++ m)) =
      ((groupAt p front).1,
        (groupAt p front).2 ++ (a, l ++ (groupAt p m).1) :: (groupAt p m).2) := by
  have first : ∀ b ∈ (a :: (l ++ m)).head?, p b = true := by
    rintro _ ⟨⟩
    exact begins
  rw [groupAt_append first, groupAt_cons_of_pos begins, groupAt_append_of_outside outside]

/-- Either no element satisfies `p`, or one of those that do is the last one. -/
theorem exists_last_or_forall (p : α → Bool) (l : List α) : (∀ a ∈ l, p a = false) ∨
    ∃ front a back, l = front ++ a :: back ∧ p a = true ∧ ∀ b ∈ back, p b = false := by
  induction l with
  | nil => exact .inl nofun
  | cons a l ih =>
    rcases ih with none | ⟨front, b, back, rfl, last⟩
    · cases first : p a with
      | false => exact .inl (List.forall_mem_cons.2 ⟨first, none⟩)
      | true => exact .inr ⟨[], a, l, rfl, first, none⟩
    · exact .inr ⟨a :: front, b, back, rfl, last⟩

/-- The pieces between the elements that satisfy `p`; there is one piece more than such elements. -/
def splitBy (p : α → Bool) : List α → List (List α)
  | [] => [[]]
  | a :: l =>
    if p a then [] :: splitBy p l
    else
      match splitBy p l with
      | [] => [[a]]
      | w :: ws => (a :: w) :: ws

theorem splitBy_ne_nil (p : α → Bool) (l : List α) : splitBy p l ≠ [] := by
  cases l with
  | nil => simp [splitBy]
  | cons a l =>
    unfold splitBy
    split
    · simp
    · split <;> simp

theorem splitBy_cons_of_neg {p : α → Bool} {a : α} (h : p a = false) (l : List α) :
    splitBy p (a :: l) = (splitBy p l).modifyHead (a :: ·) := by
  obtain ⟨w, ws, split⟩ := List.exists_cons_of_ne_nil (splitBy_ne_nil p l)
  simp [splitBy, h, split]

/-- The pieces before a separator and those after it are split independently. -/
theorem splitBy_append_cons {p : α → Bool} {a : α} (h : p a = true) (l m : List α) :
    splitBy p (l ++ a :: m) = splitBy p l ++ splitBy p m := by
  induction l with
  | nil => simp [splitBy, h]
  | cons b l ih =>
    by_cases hb : p b = true
    · simp [splitBy, hb, ih]
    · obtain ⟨w, ws, hw⟩ := List.exists_cons_of_ne_nil (splitBy_ne_nil p l)
      simp [splitBy, hb, ih, hw]

theorem splitBy_of_forall {p : α → Bool} {l : List α} (h : ∀ a ∈ l, p a = false) : splitBy p l = [l] := by
  induction l with
  | nil => rfl
  | cons a l ih =>
    obtain ⟨first, rest⟩ := List.forall_mem_cons.1 h
    rw [splitBy, first, ih rest]
    rfl

/-- The pieces hold no separator. -/
theorem of_mem_splitBy {p : α → Bool} {l w : List α} (h : w ∈ splitBy p l) : ∀ a ∈ w, p a = false := by
  induction l generalizing w with
  | nil =>
    rw [List.mem_singleton.1 h]
    nofun
  | cons b l ih =>
    obtain ⟨v, vs, split⟩ := List.exists_cons_of_ne_nil (splitBy_ne_nil p l)
    rw [split] at ih
    rw [splitBy, split] at h
    cases hb : p b with
    | true =>
      rw [hb, if_pos rfl] at h
      rcases List.mem_cons.1 h with rfl | h
      · nofun
      · exact ih h
    | false =>
      rw [hb, if_neg Bool.false_ne_true] at h
      rcases List.mem_cons.1 h with rfl | h
      · exact List.forall_mem_cons.2 ⟨hb, ih List.mem_cons_self⟩
      · exact ih (List.mem_cons_of_mem _ h)

/-- The part before the first element that satisfies `p` and the part after it. -/
def splitOnce? (p : α → Bool) : List α → Option (List α × List α)
  | [] => none
  | a :: l =>
    if p a then some ([], l)
    else (splitOnce? p l).map fun (before, after) => (a :: before, after)

/-- The part before the last element that satisfies `p` and the part after it. -/
def splitLast? (p : α → Bool) : List α → Option (List α × List α)
  | [] => none
  | a :: l =>
    match splitLast? p l with
    | some (before, after) => some (a :: before, after)
    | none => if p a then some ([], l) else none

theorem splitLast?_eq_none {p : α → Bool} {l : List α} :
    splitLast? p l = none ↔ ∀ a ∈ l, p a = false := by
  induction l with
  | nil => simp [splitLast?]
  | cons a l ih =>
    rw [splitLast?]
    cases h : splitLast? p l with
    | some parts =>
      have found : ¬ ∀ b ∈ l, p b = false := by
        intro none
        rw [ih.2 none] at h
        cases h
      simp only [reduceCtorEq, List.forall_mem_cons, false_iff]
      exact fun both => found both.2
    | none =>
      have rest := ih.1 h
      by_cases hp : p a = true
      · simp [hp]
      · simpa [hp] using rest

/-- No separator is left after the last one. -/
theorem splitLast?_eq_some {p : α → Bool} {l before after : List α}
    (h : splitLast? p l = some (before, after)) : ∀ a ∈ after, p a = false := by
  induction l generalizing before with
  | nil => simp [splitLast?] at h
  | cons a l ih =>
    rw [splitLast?] at h
    cases found : splitLast? p l with
    | some parts =>
      obtain ⟨front, back⟩ := parts
      simp only [found, Option.some.injEq, Prod.mk.injEq] at h
      obtain ⟨-, rfl⟩ := h
      exact ih found
    | none =>
      simp only [found, Option.ite_none_right_eq_some, Option.some.injEq, Prod.mk.injEq] at h
      obtain ⟨-, -, rfl⟩ := h
      exact splitLast?_eq_none.1 found

/-- Every occurrence of `target`, found from the left without overlaps, replaced by `replacement`;
nothing is replaced where `target` is empty. -/
def replaceAll [BEq α] (target replacement : List α) (l : List α) : List α :=
  if target.isEmpty then l else copy 0 l
where
  /-- Copies a list of which the first `skip` elements belong to an occurrence already replaced. -/
  copy (skip : Nat) : List α → List α
    | [] => []
    | a :: l =>
      if 0 < skip then copy (skip - 1) l
      else if target.isPrefixOf (a :: l) then replacement ++ copy (target.length - 1) l
      else a :: copy 0 l

end RobotAnalysis.Sequence
