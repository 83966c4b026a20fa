import RobotAnalysis.Proofs.CheckedText

/-!
# Places and offsets

A line of a text stands between two line feeds, or an end of the text in their place. The index of a
text lists where its lines start, one after the other, and finds the line of an offset as the last
one that does not start behind it. That is the line the offset stands on, so an offset and its
place are found from each other, and every place on a line is the place of an offset.
-/
namespace RobotAnalysis

namespace Text

/-- A line of a text with the number of line feeds before it and the offset at which it starts. -/
def IsLine (t : Text) (n start : Nat) (line : Text) : Prop :=
  ∃ before after, t = before ++ (line ++ after) ∧ n = before.count '\n' ∧ start = before.byteSize ∧
    '\n' ∉ line ∧ (before = [] ∨ ∃ head, before = head ++ ['\n']) ∧
    (after = [] ∨ ∃ rest, after = '\n' :: rest)

variable {t line : Text} {n start o : Nat}

theorem count_le_byteSize (c : Char) (t : Text) : t.count c ≤ t.byteSize := by
  induction t with
  | nil => exact Nat.le_refl _
  | cons d t ih =>
    have pos := d.utf8Size_pos
    rw [List.count_cons, byteSize_cons]
    split <;> omega

theorem notMem_takeBytes {c : Char} (h : c ∉ t) (n : Nat) : c ∉ t.takeBytes n := fun mem =>
  h (takeBytes_append_dropBytes n t ▸ List.mem_append_left _ mem)

/-- A text up to its first line feed. -/
theorem exists_firstLine (t : Text) : ∃ line after, t = line ++ after ∧ '\n' ∉ line ∧
    (after = [] ∨ ∃ rest, after = '\n' :: rest) := by
  by_cases h : '\n' ∈ t
  · obtain ⟨line, rest, rfl, noFeed⟩ := List.eq_append_cons_of_mem h
    exact ⟨line, '\n' :: rest, rfl, noFeed, .inr ⟨rest, rfl⟩⟩
  · exact ⟨t, [], (List.append_nil t).symm, h, .inl rfl⟩

theorem exists_before_line (h : n ≤ t.count '\n') : ∃ before back, t = before ++ back ∧
    before.count '\n' = n ∧ (before = [] ∨ ∃ head, before = head ++ ['\n']) := by
  induction n with
  | zero => exact ⟨[], t, rfl, rfl, .inl rfl⟩
  | succ n ih =>
    obtain ⟨before, back, rfl, counted, -⟩ := ih (Nat.le_of_succ_le h)
    rw [List.count_append, counted] at h
    have later : '\n' ∈ back := List.count_pos_iff.1 (by omega)
    obtain ⟨line, rest, rfl, noFeed⟩ := List.eq_append_cons_of_mem later
    refine ⟨before ++ line ++ ['\n'], rest, by simp, ?_, .inr ⟨_, rfl⟩⟩
    simp [counted, List.count_eq_zero.2 noFeed]

/-- There are as many lines as line feeds, and one more. -/
theorem exists_isLine (h : n ≤ t.count '\n') : ∃ start line, t.IsLine n start line := by
  obtain ⟨before, back, rfl, counted, begins⟩ := exists_before_line h
  obtain ⟨line, after, rfl, noFeed, ends⟩ := exists_firstLine back
  exact ⟨_, line, before, after, rfl, counted.symm, rfl, noFeed, begins, ends⟩

/-- An offset inside a character comes before the next line feed, which is a single byte. -/
theorem le_of_dropBytes {more after : Text} (h : o ≤ t.byteSize)
    (rest : t.dropBytes o = more ++ after) (ends : after = [] ∨ ∃ tail, after = '\n' :: tail) :
    o ≤ (t.takeBytes o).byteSize + more.byteSize := by
  cases more with
  | nil =>
    rcases ends with rfl | ⟨tail, rfl⟩
    · have whole := takeBytes_append_dropBytes o t
      rw [rest, List.append_nil, List.append_nil] at whole
      rwa [whole]
    · have next := lt_of_dropBytes rest
      have feed : '\n'.utf8Size = 1 := rfl
      rw [byteSize_nil]
      omega
  | cons c more =>
    have next := lt_of_dropBytes rest
    rw [byteSize_cons]
    omega

/-- Every offset of a text is on the line with the number of line feeds before it. -/
theorem exists_isLine_around (h : o ≤ t.byteSize) : ∃ start line k,
    t.IsLine ((t.takeBytes o).count '\n') start line ∧ o = start + k ∧ k ≤ line.byteSize := by
  obtain ⟨before, head, noFeed, begins⟩ := exists_lastLine (t.takeBytes o)
  obtain ⟨more, after, rest, noFeed', ends⟩ := exists_firstLine (t.dropBytes o)
  generalize lastLine (t.takeBytes o) = last at head noFeed
  have whole : t = before ++ ((last ++ more) ++ after) := by
    rw [← takeBytes_append_dropBytes o t, head, rest]
    simp
  have counted : (t.takeBytes o).count '\n' = before.count '\n' := by
    rw [head, List.count_append, List.count_eq_zero.2 noFeed, Nat.add_zero]
  have low := byteSize_takeBytes_le o t
  have high := le_of_dropBytes h rest ends
  rw [head, byteSize_append] at low high
  refine ⟨before.byteSize, last ++ more, o - before.byteSize,
    ⟨before, after, whole, counted, rfl, by simp [noFeed, noFeed'], begins, ends⟩, by omega, ?_⟩
  rw [byteSize_append]
  omega

namespace IsLine

theorem stop_le (h : t.IsLine n start line) : start + line.byteSize ≤ t.byteSize := by
  obtain ⟨before, after, rfl, -, rfl, -⟩ := h
  simp only [byteSize_append]
  omega

theorem count_takeBytes (h : t.IsLine n start line) {k : Nat} (inside : k ≤ line.byteSize) :
    (t.takeBytes (start + k)).count '\n' = n := by
  obtain ⟨before, after, rfl, rfl, rfl, noFeed, -⟩ := h
  rw [takeBytes_byteSize_add_append, takeBytes_append_of_le inside, List.count_append,
    List.count_eq_zero.2 (notMem_takeBytes noFeed k), Nat.add_zero]

end IsLine

end Text

/-- Whether a place comes before another one in reading order. -/
def Position.IsBefore (p q : Position) : Prop :=
  p.line < q.line ∨ p.line = q.line ∧ p.column < q.column

namespace LineIndex

variable {t line : Text} {n start k : Nat}

theorem startsAfter_append (offset : Nat) (s t : Text) :
    startsAfter offset (s ++ t) = startsAfter offset s ++ startsAfter (offset + s.byteSize) t := by
  induction s generalizing offset with
  | nil => rfl
  | cons c s ih =>
    rw [List.cons_append, startsAfter, startsAfter, Text.byteSize_cons, ih, Nat.add_assoc]
    split <;> rfl

theorem length_startsAfter (offset : Nat) (t : Text) :
    (startsAfter offset t).length = t.count '\n' := by
  induction t generalizing offset with
  | nil => rfl
  | cons c t ih =>
    rw [startsAfter]
    split
    · rename_i feed
      rw [feed, List.length_cons, ih, List.count_cons_self]
    · rename_i other
      rw [ih, List.count_cons_of_ne other]

@[simp] theorem size_ofText (t : Text) : (ofText t).size = t.byteSize := rfl

theorem lineCount_ofText (t : Text) : (ofText t).lineCount = t.count '\n' + 1 := by
  rw [lineCount, ofText, List.length_cons, length_startsAfter]

theorem pairwise_starts (t : Text) : (ofText t).starts.Pairwise (· < ·) :=
  .cons (fun _ h => lt_of_mem_startsAfter h) (pairwise_startsAfter 0 t)

/-- The lines that start in the first bytes of a text are those after the line feeds in them. -/
theorem countP_startsAfter (offset n : Nat) (t : Text) :
    (startsAfter offset t).countP (fun start => decide (start ≤ offset + n)) =
      (t.takeBytes n).count '\n' := by
  induction t generalizing offset n with
  | nil => rfl
  | cons c t ih =>
    by_cases fits : c.utf8Size ≤ n
    · have moved : offset + n = offset + c.utf8Size + (n - c.utf8Size) := by omega
      rw [startsAfter, Text.takeBytes, if_pos fits, moved]
      split
      · rename_i feed
        rw [List.countP_cons_of_pos (by simp), ih, feed, List.count_cons_self]
      · rename_i other
        rw [ih, List.count_cons_of_ne other]
    · rw [Text.takeBytes, if_neg fits, List.count_nil, List.countP_eq_zero]
      intro start mem
      have later : offset + c.utf8Size ≤ start := by
        rw [startsAfter] at mem
        split at mem
        · rcases List.mem_cons.1 mem with rfl | mem
          · exact Nat.le_refl _
          · exact (lt_of_mem_startsAfter mem).le
        · exact (lt_of_mem_startsAfter mem).le
      simp only [decide_eq_true_eq]
      omega

theorem countP_starts (t : Text) (o : Nat) :
    (ofText t).starts.countP (fun start => decide (start ≤ min o (ofText t).size)) =
      (t.takeBytes o).count '\n' + 1 := by
  have counted := countP_startsAfter 0 (min o t.byteSize) t
  rw [Nat.zero_add, Text.takeBytes_min_byteSize] at counted
  rw [ofText, List.countP_cons_of_pos (by simp), counted]

/-- The start of a line has the number of the line. -/
theorem starts_of_isLine (h : t.IsLine n start line) : (ofText t).starts[n]? = some start := by
  obtain ⟨before, after, rfl, rfl, rfl, -, begins, -⟩ := h
  rcases begins with rfl | ⟨head, rfl⟩
  · rfl
  · have feed : '\n'.utf8Size = 1 := rfl
    rw [List.append_assoc, ofText, startsAfter_append, List.singleton_append, startsAfter,
      if_pos rfl, List.count_append, List.count_singleton_self, List.getElem?_cons_succ,
      ← length_startsAfter 0 head, List.getElem?_append_right (Nat.le_refl _), Nat.sub_self,
      List.getElem?_cons_zero, Nat.zero_add, Text.byteSize_append, Text.byteSize_cons,
      Text.byteSize_nil, feed]

theorem lt_lineCount_iff : n < (ofText t).lineCount ↔ ∃ start line, t.IsLine n start line := by
  constructor
  · intro h
    rw [lineCount_ofText] at h
    exact Text.exists_isLine (Nat.le_of_lt_succ h)
  · rintro ⟨start, line, h⟩
    exact (List.getElem?_eq_some_iff.1 (starts_of_isLine h)).1

theorem toNat_line_position (short : t.byteSize < UInt32.size) (o : Nat) :
    ((ofText t).position o).line.toNat = (t.takeBytes o).count '\n' := by
  have few := Text.count_le_byteSize '\n' (t.takeBytes o)
  have part := Text.byteSize_takeBytes_le_byteSize o t
  rw [position, countP_starts, Nat.add_sub_cancel]
  exact UInt32.toNat_ofNat_of_lt' (by omega)

/-- The place of an offset on a line. -/
theorem position_of_isLine (h : t.IsLine n start line) (inside : k ≤ line.byteSize) :
    (ofText t).position (start + k) = ⟨.ofNat n, .ofNat k⟩ := by
  have bound := h.stop_le
  have within : min (start + k) (ofText t).size = start + k := by
    rw [size_ofText]
    omega
  rw [position, countP_starts, h.count_takeBytes inside, Nat.add_sub_cancel, within,
    List.getD_eq_getElem?_getD, starts_of_isLine h, Option.getD_some, Nat.add_sub_cancel_left]

theorem position_of_byteSize_le {o : Nat} (h : t.byteSize ≤ o) :
    (ofText t).position o = (ofText t).position t.byteSize := by
  have beyond : min o (ofText t).size = min t.byteSize (ofText t).size := by
    rw [size_ofText, Nat.min_eq_right h, Nat.min_self]
  rw [position, position, beyond]

/-- The sum of line start and column is the only operation that may be refused. -/
theorem offset?_of_isLine {p : Position} (h : t.IsLine p.line.toNat start line) :
    (ofText t).offset? p =
      (Checked.add start p.column.toNat).map fun sum => some (min sum t.byteSize) := by
  simp only [offset?, starts_of_isLine h]
  cases Checked.add start p.column.toNat <;> rfl

theorem offset?_of_isLine_of_le {p : Position} (short : t.byteSize < UInt32.size)
    (h : t.IsLine p.line.toNat start line) (inside : start + p.column.toNat ≤ t.byteSize) :
    (ofText t).offset? p = some (some (start + p.column.toNat)) := by
  rw [offset?_of_isLine h, Checked.add_eq (Nat.lt_of_le_of_lt inside short), Option.map_some,
    Nat.min_eq_left inside]

/-- The place of an offset is on a line that starts as many bytes before the offset as the column
says. -/
theorem exists_isLine_position {o : Nat} (short : t.byteSize < UInt32.size) (h : o ≤ t.byteSize) :
    ∃ start line, t.IsLine ((ofText t).position o).line.toNat start line ∧
      o = start + ((ofText t).position o).column.toNat ∧
      ((ofText t).position o).column.toNat ≤ line.byteSize := by
  obtain ⟨start, line, k, isLine, rfl, fits⟩ := Text.exists_isLine_around h
  have stop := isLine.stop_le
  have column : ((ofText t).position (start + k)).column.toNat = k := by
    rw [position_of_isLine isLine fits]
    exact UInt32.toNat_ofNat_of_lt' (by omega)
  rw [toNat_line_position short, column]
  exact ⟨start, line, isLine, rfl, fits⟩

/-- Offsets of one line are told apart by their columns, others by their lines. -/
theorem isBefore_position {o o' : Nat} (short : t.byteSize < UInt32.size) (h : o < o')
    (inside : o' ≤ t.byteSize) :
    ((ofText t).position o).IsBefore ((ofText t).position o') := by
  obtain ⟨start, line, isLine, same, -⟩ := exists_isLine_position short (h.le.trans inside)
  obtain ⟨start', line', isLine', same', -⟩ := exists_isLine_position short inside
  have more : ((ofText t).position o).line.toNat ≤ ((ofText t).position o').line.toNat := by
    rw [toNat_line_position short, toNat_line_position short, ← countP_startsAfter 0 o t,
      ← countP_startsAfter 0 o' t]
    refine List.countP_mono_left fun start _ before => ?_
    simp only [decide_eq_true_eq] at before ⊢
    omega
  rcases Nat.lt_or_eq_of_le more with later | one
  · exact .inl (UInt32.lt_iff_toNat_lt.2 later)
  · rw [one] at isLine
    have starts := Option.some.inj ((starts_of_isLine isLine).symm.trans (starts_of_isLine isLine'))
    exact .inr ⟨UInt32.toNat_inj.1 one, UInt32.lt_iff_toNat_lt.2 (by omega)⟩

/-- What it means for an index that the offsets of a text and the places on its lines stand for each
other. -/
structure IsFaithful (ix : LineIndex) (t : Text) : Prop where
  ordered : ix.starts.Pairwise (· < ·)
  lines : ∀ n, n < ix.lineCount ↔ ∃ start line, t.IsLine n start line
  /-- The line of an offset is the number of line feeds before it. -/
  feeds : ∀ o, (ix.position o).line.toNat = (t.takeBytes o).count '\n'
  /-- The place of an offset is not behind the end of its line. -/
  onLine : ∀ o ≤ t.byteSize, ∃ start line, t.IsLine (ix.position o).line.toNat start line ∧
    o = start + (ix.position o).column.toNat ∧ (ix.position o).column.toNat ≤ line.byteSize
  back : ∀ o ≤ t.byteSize, ix.offset? (ix.position o) = some (some o)
  increasing : ∀ o o', o < o' → o' ≤ t.byteSize → (ix.position o).IsBefore (ix.position o')
  /-- Every place that is not behind the end of its line is the place of an offset, which is never
  refused. -/
  place : ∀ p start line, t.IsLine p.line.toNat start line → p.column.toNat ≤ line.byteSize →
    ix.offset? p = some (some (start + p.column.toNat)) ∧ ix.position (start + p.column.toNat) = p
  beyond : ∀ o, t.byteSize ≤ o → ix.position o = ix.position t.byteSize
  checked : ∀ o, Checked.position ix o = some (ix.position o)

/-- The offsets of a text with a 32-bit size and the places on its lines stand for each other. -/
theorem isFaithful_ofText (short : t.byteSize < UInt32.size) : (ofText t).IsFaithful t where
  ordered := pairwise_starts t
  lines _ := lt_lineCount_iff
  feeds := toNat_line_position short
  onLine o inside := exists_isLine_position short inside
  back o inside := by
    obtain ⟨start, line, isLine, same, -⟩ := exists_isLine_position short inside
    rw [offset?_of_isLine_of_le short isLine (by omega), ← same]
  increasing o o' := isBefore_position short
  place p start line isLine inside := by
    have bound := isLine.stop_le
    refine ⟨offset?_of_isLine_of_le short isLine (by omega), ?_⟩
    rw [position_of_isLine isLine inside, UInt32.ofNat_toNat, UInt32.ofNat_toNat]
  beyond o := position_of_byteSize_le
  checked := Checked.position_eq t

/-- Three bytes and a line feed, the first two of them one character. -/
theorem isFaithful_ofText_twoLines :
    let t : Text := "éa\nb".toList
    t.byteSize < UInt32.size ∧ (ofText t).IsFaithful t ∧
      (ofText t).position 1 = ⟨0, 1⟩ ∧ (ofText t).position 3 = ⟨0, 3⟩ ∧
      (ofText t).position 4 = ⟨1, 0⟩ ∧ (ofText t).offset? ⟨1, 1⟩ = some (some 5) := by
  intro t
  have short : t.byteSize < UInt32.size := by decide
  exact ⟨short, isFaithful_ofText short, by decide, by decide, by decide, by decide⟩

end LineIndex

end RobotAnalysis
