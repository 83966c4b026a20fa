import RobotAnalysis.Checked.Operation
import RobotAnalysis.Cursor
import RobotAnalysis.Proofs.ShownSpans

/-!
# Cutting texts is allowed

A text may be cut wherever a piece of it begins and ends, and the cut gives the piece. Going back
from any offset ends at the last boundary before it, hence the text typed before a cursor is found
by cuts at boundaries only. The line of an offset starts at an offset that is not after it.
-/
namespace RobotAnalysis

namespace Text

theorem isBoundary_iff {t : Text} {offset : Nat} :
    t.isBoundary offset = true ↔ t.IsBoundary offset := by
  rw [isBoundary, beq_iff_eq]
  constructor
  · intro h
    exact ⟨_, _, (takeBytes_append_dropBytes offset t).symm, h.symm⟩
  · rintro ⟨before, after, rfl, rfl⟩
    rw [takeBytes_byteSize_append]

theorem takeBytes_of_byteSize_le {t : Text} {n : Nat} (h : t.byteSize ≤ n) : t.takeBytes n = t := by
  induction t generalizing n with
  | nil => rfl
  | cons c t ih =>
    rw [byteSize_cons] at h
    rw [takeBytes, if_pos (by omega), ih (by omega)]

theorem takeBytes_min_byteSize (t : Text) (n : Nat) :
    t.takeBytes (min n t.byteSize) = t.takeBytes n := by
  by_cases h : n ≤ t.byteSize
  · rw [Nat.min_eq_left h]
  · rw [Nat.min_eq_right (by omega), takeBytes_of_byteSize_le (Nat.le_refl _),
      takeBytes_of_byteSize_le (by omega)]

/-- Where no character ends, one byte more or less makes no difference. -/
theorem takeBytes_succ {t : Text} {n : Nat} (h : t.isBoundary (n + 1) = false) :
    t.takeBytes (n + 1) = t.takeBytes n := by
  induction t generalizing n with
  | nil => rfl
  | cons c t ih =>
    by_cases here : c.utf8Size ≤ n
    · have after : n + 1 - c.utf8Size = n - c.utf8Size + 1 := by omega
      have apart : isBoundary t (n - c.utf8Size + 1) = false := by
        simp only [isBoundary, takeBytes, if_pos (Nat.le_succ_of_le here), byteSize_cons,
          beq_eq_false_iff_ne, ne_eq, after] at h ⊢
        intro ends
        rw [ends] at h
        omega
      rw [takeBytes, takeBytes, if_pos (Nat.le_succ_of_le here), if_pos here, after, ih apart]
    · rw [takeBytes, takeBytes, if_neg here, if_neg]
      intro ends
      have whole : c.utf8Size = n + 1 := by omega
      simp only [isBoundary, takeBytes, whole, Nat.le_refl, if_true, Nat.sub_self, byteSize_cons,
        beq_eq_false_iff_ne, ne_eq] at h
      have nothing := byteSize_takeBytes_le 0 t
      omega

theorem takeBytes_byteSize_add_append (t : Text) (n : Nat) (u : Text) :
    takeBytes (t.byteSize + n) (t ++ u) = t ++ takeBytes n u := by
  induction t with
  | nil => simp
  | cons c t ih =>
    have fits : c.utf8Size ≤ c.utf8Size + byteSize t + n := by omega
    have rest : c.utf8Size + byteSize t + n - c.utf8Size = byteSize t + n := by omega
    rw [List.cons_append, byteSize_cons, takeBytes, if_pos fits, rest, ih, List.cons_append]

theorem takeBytes_append_of_le {n : Nat} {t : Text} (h : n ≤ t.byteSize) (u : Text) :
    takeBytes n (t ++ u) = takeBytes n t := by
  induction t generalizing n with
  | nil =>
    obtain rfl : n = 0 := by simpa using h
    cases u with
    | nil => rfl
    | cons c u => simp [takeBytes, Nat.not_le.2 c.utf8Size_pos]
  | cons c t ih =>
    rw [byteSize_cons] at h
    rw [List.cons_append, takeBytes, takeBytes]
    split
    · rw [ih (by omega)]
    · rfl

/-- An offset at which a character is left out is not beyond it. -/
theorem lt_of_dropBytes {n : Nat} {t r : Text} {c : Char} (h : t.dropBytes n = c :: r) :
    n < (t.takeBytes n).byteSize + c.utf8Size := by
  induction t generalizing n with
  | nil => cases h
  | cons d t ih =>
    by_cases fits : d.utf8Size ≤ n
    · rw [dropBytes, if_pos fits] at h
      have later := ih h
      rw [takeBytes, if_pos fits, byteSize_cons]
      omega
    · rw [dropBytes, if_neg fits] at h
      obtain ⟨rfl, -⟩ := List.cons.inj h
      rw [takeBytes, if_neg fits, byteSize_nil]
      omega

end Text

namespace Checked

variable {t piece : Text}

theorem cut_of_shows {s : Span} (h : t.Shows s piece) : cut t s = some piece := by
  rw [cut, Text.isBoundary_iff.2 h.start, Text.isBoundary_iff.2 h.stop, h.slice_eq]
  rfl

theorem cutBetween_append (before piece after : Text) :
    cutBetween (before ++ (piece ++ after)) before.byteSize (before ++ piece).byteSize =
      some piece := by
  have shown : Text.Shows (before ++ (piece ++ after))
      (.between before.byteSize (before ++ piece).byteSize) piece :=
    ⟨before, after, rfl, by simp [Span.between]⟩
  have ordered : before.byteSize ≤ (before ++ piece).byteSize := by simp
  rw [cutBetween, range_eq ordered]
  exact cut_of_shows shown

theorem cutBetween_start (piece after : Text) :
    cutBetween (piece ++ after) 0 piece.byteSize = some piece := cutBetween_append [] piece after

theorem cutBetween_stop (before piece : Text) :
    cutBetween (before ++ piece) before.byteSize (before ++ piece).byteSize = some piece := by
  simpa using cutBetween_append before piece []

theorem floor_eq (t : Text) (n : Nat) : floor t n = some (t.takeBytes n).byteSize := by
  induction n with
  | zero =>
    have nothing : (t.takeBytes 0).byteSize = 0 := Nat.le_zero.1 (Text.byteSize_takeBytes_le 0 t)
    simp [floor, Text.isBoundary, nothing]
  | succ n ih =>
    by_cases h : t.isBoundary (n + 1) = true
    · have ends : (t.takeBytes (n + 1)).byteSize = n + 1 := by simpa [Text.isBoundary] using h
      rw [floor, if_pos h, ends]
    · rw [floor, if_neg h, ih, Text.takeBytes_succ (Bool.eq_false_iff.2 h)]

end Checked

/-! ## The text typed before a cursor -/

namespace Text

variable {needle t front back : Text}

theorem exists_of_lastPlace? {place : Nat} (h : lastPlace? needle t = some place) :
    ∃ before after, t = before ++ (needle ++ after) ∧ place = before.byteSize := by
  induction t generalizing place with
  | nil => cases h
  | cons c t ih =>
    rw [lastPlace?] at h
    cases found : lastPlace? needle t with
    | some later =>
      obtain ⟨before, after, whole, rfl⟩ := ih found
      rw [found] at h
      cases h
      exact ⟨c :: before, after, by rw [whole]; rfl, rfl⟩
    | none =>
      simp only [found, Option.ite_none_right_eq_some, Option.some.injEq] at h
      obtain ⟨after, whole⟩ := List.isPrefixOf_iff_prefix.1 h.1
      exact ⟨[], after, whole.symm, h.2.symm⟩

theorem le_lastPlace? (filled : needle ≠ []) (before after : Text) :
    ∃ place, lastPlace? needle (before ++ (needle ++ after)) = some place ∧
      before.byteSize ≤ place := by
  induction before with
  | nil =>
    obtain ⟨c, t, whole⟩ :=
      List.exists_cons_of_ne_nil (List.append_ne_nil_of_left_ne_nil filled after)
    have begins : needle.isPrefixOf (c :: t) = true :=
      List.isPrefixOf_iff_prefix.2 (whole ▸ List.prefix_append needle after)
    rw [List.nil_append, whole, lastPlace?, begins]
    cases lastPlace? needle t <;> simp
  | cons c before ih =>
    obtain ⟨place, found, bound⟩ := ih
    exact ⟨c.utf8Size + place, by rw [List.cons_append, lastPlace?, found],
      Nat.add_le_add_left bound _⟩

/-- Whether a text occurs in the join of two parts only where it ends in the first one. -/
def EndsIn (needle front back : Text) : Prop :=
  ∀ before after, front ++ back = before ++ (needle ++ after) →
    (before ++ needle).byteSize ≤ front.byteSize

theorem afterLast_le {n : Nat} (size : needle.byteSize = n) (inside : EndsIn needle front back) :
    ((lastPlace? needle (front ++ back)).map (· + n)).getD 0 ≤ front.byteSize := by
  cases found : lastPlace? needle (front ++ back) with
  | none => exact Nat.zero_le _
  | some place =>
    obtain ⟨before, after, whole, rfl⟩ := exists_of_lastPlace? found
    simpa [← size] using inside before after whole

theorem le_afterLast {n : Nat} (size : needle.byteSize = n) (filled : needle ≠ []) (head : Text) :
    (head ++ needle).byteSize ≤
      ((lastPlace? needle (head ++ needle ++ back)).map (· + n)).getD 0 := by
  obtain ⟨place, found, bound⟩ := le_lastPlace? filled head back
  rw [List.append_assoc, found]
  simpa [← size] using bound

/-- A single character that does not occur in the second part ends in the first one. -/
theorem endsIn_singleton {c : Char} (absent : c ∉ back) : EndsIn [c] front back := by
  intro before after whole
  rcases List.append_eq_append_iff.1 whole with ⟨rest, -, tail⟩ | ⟨rest, rfl, tail⟩
  · exact absurd (by simp [tail]) absent
  · cases rest with
    | nil =>
      have begins : back = c :: after := tail.symm
      exact absurd (begins ▸ List.mem_cons_self) absent
    | cons d rest =>
      obtain ⟨rfl, -⟩ := List.cons.inj tail
      simp

/-- The line feed before the last line of a text is the last one of the text. -/
theorem exists_lastLine (t : Text) :
    ∃ front, t = front ++ lastLine t ∧ '\n' ∉ lastLine t ∧
      (front = [] ∨ ∃ head, front = head ++ ['\n']) := by
  refine ⟨(t.reverse.dropWhile (· != '\n')).reverse, ?_, ?_, ?_⟩
  · rw [lastLine, ← List.reverse_append, List.takeWhile_append_dropWhile, List.reverse_reverse]
  · intro inside
    have other := List.mem_takeWhile_imp (List.mem_reverse.1 inside)
    simp at other
  · cases rest : t.reverse.dropWhile (· != '\n') with
    | nil => exact .inl rfl
    | cons c rest' =>
      have stopped := List.head?_dropWhile_not (· != '\n') t.reverse
      rw [rest] at stopped
      have feed : c = '\n' := by simpa using stopped
      exact .inr ⟨rest'.reverse, by rw [feed, List.reverse_cons]⟩

/-- What separates the last cell of a line from the cells before it. -/
def IsCellBreak (s : Text) : Prop := s = ['\t'] ∨ s = [' ', ' ']

theorem IsCellBreak.reverse_eq {s : Text} (h : IsCellBreak s) : s.reverse = s := by
  rcases h with rfl | rfl <;> rfl

theorem exists_untilSeparator (r : Text) :
    ∃ rest, r = untilSeparator r ++ rest ∧
      (rest = [] ∨ ∃ s tail, IsCellBreak s ∧ rest = s ++ tail) := by
  induction r with
  | nil => exact ⟨[], rfl, .inl rfl⟩
  | cons c r ih =>
    rw [untilSeparator]
    split
    · rename_i tab
      exact ⟨c :: r, rfl, .inr ⟨['\t'], r, .inl rfl, by rw [tab]; rfl⟩⟩
    · split
      · rename_i blanks
        simp only [Bool.and_eq_true, decide_eq_true_eq, beq_iff_eq] at blanks
        obtain ⟨rfl, next⟩ := blanks
        obtain ⟨tail, rfl⟩ := List.head?_eq_some_iff.1 next
        exact ⟨' ' :: ' ' :: tail, rfl, .inr ⟨[' ', ' '], tail, .inr rfl, rfl⟩⟩
      · obtain ⟨rest, whole, begins⟩ := ih
        exact ⟨rest, congrArg (c :: ·) whole, begins⟩

/-- No separator is passed. -/
theorem length_untilSeparator_le {s : Text} (sep : IsCellBreak s) (before after : Text) :
    (untilSeparator (before ++ (s ++ after))).length ≤ before.length := by
  induction before with
  | nil => rcases sep with rfl | rfl <;> simp [untilSeparator]
  | cons c before ih =>
    rw [List.cons_append, untilSeparator]
    split
    · exact Nat.zero_le _
    · split
      · exact Nat.zero_le _
      · exact Nat.succ_le_succ ih

theorem byteSize_le_of_append_eq {a b c d : Text} (h : a ++ b = c ++ d)
    (short : d.length ≤ b.length) : a.byteSize ≤ c.byteSize := by
  rcases List.append_eq_append_iff.1 h with ⟨rest, rfl, -⟩ | ⟨rest, rfl, tail⟩
  · simp
  · have sizes := congrArg List.length tail
    rw [List.length_append] at sizes
    have nothing : rest = [] := List.length_eq_zero_iff.1 (by omega)
    simp [nothing]

/-- The separator before the last cell of a line is the last one of the line. -/
theorem exists_lastCell (line : Text) :
    ∃ front, line = front ++ (untilSeparator line.reverse).reverse ∧
      (∀ s, IsCellBreak s → EndsIn s front (untilSeparator line.reverse).reverse) ∧
      (front = [] ∨ ∃ s head, IsCellBreak s ∧ front = head ++ s) := by
  obtain ⟨rest, whole, begins⟩ := exists_untilSeparator line.reverse
  have parts : line = rest.reverse ++ (untilSeparator line.reverse).reverse := by
    rw [← List.reverse_append, ← whole, List.reverse_reverse]
  refine ⟨rest.reverse, parts, ?_, ?_⟩
  · intro s sep before after same
    refine byteSize_le_of_append_eq (b := after) (d := (untilSeparator line.reverse).reverse) ?_ ?_
    · rw [List.append_assoc, same]
    · have reversed : line.reverse = after.reverse ++ (s ++ before.reverse) := by
        conv => lhs; rw [parts, same]
        simp [sep.reverse_eq]
      have bound := length_untilSeparator_le sep after.reverse before.reverse
      rw [← reversed] at bound
      simpa using bound
  · rcases begins with rfl | ⟨s, tail, sep, rfl⟩
    · exact .inl rfl
    · exact .inr ⟨s, tail.reverse, sep, by rw [List.reverse_append, sep.reverse_eq]⟩

end Text

namespace Checked

theorem lineStart_eq {front line : Text} (noFeed : '\n' ∉ line)
    (ends : front = [] ∨ ∃ head, front = head ++ ['\n']) :
    ((Text.lastPlace? ['\n'] (front ++ line)).map (· + 1)).getD 0 = front.byteSize := by
  have inside : Text.EndsIn ['\n'] front line := Text.endsIn_singleton noFeed
  have upper := Text.afterLast_le (n := 1) (by decide) inside
  refine Nat.le_antisymm upper ?_
  rcases ends with rfl | ⟨head, rfl⟩
  · exact Nat.zero_le _
  · exact Text.le_afterLast (by decide) (by decide) head

theorem cellStart_eq {front cell : Text}
    (inside : ∀ s, Text.IsCellBreak s → Text.EndsIn s front cell)
    (ends : front = [] ∨ ∃ s head, Text.IsCellBreak s ∧ front = head ++ s) :
    max (((Text.lastPlace? [' ', ' '] (front ++ cell)).map (· + 2)).getD 0)
      (((Text.lastPlace? ['\t'] (front ++ cell)).map (· + 1)).getD 0) = front.byteSize := by
  have blanks := Text.afterLast_le (n := 2) (by decide) (inside [' ', ' '] (.inr rfl))
  have tab := Text.afterLast_le (n := 1) (by decide) (inside ['\t'] (.inl rfl))
  refine Nat.le_antisymm (Nat.max_le.2 ⟨blanks, tab⟩) ?_
  rcases ends with rfl | ⟨s, head, rfl | rfl, rfl⟩
  · exact Nat.zero_le _
  · exact Nat.le_trans (Text.le_afterLast (by decide) (by decide) head) (Nat.le_max_right _ _)
  · exact Nat.le_trans (Text.le_afterLast (by decide) (by decide) head) (Nat.le_max_left _ _)

/-- The text typed before a cursor is found by cuts that are allowed. -/
theorem typedBefore_eq (t : Text) (offset : Nat) :
    typedBefore t offset = some (t.typedBefore offset) := by
  obtain ⟨front, whole, noFeed, begun⟩ := Text.exists_lastLine (t.takeBytes offset)
  obtain ⟨before, parts, inside, separated⟩ :=
    Text.exists_lastCell (Text.lastLine (t.takeBytes offset))
  rw [Text.typedBefore]
  generalize Text.lastLine (t.takeBytes offset) = line at *
  generalize (Text.untilSeparator line.reverse).reverse = cell at *
  have stop : floor t (min offset t.byteSize) = some (front ++ line).byteSize := by
    rw [floor_eq, Text.takeBytes_min_byteSize, whole]
  have ends : t = (front ++ line) ++ t.dropBytes offset := by
    rw [← whole, Text.takeBytes_append_dropBytes]
  have head : cutBetween t 0 (front ++ line).byteSize = some (front ++ line) := by
    rw [ends]
    exact cutBetween_start _ _
  have last : cutBetween t front.byteSize (front ++ line).byteSize = some line := by
    rw [ends, List.append_assoc]
    exact cutBetween_append front line _
  have typed : cutBetween line before.byteSize line.byteSize = some cell := by
    rw [parts]
    exact cutBetween_stop before cell
  have start := cellStart_eq inside separated
  rw [← parts] at start
  simp only [typedBefore, stop, head, lineStart_eq noFeed begun, last, start, typed,
    Option.bind_eq_bind, Option.bind_some]
  rfl

end Checked

/-! ## Lines of offsets -/

namespace LineIndex

/-- Lines start one after the other. -/
theorem lt_of_mem_startsAfter {offset start : Nat} {t : Text} (h : start ∈ startsAfter offset t) :
    offset < start := by
  induction t generalizing offset with
  | nil => cases h
  | cons c t ih =>
    have filled := c.utf8Size_pos
    rw [startsAfter] at h
    split at h
    · rcases List.mem_cons.1 h with rfl | h
      · omega
      · have later := ih h
        omega
    · have later := ih h
      omega

theorem pairwise_startsAfter (offset : Nat) (t : Text) :
    (startsAfter offset t).Pairwise (· < ·) := by
  induction t generalizing offset with
  | nil => exact .nil
  | cons c t ih =>
    rw [startsAfter]
    split
    · exact .cons (fun _ h => lt_of_mem_startsAfter h) (ih _)
    · exact ih _

/-- Of increasing starts those up to an offset come first. -/
theorem getElem_le_of_lt_countP {starts : List Nat} (ordered : starts.Pairwise (· < ·))
    {offset n : Nat} (h : n < starts.countP fun start => decide (start ≤ offset)) :
    ∃ start, starts[n]? = some start ∧ start ≤ offset := by
  induction ordered generalizing n with
  | nil => cases h
  | cons later _ ih =>
    rename_i a starts _
    by_cases up : a ≤ offset
    · rw [List.countP_cons_of_pos (by simpa using up)] at h
      cases n with
      | zero => exact ⟨a, rfl, up⟩
      | succ n => simpa using ih (Nat.lt_of_succ_lt_succ h)
    · have beyond : starts.countP (fun start => decide (start ≤ offset)) = 0 := by
        refine List.countP_eq_zero.2 fun start mem => ?_
        have := later start mem
        simp only [decide_eq_true_eq]
        omega
      rw [List.countP_cons_of_neg (by simpa using up), beyond] at h
      cases h

end LineIndex

namespace Checked

/-- The line of an offset exists and starts at or before the offset. -/
theorem position_eq (t : Text) (offset : Nat) :
    position (.ofText t) offset = some ((LineIndex.ofText t).position offset) := by
  have ordered : (LineIndex.ofText t).starts.Pairwise (· < ·) :=
    .cons (fun _ h => LineIndex.lt_of_mem_startsAfter h) (LineIndex.pairwise_startsAfter 0 t)
  have first : 0 < (LineIndex.ofText t).starts.countP
      fun start => decide (start ≤ min offset (LineIndex.ofText t).size) := by
    simp [LineIndex.ofText]
  obtain ⟨start, found, before⟩ :=
    LineIndex.getElem_le_of_lt_countP ordered (Nat.sub_lt first Nat.zero_lt_one)
  have line : (LineIndex.ofText t).starts.getD ((LineIndex.ofText t).starts.countP
      (fun start => decide (start ≤ min offset (LineIndex.ofText t).size)) - 1) 0 = start := by
    rw [List.getD_eq_getElem?_getD, found, Option.getD_some]
  simp only [position, LineIndex.position, found, line, sub_eq before, Option.bind_eq_bind,
    Option.bind_some]
  rfl

theorem positions_eq (t : Text) (s : Span) :
    positions (.ofText t) s = some ((LineIndex.ofText t).positions s) := by
  rw [positions, position_eq, position_eq]
  rfl

end Checked

end RobotAnalysis
