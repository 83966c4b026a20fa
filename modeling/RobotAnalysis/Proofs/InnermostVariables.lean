import Mathlib.Logic.Relation
import RobotAnalysis.Cursor
import RobotAnalysis.Proofs.OutermostVariables

/-!
# The innermost variable under a cursor

From an outermost variable that a cursor touches the search goes on in what stands between its
braces, and from there in the same way, as long as the cursor touches a variable there. Places in a
name are moved to places of the text on the way back. What is found is therefore a variable of the
text that the cursor touches, and no variable in its name is touched.
-/
namespace RobotAnalysis

namespace Span

/-- What stands between the braces of a variable that covers these bytes. -/
def inBraces (s : Span) : Span := ⟨s.start + 2, s.size - 3⟩

variable {n offset : Nat} {s : Span}

@[simp] theorem inBraces_shift (n : Nat) (s : Span) :
    (s.shift n).inBraces = s.inBraces.shift n := rfl

theorem shift_shift (m n : Nat) (s : Span) : (s.shift m).shift n = s.shift (n + m) := by
  simp [shift, Nat.add_assoc]

theorem touches_shift (h : n ≤ offset) (s : Span) :
    (s.shift n).touches offset = s.touches (offset - n) := by
  rw [Bool.eq_iff_iff, touches_iff, touches_iff, start_shift, stop_shift]
  omega

end Span

namespace Text

/-- Whether a variable stands directly in another one: it is an outermost variable of what stands
between the braces. -/
def HoldsDirectly (t : Text) (outer inner : Span) : Prop :=
  ∃ name s, t.Shows outer.inBraces name ∧ s ∈ VariableToken.places name ∧
    inner = s.shift outer.inBraces.start

/-- What stands in a piece of a text stands in the text. -/
theorem HoldsDirectly.shift {t piece : Text} {s a b : Span} (shown : t.Shows s piece)
    (h : piece.HoldsDirectly a b) : t.HoldsDirectly (a.shift s.start) (b.shift s.start) := by
  obtain ⟨name, r, inner, mem, rfl⟩ := h
  exact ⟨name, r, shown.trans inner, mem, by simp [Span.shift_shift]⟩

/-- What there is to say about the innermost variable at an offset of a text. -/
structure InnermostAt (t : Text) (offset : Nat) (s : Span) : Prop where
  reached : ∃ r ∈ VariableToken.places t, r.touches offset = true ∧
    Relation.ReflTransGen t.HoldsDirectly r s
  touched : s.touches offset = true
  isVariable : t.HasVariable s
  alone : ∃ name, t.Shows s.inBraces name ∧
    ∀ r, name.HasVariable r → (r.shift s.inBraces.start).touches offset = false

end Text

namespace VariableToken

variable {t : Text} {offset : Nat} {s : Span} {v : VariableToken}

theorem shows_inBraces (h : v ∈ all t) : t.Shows v.span.inBraces v.inner := by
  obtain ⟨shown, stop⟩ := shows_inner h
  have size : v.span.size - 3 = v.inner.byteSize := by
    rw [Span.stop] at stop
    omega
  rw [Span.inBraces, size]
  exact shown

/-- The brace before a name is no backslash, so the variables of a name are variables of the
text. -/
theorem hasVariable_of_inner (h : v ∈ all t) (inside : v.inner.HasVariable s) :
    t.HasVariable (s.shift v.span.inBraces.start) := by
  obtain ⟨front, behind, whole, brace, size, -⟩ := exists_around_inner h
  obtain ⟨before, token, after, name, rfl, live, isVariable⟩ := inside
  refine ⟨front ++ before, token, after ++ '}' :: behind, ?_, ?_, ?_, isVariable⟩
  · rw [whole, name]
    simp
  · rw [Span.inBraces, ← size, Text.byteSize_append]
    rfl
  · cases before with
    | nil =>
      rw [List.append_nil, brace]
      decide
    | cons c before => rwa [List.getLast?_append_of_ne_nil _ (List.cons_ne_nil c before)]

theorem innermostAt?_eq_none_iff_places :
    innermostAt? t offset = none ↔ ∀ r ∈ places t, r.touches offset = false := by
  rw [innermostAt?_eq_none_iff, List.forall_mem_map]

/-- An offset that touches a variable touches an outermost one. -/
theorem exists_touched (h : t.HasVariable s) (touched : s.touches offset = true) :
    ∃ r ∈ places t, r.touches offset = true := by
  obtain ⟨start, stop⟩ := (Span.touches_iff _ _).1 touched
  rcases exists_place_around h with mem | ⟨r, mem, around⟩
  · exact ⟨s, mem, touched⟩
  · exact ⟨r, mem, (Span.touches_iff _ _).2 ⟨around.1.le.trans start, stop.trans around.2.le⟩⟩

/-- An outermost variable is the innermost one where nothing in its name is touched. -/
theorem innermostAt_of_alone (h : v ∈ all t) (touched : v.span.touches offset = true)
    (alone : ∀ r, v.inner.HasVariable r → (r.shift v.span.inBraces.start).touches offset = false) :
    t.InnermostAt offset v.span where
  reached := ⟨v.span, List.mem_map_of_mem h, touched, .refl⟩
  touched := touched
  isVariable := hasVariable_of_mem_places (List.mem_map_of_mem h)
  alone := ⟨v.inner, shows_inBraces h, alone⟩

/-- What is innermost in the name of an outermost variable is so in the text. -/
theorem innermostAt_shift (h : v ∈ all t) (touched : v.span.touches offset = true)
    (behind : v.span.inBraces.start ≤ offset)
    (inside : v.inner.InnermostAt (offset - v.span.inBraces.start) s) :
    t.InnermostAt offset (s.shift v.span.inBraces.start) := by
  have shown := shows_inBraces h
  obtain ⟨r, mem, -, down⟩ := inside.reached
  obtain ⟨name, inner, alone⟩ := inside.alone
  refine ⟨⟨v.span, List.mem_map_of_mem h, touched, ?_⟩, ?_, hasVariable_of_inner h inside.isVariable,
    ⟨name, shown.trans inner, fun r isVariable => ?_⟩⟩
  · have moved := Relation.ReflTransGen.lift (fun r : Span => r.shift v.span.inBraces.start)
      (fun _ _ => Text.HoldsDirectly.shift shown)
    exact .head ⟨v.inner, r, shown, mem, rfl⟩ (moved _ _ down)
  · rw [Span.touches_shift behind]
    exact inside.touched
  · rw [Span.inBraces_shift, Span.start_shift, ← Span.shift_shift, Span.touches_shift behind]
    exact alone r isVariable

theorem innermostAt_of_innermostAt? (h : innermostAt? t offset = some s) :
    t.InnermostAt offset s := by
  fun_induction innermostAt? t offset generalizing s with
  | case1 => cases h
  | case2 t offset outer found empty =>
    cases h
    have touched := touches_of_find? found
    refine innermostAt_of_alone (List.mem_of_find?_eq_some found) touched ?_
    rintro r ⟨before, token, after, whole, -, -, isVariable⟩
    rw [empty] at whole
    simp [isVariable.ne_nil] at whole
  | case3 t offset outer found filled start inside nested deeper =>
    rename_i ih
    cases h
    have touched := touches_of_find? found
    exact innermostAt_shift (List.mem_of_find?_eq_some found) touched inside.1 (ih deeper)
  | case4 t offset outer found filled start inside nothing =>
    cases h
    have touched := touches_of_find? found
    refine innermostAt_of_alone (List.mem_of_find?_eq_some found) touched ?_
    intro r isVariable
    have behind : outer.span.inBraces.start ≤ offset := inside.1
    rw [Span.touches_shift behind, Bool.eq_false_iff]
    intro reached
    obtain ⟨place, mem, touches⟩ := exists_touched isVariable reached
    have apart := innermostAt?_eq_none_iff_places.1 nothing place mem
    exact Bool.false_ne_true (apart.symm.trans touches)
  | case5 t offset outer found filled start =>
    rename_i outside
    cases h
    have touched := touches_of_find? found
    refine innermostAt_of_alone (List.mem_of_find?_eq_some found) touched ?_
    intro r isVariable
    -- what is touched inside of the name is inside of the name
    rw [Bool.eq_false_iff, Ne, Span.touches_iff, Span.start_shift, Span.stop_shift]
    rintro ⟨low, high⟩
    obtain ⟨before, token, after, whole, place, -, -⟩ := isVariable
    have room : r.stop ≤ outer.inner.byteSize := Text.Shows.stop_le ⟨before, after, whole, place⟩
    have same : outer.span.inBraces.start = start := rfl
    exact outside ⟨by omega, by omega⟩

/-- No variable is found exactly where the offset touches no outermost one. What is found is reached
from an outermost variable that is touched by going from name to name, is touched itself, and is a
variable of the text whose name has no variable that is touched. A search in slices of the text
finds the same one, and the offset stays in all of them. -/
theorem innermostAt?_innermost (t : Text) (offset : Nat) :
    (innermostAt? t offset = none ↔ ∀ r ∈ places t, r.touches offset = false) ∧
    (∀ s, innermostAt? t offset = some s → t.InnermostAt offset s) ∧
    (t.byteSize < UInt32.size → Checked.innermostAt t offset = some (innermostAt? t offset)) :=
  ⟨innermostAt?_eq_none_iff_places, fun _ found => innermostAt_of_innermostAt? found,
    fun short => innermostAt_eq short offset⟩

end VariableToken

end RobotAnalysis
