import Mathlib.Data.List.Basic
import RobotAnalysis.Path

/-!
# The components of paths

The components of a path are what it begins with, the root or `.`, and the steps that its segments
stand for. Joining paths puts their steps one behind the other, and the parent of a path takes the
last step away. Resolving leaves names where they stand: only what comes before them is resolved.
-/
namespace RobotAnalysis

namespace Path

theorem segments_append (s t : Text) : segments (s ++ '/' :: t) = segments s ++ segments t :=
  Sequence.splitBy_append_cons rfl s t

/-- Segments without separators in them are those of the text that they are joined to. -/
theorem segments_ofSegments {ws : List Text} (filled : ws ≠ [])
    (h : ∀ w ∈ ws, ∀ c ∈ w, (c == '/') = false) : segments (ofSegments ws) = ws := by
  induction ws with
  | nil => exact absurd rfl filled
  | cons w ws ih =>
    obtain ⟨first, rest⟩ := List.forall_mem_cons.1 h
    have alone : segments w = [w] := Sequence.splitBy_of_forall first
    cases ws with
    | nil => exact alone
    | cons v vs =>
      have joined : ofSegments (w :: v :: vs) = w ++ '/' :: ofSegments (v :: vs) := rfl
      rw [joined, segments_append, alone, ih (List.cons_ne_nil v vs) rest, List.singleton_append]

/-- The components that the segments of a text stand for. -/
def steps (text : Text) : List Component := (segments text).filterMap component?

/-- What a path begins with: the root, the directory itself where that is written, or nothing. -/
def anchor (text : Text) : List Component :=
  if text.head? = some '/' then [.root]
  else if (segments text).head? = some ['.'] then [.current]
  else []

theorem components_eq (p : Path) : p.components = anchor p.text ++ steps p.text := by
  rw [components, anchor, isAbsolute, steps]
  by_cases absolute : p.text.head? = some '/'
  · rw [if_pos (beq_iff_eq.2 absolute), if_pos absolute]
    rfl
  · rw [if_neg (fun h => absolute (beq_iff_eq.1 h)), if_neg absolute]
    split
    · rename_i rest split
      rw [split]
      rfl
    · rename_i other
      rw [if_neg, List.nil_append]
      intro current
      obtain ⟨rest, split⟩ := List.head?_eq_some_iff.1 current
      exact other rest split

@[simp] theorem steps_nil : steps [] = [] := rfl

/-- Nothing but the beginning of a path stands for the root. -/
theorem root_notMem_steps {text : Text} : .root ∉ steps text := by
  intro root
  obtain ⟨w, -, step⟩ := List.mem_filterMap.1 root
  rw [component?] at step
  split_ifs at step <;> cases step

theorem steps_append (s t : Text) : steps (s ++ '/' :: t) = steps s ++ steps t := by
  rw [steps, segments_append, List.filterMap_append, ← steps, ← steps]

/-- What a path begins with is known before its first separator. -/
theorem anchor_append {s : Text} (filled : s ≠ []) (t : Text) :
    anchor (s ++ '/' :: t) = anchor s := by
  have first : (s ++ '/' :: t).head? = s.head? := by
    rw [List.head?_append_of_ne_nil _ filled]
  have segment : (segments (s ++ '/' :: t)).head? = (segments s).head? := by
    rw [segments_append]
    exact List.head?_append_of_ne_nil _ (Sequence.splitBy_ne_nil _ s)
  rw [anchor, anchor, first, segment]

theorem components_append {s : Text} (filled : s ≠ []) (t : Text) :
    (Path.mk (s ++ '/' :: t)).components = (Path.mk s).components ++ steps t := by
  simp only [components_eq, anchor_append filled, steps_append, List.append_assoc]

/-- A relative path adds its steps to a directory. -/
theorem components_join {d p : Path} (filled : d.text ≠ []) (relative : p.isAbsolute = false) :
    (d.join p).components = d.components ++ steps p.text := by
  rw [join, if_neg (by simp [relative])]
  split
  · rename_i ends
    rw [Bool.or_eq_true, List.isEmpty_iff, beq_iff_eq] at ends
    obtain ⟨front, text⟩ := List.getLast?_eq_some_iff.1 (ends.resolve_left filled)
    have whole : d = ⟨front ++ '/' :: []⟩ := by rw [← text]
    rw [whole]
    dsimp only
    rw [List.append_assoc, List.cons_append, List.nil_append]
    by_cases root : front = []
    · rw [root, List.nil_append, List.nil_append, components_eq, components_eq, anchor, anchor,
        steps, steps]
      simp only [List.head?_cons, if_true]
      exact congrArg (_ :: ·) (steps_append [] p.text)
    · rw [components_append root, components_append root, steps_nil, List.append_nil]
  · exact components_append filled p.text

theorem anchor_of_relative {p : Path} (relative : p.isAbsolute = false) :
    anchor p.text = [] ∨ anchor p.text = [.current] := by
  rw [anchor, if_neg (by simpa [isAbsolute] using relative)]
  split
  · exact .inr rfl
  · exact .inl rfl

theorem anchor_of_absolute {p : Path} (absolute : p.isAbsolute = true) :
    anchor p.text = [.root] := by
  rw [anchor, if_pos (by simpa [isAbsolute] using absolute)]

/-- Every segment that means something is a step. -/
theorem component?_eq_none {segment : Text} : component? segment = none ↔ isIgnored segment := by
  rw [component?]
  split
  · simp_all
  · split <;> simp_all

theorem filterMap_dropTrailing (ws : List Text) :
    (Sequence.dropTrailing isIgnored ws).filterMap component? = ws.filterMap component? := by
  obtain ⟨dropped, whole, ignored⟩ := Sequence.exists_dropTrailing_append isIgnored ws
  have nothing : dropped.filterMap component? = [] :=
    List.filterMap_eq_nil_iff.2 fun w hw => component?_eq_none.2 (ignored w hw)
  conv => rhs; rw [whole, List.filterMap_append, nothing, List.append_nil]

/-- The last step is the one that is taken away. -/
theorem filterMap_withoutLast (ws : List Text) :
    (withoutLast ws).filterMap component? = (ws.filterMap component?).dropLast := by
  rw [withoutLast, filterMap_dropTrailing, ← filterMap_dropTrailing ws]
  rcases List.eq_nil_or_concat (Sequence.dropTrailing isIgnored ws) with none | ⟨front, w, kept⟩
  · rw [none]
    rfl
  · have last : (Sequence.dropTrailing isIgnored ws).getLast? = some w := by
      rw [kept, List.concat_eq_append, List.getLast?_concat]
    have meant := Sequence.getLast?_dropTrailing last
    have step : component? w ≠ Option.none := by
      rw [Ne, component?_eq_none, meant]
      exact Bool.false_ne_true
    obtain ⟨c, step⟩ := Option.ne_none_iff_exists'.1 step
    rw [kept, List.concat_eq_append, List.dropLast_concat, List.filterMap_append,
      List.filterMap_cons_some step, List.filterMap_nil, List.dropLast_concat]

theorem withoutLast_isPrefix (ws : List Text) : withoutLast ws <+: ws :=
  (Sequence.dropTrailing_isPrefix _ _).trans
    ((List.dropLast_prefix _).trans (Sequence.dropTrailing_isPrefix _ _))

/-- Segments taken from a text are those of the text that they are joined to. -/
theorem segments_ofSegments_of_isPrefix {ws : List Text} {text : Text} (h : ws <+: segments text)
    (filled : ws ≠ []) : segments (ofSegments ws) = ws :=
  segments_ofSegments filled fun _ hw => Sequence.of_mem_splitBy (h.subset hw)

theorem steps_ofSegments {ws : List Text} {text : Text} (h : ws <+: segments text) :
    steps (ofSegments ws) = ws.filterMap component? := by
  by_cases filled : ws = []
  · rw [filled]
    rfl
  · rw [steps, segments_ofSegments_of_isPrefix h filled]

theorem head?_segments {text : Text} :
    (segments text).head? = some [] ↔ text = [] ∨ text.head? = some '/' := by
  cases text with
  | nil => exact iff_of_true rfl (.inl rfl)
  | cons c t =>
    obtain ⟨w, ws, split⟩ := List.exists_cons_of_ne_nil (Sequence.splitBy_ne_nil (· == '/') t)
    rw [segments, Sequence.splitBy, split]
    by_cases separator : c = '/'
    · simp [separator]
    · simp [separator]

/-- What a path begins with is read off its first segment. -/
theorem anchor_congr {s t : Text} (hs : s ≠ []) (ht : t ≠ [])
    (h : (segments s).head? = (segments t).head?) : anchor s = anchor t := by
  have root : s.head? = some '/' ↔ t.head? = some '/' := by
    have first : (segments s).head? = some [] ↔ s.head? = some '/' := by
      rw [head?_segments, or_iff_right hs]
    have second : (segments t).head? = some [] ↔ t.head? = some '/' := by
      rw [head?_segments, or_iff_right ht]
    rw [← first, ← second, h]
  simp only [anchor, root, h]

/-- A relative path cut behind some of its segments begins as it does. -/
theorem components_ofSegments {p : Path} (relative : p.isAbsolute = false) (written : p.text ≠ [])
    {ws : List Text} (h : ws <+: segments p.text) (filled : ws ≠ []) :
    (Path.mk (ofSegments ws)).components = anchor p.text ++ ws.filterMap component? := by
  have cut := segments_ofSegments_of_isPrefix h filled
  have first : (segments (ofSegments ws)).head? = (segments p.text).head? := by
    obtain ⟨rest, whole⟩ := h
    rw [cut, ← whole, List.head?_append_of_ne_nil _ filled]
  have nonempty : ofSegments ws ≠ [] := by
    intro empty
    rw [head?_segments.2 (.inl empty)] at first
    have root := (head?_segments.1 first.symm).resolve_left written
    simp [isAbsolute, root] at relative
  rw [components_eq, anchor_congr nonempty written first, steps_ofSegments h]

section Parent

variable {p : Path}

/-- Only a path with a step has a parent. -/
theorem parted_of_steps (named : steps p.text ≠ []) :
    ¬ (p.components = [] ∨ p.components = [.root]) := by
  rw [components_eq, List.append_eq_nil_iff, List.append_eq_singleton_iff]
  rintro (⟨-, none⟩ | ⟨-, root⟩ | ⟨-, none⟩)
  · exact named none
  · exact root_notMem_steps (root ▸ List.mem_singleton_self _)
  · exact named none

theorem exists_parent?_of_absolute (absolute : p.isAbsolute = true) (named : steps p.text ≠ []) :
    ∃ d, p.parent? = some d ∧ d.components = anchor p.text ++ (steps p.text).dropLast := by
  obtain ⟨t, text⟩ : ∃ t, p.text = '/' :: t := List.head?_eq_some_iff.1 (by
    simpa [isAbsolute] using absolute)
  have behind (u : Text) : steps ('/' :: u) = steps u := steps_append [] u
  rw [parent?, if_neg (parted_of_steps named), if_pos absolute]
  refine ⟨_, rfl, ?_⟩
  rw [components_eq, text, List.drop_one, List.tail_cons, behind, behind,
    steps_ofSegments (withoutLast_isPrefix _), filterMap_withoutLast]
  rfl

theorem exists_parent?_of_relative (relative : p.isAbsolute = false) (named : steps p.text ≠ []) :
    ∃ d, p.parent? = some d ∧ d.components = anchor p.text ++ (steps p.text).dropLast := by
  have written : p.text ≠ [] := by
    intro empty
    rw [empty] at named
    exact named rfl
  rw [parent?, if_neg (parted_of_steps named), relative, if_neg Bool.false_ne_true]
  split
  · rename_i rest split
    have meant : rest.all isIgnored = false := by
      rw [Bool.eq_false_iff]
      intro all
      refine named ?_
      rw [steps, split, List.filterMap_cons_none (by rfl)]
      exact List.filterMap_eq_nil_iff.2 fun w hw =>
        component?_eq_none.2 (List.all_eq_true.1 all w hw)
    rw [meant, if_neg Bool.false_ne_true]
    have cut : ['.'] :: withoutLast rest <+: segments p.text := by
      rw [split]
      exact (List.prefix_cons_inj _).2 (withoutLast_isPrefix rest)
    refine ⟨_, rfl, ?_⟩
    rw [components_ofSegments relative written cut (List.cons_ne_nil _ _),
      List.filterMap_cons_none (by rfl), filterMap_withoutLast, steps, split,
      List.filterMap_cons_none (by rfl)]
  · rename_i other
    refine ⟨_, rfl, ?_⟩
    rw [steps, ← filterMap_withoutLast]
    by_cases filled : withoutLast (segments p.text) = []
    · have nothing : anchor p.text = [] := by
        refine (anchor_of_relative relative).resolve_right fun current => ?_
        rw [anchor] at current
        split_ifs at current with root segment
        · cases current
        · obtain ⟨rest, split⟩ := List.head?_eq_some_iff.1 segment
          exact other rest split
      rw [filled, nothing]
      rfl
    · exact components_ofSegments relative written (withoutLast_isPrefix _) filled

/-- A path that ends with a name has a parent, which has all its other components. -/
theorem exists_parent? {front : List Component} {name : Text}
    (h : p.components = front ++ [.normal name]) :
    ∃ d, p.parent? = some d ∧ d.components = front := by
  have whole := components_eq p
  have named : steps p.text ≠ [] := by
    intro none
    rw [h, none, List.append_nil] at whole
    have last := congrArg List.getLast? whole
    rw [List.getLast?_concat, anchor] at last
    split_ifs at last <;> simp at last
  have others : front = anchor p.text ++ (steps p.text).dropLast := by
    rw [← List.dropLast_append_of_ne_nil named, ← whole, h, List.dropLast_concat]
  rw [others]
  cases absolute : p.isAbsolute with
  | true => exact exists_parent?_of_absolute absolute named
  | false => exact exists_parent?_of_relative absolute named

end Parent

/-- Names stay where they are, behind what comes before them. -/
theorem normalize_append_names (cs : List Component) {names : List Component}
    (h : ∀ c ∈ names, ∃ name, c = .normal name) :
    normalize (cs ++ names) = normalize cs ++ names := by
  have pushed (reversed : List Component) :
      names.foldl pushResolved reversed = names.reverse ++ reversed := by
    induction names generalizing reversed with
    | nil => rfl
    | cons c names ih =>
      obtain ⟨⟨name, rfl⟩, rest⟩ := List.forall_mem_cons.1 h
      rw [List.foldl_cons, ih rest, pushResolved, List.reverse_cons, List.append_assoc]
      · rfl
      · nofun
      · nofun
  rw [normalize, List.foldl_append, pushed, List.reverse_append, List.reverse_reverse, normalize]

/-- The directory itself means nothing in the middle of a path. -/
theorem normalize_append_current (cs ds : List Component) :
    normalize (cs ++ .current :: ds) = normalize (cs ++ ds) := by
  rw [normalize, normalize, List.foldl_append, List.foldl_append, List.foldl_cons]
  rfl

/-- A relative path is resolved from a directory by what comes behind the directory. -/
theorem normalize_join (d : Path) {p : Path} (relative : p.isAbsolute = false) :
    normalize (d.join p).components = normalize (d.components ++ p.components) := by
  by_cases empty : d.text = []
  · have alone : d.join p = p := by
      rw [join, if_neg (by simp [relative]), empty]
      rfl
    have nothing : d.components = [] := by
      rw [components_eq, empty]
      rfl
    rw [alone, nothing, List.nil_append]
  · rw [components_join empty relative, components_eq p]
    rcases anchor_of_relative relative with none | current
    · rw [none, List.nil_append]
    · rw [current, List.singleton_append, normalize_append_current]

end Path

end RobotAnalysis
