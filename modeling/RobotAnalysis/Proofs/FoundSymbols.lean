import RobotAnalysis.SectionModel

/-!
# Findings one after the other

Findings are lists side by side, so putting them together is associative and what finds nothing can
be left out. Variables apart, rows find what they import, call or declare, and nothing else.
-/
namespace RobotAnalysis

namespace Findings

@[simp] theorem none_append (f : Findings) : none ++ f = f := rfl

@[simp] theorem append_none (f : Findings) : f ++ none = f := by
  obtain ⟨keywords, testCases, vars, imports, calls, usages⟩ := f
  change append _ none = _
  simp [append, none]

theorem append_assoc (f g h : Findings) : f ++ g ++ h = f ++ (g ++ h) := by
  change append (append f g) h = append f (append g h)
  simp [append]

@[simp] theorem concat_nil : concat [] = none := rfl

@[simp] theorem concat_cons (f : Findings) (fs : List Findings) :
    concat (f :: fs) = f ++ concat fs := rfl

theorem concat_append (fs gs : List Findings) : concat (fs ++ gs) = concat fs ++ concat gs := by
  induction fs with
  | nil => rfl
  | cons f fs ih => rw [List.cons_append, concat_cons, concat_cons, ih, append_assoc]

variable {α : Type} {l : List α}

theorem concat_flatMap (g : α → List Findings) :
    concat (l.flatMap g) = concat (l.map fun a => concat (g a)) := by
  induction l with
  | nil => rfl
  | cons a l ih => rw [List.flatMap_cons, concat_append, ih, List.map_cons, concat_cons]

/-- Elements that find nothing can be left out. -/
theorem concat_map_filter {f : α → Findings} {p : α → Bool}
    (h : ∀ a ∈ l, p a = false → f a = none) : concat (l.map f) = concat ((l.filter p).map f) := by
  induction l with
  | nil => rfl
  | cons a l ih =>
    obtain ⟨first, rest⟩ := List.forall_mem_cons.1 h
    cases kept : p a with
    | true => rw [List.filter_cons_of_pos kept, List.map_cons, List.map_cons, concat_cons,
        concat_cons, ih rest]
    | false => rw [List.filter_cons_of_neg (by simp [kept]), List.map_cons, concat_cons, first kept,
        none_append, ih rest]

theorem concat_map_eq_none {f : α → Findings} (h : ∀ a ∈ l, f a = none) :
    concat (l.map f) = none := by
  rw [concat_map_filter (p := fun _ => false) fun a ha _ => h a ha,
    List.filter_eq_nil_iff.2 fun _ _ => Bool.false_ne_true]
  rfl

/-- Findings of two kinds that can change places can be collected one kind after the other. -/
theorem concat_map_eq_append {f g h : α → Findings} {p q : α → Bool}
    (first : ∀ a ∈ l, p a = true → h a = f a) (second : ∀ a ∈ l, q a = true → h a = g a)
    (other : ∀ a ∈ l, p a = false → q a = false → h a = none)
    (apart : ∀ a, p a = true → q a = false) (swap : ∀ a b, f a ++ g b = g b ++ f a) :
    concat (l.map h) = concat ((l.filter p).map f) ++ concat ((l.filter q).map g) := by
  induction l with
  | nil => rfl
  | cons a l ih =>
    have rest := ih (fun b hb => first b (List.mem_cons_of_mem _ hb))
      (fun b hb => second b (List.mem_cons_of_mem _ hb))
      (fun b hb => other b (List.mem_cons_of_mem _ hb))
    rw [List.map_cons, concat_cons, rest]
    cases hp : p a with
    | true =>
      rw [List.filter_cons_of_pos hp, List.filter_cons_of_neg (by simp [apart a hp]), List.map_cons,
        concat_cons, first a List.mem_cons_self hp, append_assoc]
    | false =>
      rw [List.filter_cons_of_neg (by simp [hp])]
      cases hq : q a with
      | true =>
        have past : g a ++ concat ((l.filter p).map f) = concat ((l.filter p).map f) ++ g a := by
          induction l.filter p with
          | nil => simp
          | cons b m ihm =>
            rw [List.map_cons, concat_cons, ← append_assoc, ← swap, append_assoc, ihm, append_assoc]
        rw [second a List.mem_cons_self hq, List.filter_cons_of_pos hq, List.map_cons, concat_cons,
          ← append_assoc, past, append_assoc]
      | false =>
        rw [List.filter_cons_of_neg (by simp [hq]), other a List.mem_cons_self hp hq, none_append]

/-- What is found apart from variables: the symbols and calls that nodes of the tree stand for. -/
def symbols (f : Findings) : Findings := { f with vars := [], usages := [] }

@[simp] theorem symbols_append (f g : Findings) : (f ++ g).symbols = f.symbols ++ g.symbols := rfl

theorem symbols_concat_map (f : α → Findings) (l : List α) :
    (concat (l.map f)).symbols = concat (l.map fun a => (f a).symbols) := by
  induction l with
  | nil => rfl
  | cons a l ih =>
    rw [List.map_cons, List.map_cons, concat_cons, concat_cons, symbols_append, ih]

@[simp] theorem symbols_usagesOf (cells : List Cell) : (usagesOf cells).symbols = none := rfl

@[simp] theorem symbols_callOf (call? : Option Cell) : (callOf call?).symbols = callOf call? := rfl

/-- An import finds itself and nothing else but variables. -/
theorem symbols_ofImport (n : Node) :
    (ofImport n).symbols = { none with imports := (ofImport n).imports } := by
  simp only [ofImport]
  split <;> rfl

/-- Imports and calls are kept apart, so they can change places. -/
theorem symbols_ofImport_append_callOf (n : Node) (call? : Option Cell) :
    (ofImport n).symbols ++ callOf call? = callOf call? ++ (ofImport n).symbols := by
  rw [symbols_ofImport]
  change append _ _ = append _ _
  simp [append, none, callOf]

theorem symbols_ofSetting (n : Node) :
    (ofSetting n).symbols = callOf (n.firstCell? .keywordCall) := by
  rw [ofSetting, symbols_append, symbols_callOf, symbols_usagesOf, append_none]

theorem symbols_ofVariableRow (file : FileId) (n : Node) : (ofVariableRow file n).symbols = none :=
  rfl

theorem symbols_ofBodyRow (file : FileId) (scope : VariableScope) (body : Span) (n : Node) :
    (ofBodyRow file scope body n).symbols = callOf (n.firstCell? .keywordCall) := by
  simp only [ofBodyRow, symbols_append, symbols_callOf, symbols_usagesOf, append_none]
  split <;> exact append_none _

theorem symbols_ofName (file : FileId) (n : Node) (name : Cell) :
    (ofName file n name).symbols = ofName file n name := by
  rw [ofName]
  split <;> rfl

end Findings

end RobotAnalysis
