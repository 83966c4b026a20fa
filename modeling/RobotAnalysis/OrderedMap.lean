/-!
# Insertion-ordered maps

A map lists its entries in the order in which their keys were first put in. Keys are told apart by a
part of them: two keys with the same part are one key, and the map keeps the one that was put in
first. A new value for a known key stands where the old one stood, and an entry that is removed
leaves the others in their order.
-/
namespace RobotAnalysis

/-- Entries with different keys, in the order in which the keys were put in. -/
structure OrderedMap {κ ι : Type} (part : κ → ι) (α : Type) where
  entries : List (κ × α)
  nodup : (entries.map fun e => part e.1).Nodup

namespace OrderedMap

variable {κ ι α : Type} {part : κ → ι}

def empty : OrderedMap part α := ⟨[], List.nodup_nil⟩

/-- The parts of the keys. -/
def parts (m : OrderedMap part α) : List ι := m.entries.map fun e => part e.1

variable [DecidableEq ι]

def get? (m : OrderedMap part α) (k : κ) : Option α :=
  (m.entries.find? fun e => decide (part e.1 = part k)).map Prod.snd

def insert (m : OrderedMap part α) (k : κ) (a : α) : OrderedMap part α :=
  if known : part k ∈ m.parts then
    { entries := m.entries.map fun e => if part e.1 = part k then (e.1, a) else e
      nodup := by
        have kept : (fun e : κ × α => part (if part e.1 = part k then (e.1, a) else e).1) =
            fun e => part e.1 := by
          funext e
          split <;> rfl
        simpa only [List.map_map, Function.comp_def, kept] using m.nodup }
  else
    { entries := m.entries ++ [(k, a)]
      nodup := by
        rw [List.map_append, List.nodup_append]
        refine ⟨m.nodup, by simp, ?_⟩
        intro i hi j hj same
        rw [List.map_singleton, List.mem_singleton] at hj
        exact known (hj ▸ same ▸ hi) }

/-- Removes the entry of a key, and returns its value if there was one. -/
def remove (m : OrderedMap part α) (k : κ) : Option α × OrderedMap part α :=
  (m.get? k,
    { entries := m.entries.filter fun e => decide (part e.1 ≠ part k)
      nodup := m.nodup.sublist (List.filter_sublist.map _) })

/-- Everything about a map follows from its entries. -/
theorem get?_eq_some_iff {m : OrderedMap part α} {k : κ} {a : α} :
    m.get? k = some a ↔ ∃ l, part l = part k ∧ (l, a) ∈ m.entries := by
  obtain ⟨entries, nodup⟩ := m
  simp only [get?]
  induction entries with
  | nil => simp
  | cons e entries ih =>
    rw [List.map_cons, List.nodup_cons] at nodup
    by_cases same : part e.1 = part k
    · rw [List.find?_cons_of_pos (by simpa using same), Option.map_some, Option.some.injEq]
      constructor
      · rintro rfl
        exact ⟨e.1, same, List.mem_cons_self⟩
      · rintro ⟨l, part_l, mem⟩
        rcases List.mem_cons.1 mem with here | later
        · rw [← here]
        · refine absurd ?_ nodup.1
          rw [same, ← part_l]
          exact List.mem_map_of_mem later
    · rw [List.find?_cons_of_neg (by simpa using same), ih nodup.2]
      constructor
      · rintro ⟨l, part_l, mem⟩
        exact ⟨l, part_l, List.mem_cons_of_mem _ mem⟩
      · rintro ⟨l, part_l, mem⟩
        rcases List.mem_cons.1 mem with here | later
        · exact absurd (here ▸ part_l) same
        · exact ⟨l, part_l, later⟩

theorem isSome_get? {m : OrderedMap part α} {k : κ} :
    (m.get? k).isSome ↔ part k ∈ m.parts := by
  rw [Option.isSome_iff_exists]
  simp only [get?_eq_some_iff, parts, List.mem_map, Prod.exists]
  constructor
  · rintro ⟨a, l, same, mem⟩
    exact ⟨l, a, mem, same⟩
  · rintro ⟨l, a, mem, same⟩
    exact ⟨a, l, same, mem⟩

theorem get?_eq_none_iff {m : OrderedMap part α} {k : κ} : m.get? k = none ↔ part k ∉ m.parts := by
  rw [← isSome_get?, Option.not_isSome_iff_eq_none]

/-- Keys with the same part have the same value. -/
theorem get?_congr {m : OrderedMap part α} {k l : κ} (h : part k = part l) :
    m.get? k = m.get? l := by
  rw [get?, get?, h]

theorem entries_insert_of_known {m : OrderedMap part α} {k : κ} (h : (m.get? k).isSome) (a : α) :
    (m.insert k a).entries =
      m.entries.map fun e => if part e.1 = part k then (e.1, a) else e := by
  rw [insert, dif_pos (isSome_get?.1 h)]

theorem entries_insert_of_new {m : OrderedMap part α} {k : κ} (h : m.get? k = none) (a : α) :
    (m.insert k a).entries = m.entries ++ [(k, a)] := by
  rw [insert, dif_neg (get?_eq_none_iff.1 h)]

theorem get?_insert_self (m : OrderedMap part α) {k l : κ} (same : part k = part l) (a : α) :
    (m.insert k a).get? l = some a := by
  rw [get?_eq_some_iff]
  cases known : m.get? k with
  | none =>
    refine ⟨k, same, ?_⟩
    rw [entries_insert_of_new known]
    exact List.mem_append_right _ (List.mem_singleton_self _)
  | some old =>
    obtain ⟨l', part_l', mem⟩ := get?_eq_some_iff.1 known
    refine ⟨l', part_l'.trans same, ?_⟩
    rw [entries_insert_of_known (Option.isSome_of_eq_some known)]
    exact List.mem_map.2 ⟨(l', old), mem, if_pos part_l'⟩

theorem get?_insert_of_ne (m : OrderedMap part α) {k l : κ} (other : part k ≠ part l) (a : α) :
    (m.insert k a).get? l = m.get? l := by
  ext b
  rw [get?_eq_some_iff, get?_eq_some_iff]
  refine exists_congr fun l' => and_congr_right fun part_l' => ?_
  have apart : part l' ≠ part k := fun found => other (found.symm.trans part_l')
  cases known : m.get? k with
  | none =>
    rw [entries_insert_of_new known, List.mem_append, List.mem_singleton, or_iff_left]
    exact fun here => apart (congrArg part (Prod.mk.inj here).1)
  | some old =>
    rw [entries_insert_of_known (Option.isSome_of_eq_some known), List.mem_map]
    constructor
    · rintro ⟨e, mem, changed⟩
      split at changed
      · rename_i found
        exact absurd ((congrArg part (Prod.mk.inj changed).1).symm.trans found) apart
      · exact changed ▸ mem
    · exact fun mem => ⟨(l', b), mem, if_neg apart⟩

theorem get?_insert (m : OrderedMap part α) (k l : κ) (a : α) :
    (m.insert k a).get? l = if part k = part l then some a else m.get? l := by
  split
  · rename_i same
    exact m.get?_insert_self same a
  · rename_i other
    exact m.get?_insert_of_ne other a

theorem isSome_get?_insert (m : OrderedMap part α) (k l : κ) (a : α) :
    ((m.insert k a).get? l).isSome ↔ part k = part l ∨ (m.get? l).isSome := by
  rw [get?_insert]
  split
  · rename_i same
    exact iff_of_true rfl (.inl same)
  · rename_i other
    exact (or_iff_right other).symm

theorem get?_remove (m : OrderedMap part α) (k l : κ) :
    (m.remove k).2.get? l = if part k = part l then none else m.get? l := by
  ext b
  simp only [remove, get?_eq_some_iff, List.mem_filter, decide_eq_true_eq]
  by_cases same : part k = part l
  · rw [if_pos same]
    constructor
    · rintro ⟨l', part_l', -, other⟩
      exact absurd (part_l'.trans same.symm) other
    · intro none
      cases none
  · rw [if_neg same, get?_eq_some_iff]
    constructor
    · rintro ⟨l', part_l', mem, -⟩
      exact ⟨l', part_l', mem⟩
    · rintro ⟨l', part_l', mem⟩
      exact ⟨l', part_l', mem, fun found => same (found.symm.trans part_l')⟩

theorem isSome_get?_remove (m : OrderedMap part α) (k l : κ) :
    ((m.remove k).2.get? l).isSome ↔ part k ≠ part l ∧ (m.get? l).isSome := by
  rw [get?_remove]
  split
  · rename_i same
    exact iff_of_false nofun fun found => found.1 same
  · rename_i other
    exact (and_iff_right other).symm

/-- A new value for a known key leaves the keys and their order. -/
theorem keys_insert_of_known {m : OrderedMap part α} {k : κ} (h : (m.get? k).isSome) (a : α) :
    (m.insert k a).entries.map Prod.fst = m.entries.map Prod.fst := by
  rw [entries_insert_of_known h, List.map_map]
  refine List.map_congr_left fun e _ => ?_
  rw [Function.comp_apply]
  split <;> rfl

theorem keys_insert_of_new {m : OrderedMap part α} {k : κ} (h : m.get? k = none) (a : α) :
    (m.insert k a).entries.map Prod.fst = m.entries.map Prod.fst ++ [k] := by
  rw [entries_insert_of_new h, List.map_append]
  rfl

theorem keys_remove (m : OrderedMap part α) (k : κ) :
    (m.remove k).2.entries.map Prod.fst =
      (m.entries.map Prod.fst).filter fun l => decide (part l ≠ part k) := by
  rw [remove, List.filter_map]
  rfl

end OrderedMap

end RobotAnalysis
