import Mathlib.Algebra.Group.Nat.Defs
import Mathlib.Data.List.Induction
import RobotAnalysis.DocumentTables

/-!
# Consistent tables

What holds of the tables of a workspace through all operations. The counter is above every number
given so far, those that have been taken from their paths included, so a new number is never an old
one; it has 32 bits, hence the bound on the numbers given. A number that got a document keeps one
until it is retired, so the order in which documents stand is that of their first appearance.
-/
namespace RobotAnalysis

theorem FileId.index_inj {file other : FileId} : file.index = other.index ↔ file = other := by
  cases file
  cases other
  simp

namespace DocumentTables

variable {t : DocumentTables} {file : FileId} {path : Path} {d : Document}

theorem register_of_known (h : t.ids.get? path = some file) : t.register path = (file, t) := by
  rw [register, h]

theorem register_of_new (h : t.ids.get? path = none) : t.register path = (⟨t.nextId.toNat⟩,
    { t with
      ids := t.ids.insert path ⟨t.nextId.toNat⟩
      paths := t.paths.insert ⟨t.nextId.toNat⟩ path
      nextId := t.nextId + 1 }) := by
  rw [register, h]

/-- The tables without a number, where it belongs to a path. -/
def retire (t : DocumentTables) (path : Path) (file : FileId) : DocumentTables :=
  { t with
    ids := (t.ids.remove path).2
    paths := (t.paths.remove file).2
    documents := (t.documents.remove file).2 }

theorem remove_of_known (h : t.ids.get? path = some file) :
    t.remove path = ((t.documents.get? file).isSome, t.retire path file) := by
  simp only [remove, OrderedMap.remove, h]
  rfl

theorem remove_of_unknown (h : t.ids.get? path = none) : t.remove path = (false, t) := by
  simp only [remove, OrderedMap.remove, h]

theorem isSome_get?_store {other : FileId} : ((t.store file d).documents.get? other).isSome ↔
    other = file ∨ (t.documents.get? other).isSome := by
  rw [DocumentTables.store, OrderedMap.isSome_get?_insert, FileId.index_inj, eq_comm]

/-- What holds of the tables throughout: `stored` are the numbers that got documents so far, and
`retired` those that were taken from their paths. -/
structure Consistent (t : DocumentTables) (stored : List FileId) (retired : FileId → Prop) :
    Prop where
  inverse : ∀ path file, t.ids.get? path = some file ↔
    ∃ known, t.paths.get? file = some known ∧ known.components = path.components
  given : ∀ file, (t.paths.get? file).isSome → file.index < t.nextId.toNat
  own_id : ∀ e ∈ t.documents.entries, e.2.id = e.1
  has_path : ∀ file, (t.documents.get? file).isSome → (t.paths.get? file).isSome
  stored_given : ∀ file ∈ stored, file.index < t.nextId.toNat
  /-- A number that got a document keeps one as long as it has a path. -/
  stored_kept : ∀ file ∈ stored, (t.paths.get? file).isSome → (t.documents.get? file).isSome
  order : t.documents.entries.map Prod.fst = (Sequence.distinctBy id stored).filter
    fun file => (t.documents.get? file).isSome
  retired_given : ∀ file, retired file → file.index < t.nextId.toNat
  retired_gone : ∀ file, retired file → t.paths.get? file = none

namespace Consistent

variable {stored : List FileId} {retired : FileId → Prop}

theorem empty : Consistent .empty [] fun _ => False where
  inverse _ _ := ⟨nofun, fun ⟨_, found, _⟩ => nomatch found⟩
  given _ := nofun
  own_id _ := nofun
  has_path _ := nofun
  stored_given _ := nofun
  stored_kept _ := nofun
  order := rfl
  retired_given _ := nofun
  retired_gone _ := nofun

/-- The counter's number is new: it has no path and has never had a document. -/
theorem fresh (h : t.Consistent stored retired) : t.paths.get? ⟨t.nextId.toNat⟩ = none := by
  cases found : t.paths.get? ⟨t.nextId.toNat⟩ with
  | none => rfl
  | some known => exact absurd (h.given _ (Option.isSome_of_eq_some found)) (Nat.lt_irrefl _)

theorem isSome_paths (h : t.Consistent stored retired) (known : t.ids.get? path = some file) :
    (t.paths.get? file).isSome := by
  obtain ⟨_, found, -⟩ := (h.inverse path file).1 known
  exact Option.isSome_of_eq_some found

/-- A path that has a number is the path of that number alone. -/
theorem file_eq_iff (h : t.Consistent stored retired) (known : t.ids.get? path = some file)
    {other : FileId} {otherPath : Path} (found : t.ids.get? otherPath = some other) :
    file = other ↔ path.components = otherPath.components := by
  constructor
  · rintro rfl
    obtain ⟨p, here, same⟩ := (h.inverse _ _).1 known
    obtain ⟨q, there, same'⟩ := (h.inverse _ _).1 found
    cases Option.some.inj (here.symm.trans there)
    exact same.symm.trans same'
  · intro same
    exact Option.some.inj (known.symm.trans ((OrderedMap.get?_congr same).trans found))

theorem inverse_allocate (h : t.Consistent stored retired) (new : t.ids.get? path = none)
    (other : Path) (file : FileId) : (t.register path).2.ids.get? other = some file ↔
      ∃ known, (t.register path).2.paths.get? file = some known ∧
        known.components = other.components := by
  rw [register_of_new new, OrderedMap.get?_insert, OrderedMap.get?_insert]
  by_cases here : file = ⟨t.nextId.toNat⟩
  · subst here
    have unused : t.ids.get? other ≠ some ⟨t.nextId.toNat⟩ := fun found => by
      have := h.isSome_paths found
      rw [h.fresh] at this
      cases this
    by_cases same : path.components = other.components
    · simp [same]
    · simp [same, unused]
  · rw [if_neg fun same => here (FileId.index_inj.1 same).symm, ← h.inverse]
    by_cases same : path.components = other.components
    · rw [if_pos same, OrderedMap.get?_congr same.symm, new]
      simp only [Option.some.injEq, reduceCtorEq, iff_false]
      exact fun same => here same.symm
    · rw [if_neg same]

/-- Giving the counter's number to a path without one keeps the tables consistent. -/
theorem allocate (h : t.Consistent stored retired) (new : t.ids.get? path = none)
    (room : t.nextId.toNat + 1 < 2 ^ 32) : (t.register path).2.Consistent stored retired := by
  have inverse := h.inverse_allocate new
  have next : (t.nextId + 1).toNat = t.nextId.toNat + 1 := by
    rw [UInt32.toNat_add]
    exact Nat.mod_eq_of_lt room
  have later {file : FileId} (given : file.index < t.nextId.toNat) :
      file.index < (t.nextId + 1).toNat := by omega
  have kept {file : FileId} (given : file.index < t.nextId.toNat) :
      (t.paths.insert ⟨t.nextId.toNat⟩ path).get? file = t.paths.get? file :=
    OrderedMap.get?_insert_of_ne _ (Nat.ne_of_gt given) _
  rw [register_of_new new] at inverse ⊢
  constructor
  case inverse => exact inverse
  case given =>
    intro file found
    rcases (OrderedMap.isSome_get?_insert _ _ _ _).1 found with same | found
    · rw [← same, next]
      exact Nat.lt_succ_self _
    · exact later (h.given file found)
  case own_id => exact h.own_id
  case has_path =>
    intro file found
    have known := h.has_path file found
    rwa [kept (h.given file known)]
  case stored_given => exact fun file mem => later (h.stored_given file mem)
  case stored_kept =>
    intro file mem found
    rw [kept (h.stored_given file mem)] at found
    exact h.stored_kept file mem found
  case order => exact h.order
  case retired_given => exact fun file gone => later (h.retired_given file gone)
  case retired_gone =>
    intro file gone
    rw [kept (h.retired_given file gone)]
    exact h.retired_gone file gone

theorem mem_stored (h : t.Consistent stored retired) (found : (t.documents.get? file).isSome) :
    file ∈ stored := by
  obtain ⟨d, found⟩ := Option.isSome_iff_exists.1 found
  obtain ⟨other, same, mem⟩ := OrderedMap.get?_eq_some_iff.1 found
  cases FileId.index_inj.1 same
  have listed : file ∈ t.documents.entries.map Prod.fst := List.mem_map_of_mem mem
  rw [h.order] at listed
  exact Sequence.mem_of_mem_distinctBy (List.mem_filter.1 listed).1

theorem own_id_store (h : t.Consistent stored retired) (own : d.id = file) :
    ∀ e ∈ (t.store file d).documents.entries, e.2.id = e.1 := by
  intro e mem
  rw [DocumentTables.store] at mem
  cases here : t.documents.get? file with
  | none =>
    rw [OrderedMap.entries_insert_of_new here, List.mem_append, List.mem_singleton] at mem
    rcases mem with mem | rfl
    · exact h.own_id e mem
    · exact own
  | some old =>
    rw [OrderedMap.entries_insert_of_known (Option.isSome_of_eq_some here), List.mem_map] at mem
    obtain ⟨e, mem, rfl⟩ := mem
    split
    · rename_i same
      exact own.trans (FileId.index_inj.1 same).symm
    · exact h.own_id e mem

/-- A new document comes last, where its number is listed now; one that is replaced stays in its
place. -/
theorem order_store (h : t.Consistent stored retired) (known : (t.paths.get? file).isSome) :
    (t.store file d).documents.entries.map Prod.fst =
      (Sequence.distinctBy id (stored ++ [file])).filter
        fun other => ((t.store file d).documents.get? other).isSome := by
  have earlier : (Sequence.distinctBy id stored).filter
        (fun other => ((t.store file d).documents.get? other).isSome) =
      t.documents.entries.map Prod.fst := by
    rw [h.order]
    refine List.filter_congr fun other mem => ?_
    rw [Bool.eq_iff_iff, isSome_get?_store]
    refine or_iff_right_of_imp ?_
    rintro rfl
    exact h.stored_kept other (Sequence.mem_of_mem_distinctBy mem) known
  rw [Sequence.distinctBy_append_singleton, List.filter_append, earlier]
  change (t.documents.insert file d).entries.map Prod.fst = _
  cases here : t.documents.get? file with
  | none =>
    have unseen : file ∉ stored := fun mem => by
      have := h.stored_kept file mem known
      rw [here] at this
      cases this
    rw [OrderedMap.keys_insert_of_new here, if_neg (by simpa using unseen),
      List.filter_eq_self.2 (by simpa using isSome_get?_store.2 (.inl rfl))]
  | some old =>
    have seen : file ∈ stored := h.mem_stored (Option.isSome_of_eq_some here)
    rw [OrderedMap.keys_insert_of_known (Option.isSome_of_eq_some here),
      if_pos (by simpa using seen), List.filter_nil, List.append_nil]

/-- Putting a document under its number keeps the tables consistent. A new one stands last, and its
number gets its first document now. -/
theorem store (h : t.Consistent stored retired) (known : (t.paths.get? file).isSome)
    (own : d.id = file) : (t.store file d).Consistent (stored ++ [file]) retired where
  inverse := h.inverse
  given := h.given
  own_id := h.own_id_store own
  has_path other found := by
    rcases isSome_get?_store.1 found with rfl | found
    · exact known
    · exact h.has_path other found
  stored_given other mem := by
    rcases List.mem_append.1 mem with mem | mem
    · exact h.stored_given other mem
    · rw [List.mem_singleton.1 mem]
      exact h.given file known
  stored_kept other mem found := by
    rcases List.mem_append.1 mem with mem | mem
    · exact isSome_get?_store.2 (.inr (h.stored_kept other mem found))
    · exact isSome_get?_store.2 (.inl (List.mem_singleton.1 mem))
  order := h.order_store known
  retired_given := h.retired_given
  retired_gone := h.retired_gone

/-- Taking its number from a path leaves paths and numbers inverse to each other. -/
theorem inverse_retire (h : t.Consistent stored retired) (known : t.ids.get? path = some file)
    (otherPath : Path) (other : FileId) : (t.retire path file).ids.get? otherPath = some other ↔
      ∃ q, (t.retire path file).paths.get? other = some q ∧ q.components = otherPath.components := by
  simp only [DocumentTables.retire, OrderedMap.get?_remove]
  by_cases here : path.components = otherPath.components
  · rw [if_pos here]
    refine ⟨fun found => (by cases found), ?_⟩
    rintro ⟨q, found, same⟩
    split at found
    · cases found
    · rename_i apart
      have there := (h.inverse otherPath other).2 ⟨q, found, same⟩
      exact absurd (FileId.index_inj.2 ((h.file_eq_iff known there).2 here)) apart
  · rw [if_neg here, h.inverse]
    refine exists_congr fun q => and_congr_left fun same => ?_
    split
    · rename_i index
      cases FileId.index_inj.1 index
      refine ⟨fun found => ?_, fun found => by cases found⟩
      have there := (h.inverse otherPath file).2 ⟨q, found, same⟩
      exact absurd ((h.file_eq_iff known there).1 rfl) here
    · rfl

theorem order_retire (h : t.Consistent stored retired) (path : Path) (file : FileId) :
    (t.retire path file).documents.entries.map Prod.fst =
      (Sequence.distinctBy id stored).filter
        fun other => ((t.retire path file).documents.get? other).isSome := by
  rw [DocumentTables.retire, OrderedMap.keys_remove, h.order, List.filter_filter]
  refine List.filter_congr fun other _ => ?_
  rw [Bool.eq_iff_iff, OrderedMap.isSome_get?_remove, Bool.and_eq_true, decide_eq_true_eq,
    ne_comm]

/-- Taking its number from a path keeps the tables consistent, and the number is retired. -/
theorem retire (h : t.Consistent stored retired) (known : t.ids.get? path = some file) :
    (t.retire path file).Consistent stored fun other => retired other ∨ other = file where
  inverse := h.inverse_retire known
  given other found := h.given other ((OrderedMap.isSome_get?_remove _ _ _).1 found).2
  own_id e mem := h.own_id e (List.mem_filter.1 mem).1
  has_path other found := by
    obtain ⟨apart, found⟩ := (OrderedMap.isSome_get?_remove _ _ _).1 found
    exact (OrderedMap.isSome_get?_remove _ _ _).2 ⟨apart, h.has_path other found⟩
  stored_given := h.stored_given
  stored_kept other mem found := by
    obtain ⟨apart, found⟩ := (OrderedMap.isSome_get?_remove _ _ _).1 found
    exact (OrderedMap.isSome_get?_remove _ _ _).2 ⟨apart, h.stored_kept other mem found⟩
  order := h.order_retire path file
  retired_given := by
    rintro other (gone | rfl)
    · exact h.retired_given other gone
    · exact h.given other (h.isSome_paths known)
  retired_gone := by
    rintro other (gone | rfl)
    · simp only [DocumentTables.retire, OrderedMap.get?_remove, h.retired_gone other gone, ite_self]
    · simp only [DocumentTables.retire, OrderedMap.get?_remove, if_true]

theorem mono (h : t.Consistent stored retired) {fewer : FileId → Prop}
    (sub : ∀ file, fewer file → retired file) : t.Consistent stored fewer :=
  { h with
    retired_given := fun file gone => h.retired_given file (sub file gone)
    retired_gone := fun file gone => h.retired_gone file (sub file gone) }

/-- After registering, the path has the number that is answered. -/
theorem register (h : t.Consistent stored retired) (path : Path)
    (room : t.nextId.toNat + (t.ids.get? path).isNone.toNat < 2 ^ 32) :
    (t.register path).2.Consistent stored retired ∧
      ((t.register path).2.paths.get? (t.register path).1).isSome ∧
      (t.register path).2.nextId.toNat = t.nextId.toNat + (t.ids.get? path).isNone.toNat := by
  cases found : t.ids.get? path with
  | some file =>
    rw [register_of_known found]
    exact ⟨h, h.isSome_paths found, rfl⟩
  | none =>
    rw [found] at room
    refine ⟨h.allocate found room, ?_, ?_⟩
    · rw [register_of_new found, OrderedMap.get?_insert_self _ rfl]
      rfl
    · rw [register_of_new found, UInt32.toNat_add]
      exact Nat.mod_eq_of_lt room

/-- A retired number is not what registering answers. -/
theorem register_ne (h : t.Consistent stored retired) (gone : retired file) (path : Path) :
    (t.register path).1 ≠ file := by
  rintro rfl
  cases found : t.ids.get? path with
  | some known =>
    rw [register_of_known found] at gone
    have := h.isSome_paths found
    rw [h.retired_gone _ gone] at this
    cases this
  | none =>
    have given := h.retired_given _ gone
    rw [register_of_new found] at given
    exact Nat.lt_irrefl _ given

end Consistent

/-- The document that setting a text puts under a number. -/
def replacement (file : FileId) (text : Text) : Option Document → Document
  | some d => d.setText text
  | none => .ofSource file (.ofText text)

theorem setText_eq (t : DocumentTables) (path : Path) (text : Text) :
    t.setText path text = ((t.register path).1, (t.register path).2.store (t.register path).1
      (replacement (t.register path).1 text
        ((t.register path).2.documents.get? (t.register path).1))) := by
  rw [setText]
  obtain ⟨file, registered⟩ := t.register path
  cases found : registered.documents.get? file <;> simp only [found, replacement]

theorem id_replacement {text : Text} {old? : Option Document}
    (own : ∀ d, old? = some d → d.id = file) : (replacement file text old?).id = file := by
  cases old? with
  | none => rfl
  | some d => exact own d rfl

namespace Consistent

variable {stored : List FileId} {retired : FileId → Prop}

theorem id_of_get? (h : t.Consistent stored retired) (found : t.documents.get? file = some d) :
    d.id = file := by
  obtain ⟨other, same, mem⟩ := OrderedMap.get?_eq_some_iff.1 found
  exact (h.own_id _ mem).trans (FileId.index_inj.1 same)

/-- Every operation keeps the tables consistent with what has been stored and retired. -/
theorem perform (h : t.Consistent stored retired) (op : FileOperation)
    (room : t.nextId.toNat + (t.allocates op).toNat < 2 ^ 32) :
    (t.perform op).2.Consistent (stored ++ (op.storedUnder? (t.perform op).1).toList)
        (fun file => retired file ∨ ∃ path, op = .remove path ∧ t.ids.get? path = some file) ∧
      (t.perform op).2.nextId.toNat = t.nextId.toNat + (t.allocates op).toNat := by
  have none {op : FileOperation} (noRemove : op.registers?.isSome) (file : FileId) :
      (retired file ∨ ∃ path, op = .remove path ∧ t.ids.get? path = some file) → retired file := by
    rintro (gone | ⟨path, rfl, -⟩)
    · exact gone
    · cases noRemove
  cases op with
  | register path =>
    obtain ⟨kept, -, next⟩ := h.register path room
    refine ⟨?_, next⟩
    rw [FileOperation.storedUnder?, if_neg nofun, Option.toList_none, List.append_nil]
    exact kept.mono (none rfl)
  | setText path text =>
    obtain ⟨kept, known, next⟩ := h.register path room
    rw [DocumentTables.perform, setText_eq]
    exact ⟨(kept.store known (id_replacement fun d => kept.id_of_get?)).mono (none rfl), next⟩
  | insert path source =>
    obtain ⟨kept, known, next⟩ := h.register path room
    exact ⟨(kept.store known rfl).mono (none rfl), next⟩
  | remove path =>
    have stays : (t.perform (.remove path)).2.nextId = t.nextId := by
      rw [DocumentTables.perform]
      cases found : t.ids.get? path with
      | none => rw [remove_of_unknown found]; rfl
      | some file => rw [remove_of_known found]; rfl
    refine ⟨?_, by rw [stays]; rfl⟩
    rw [FileOperation.storedUnder?, if_neg nofun, Option.toList_none, List.append_nil,
      DocumentTables.perform]
    cases found : t.ids.get? path with
    | none =>
      rw [remove_of_unknown found]
      refine h.mono ?_
      rintro file (gone | ⟨other, same, known⟩)
      · exact gone
      · cases same
        rw [found] at known
        cases known
    | some file =>
      rw [remove_of_known found]
      refine (h.retire found).mono ?_
      rintro other (gone | ⟨otherPath, same, known⟩)
      · exact .inl gone
      · cases same
        exact .inr (Option.some.inj (known.symm.trans found))

end Consistent

section Runs

variable {ops : List FileOperation} {op : FileOperation}

theorem after_append_singleton :
    t.after (ops ++ [op]) = ((t.after ops).perform op).2 := by
  rw [after, List.foldl_append]
  rfl

theorem allocations_append_singleton :
    t.allocations (ops ++ [op]) = t.allocations ops + ((t.after ops).allocates op).toNat := by
  induction ops generalizing t with
  | nil => simp [allocations, after]
  | cons first ops ih =>
    rw [List.cons_append, allocations, allocations, ih, Nat.add_assoc]
    rfl

theorem stored_append_singleton : t.stored (ops ++ [op]) =
    t.stored ops ++ (op.storedUnder? ((t.after ops).perform op).1).toList := by
  induction ops generalizing t with
  | nil => simp [stored, after]
  | cons first ops ih =>
    rw [List.cons_append, stored, stored, ih, List.append_assoc]
    rfl

/-- The last operation retires a number, or one before it did. -/
theorem Retires.of_append_singleton (h : t.Retires (ops ++ [op]) file) :
    t.Retires ops file ∨ ∃ path, op = .remove path ∧ (t.after ops).ids.get? path = some file := by
  obtain ⟨before, path, rest, whole, known⟩ := h
  rcases List.eq_nil_or_concat rest with rfl | ⟨rest, last, rfl⟩
  · obtain ⟨rfl, same⟩ := List.append_inj' whole rfl
    exact .inr ⟨path, List.singleton_inj.1 same, known⟩
  · refine .inl ⟨before, path, rest, ?_, known⟩
    rw [List.concat_eq_append, ← List.cons_append, ← List.append_assoc] at whole
    exact (List.append_inj' whole rfl).1

/-- The tables are consistent after any run that gives fewer numbers than the counter has. -/
theorem consistent_after (few : allocations .empty ops < 2 ^ 32) :
    (after .empty ops).Consistent (stored .empty ops) (Retires .empty ops) ∧
      (after .empty ops).nextId.toNat = allocations .empty ops := by
  induction ops using List.reverseRecOn with
  | nil =>
    refine ⟨Consistent.empty.mono ?_, rfl⟩
    rintro file ⟨before, path, rest, whole, -⟩
    simp at whole
  | append_singleton ops op ih =>
    rw [allocations_append_singleton] at few
    obtain ⟨kept, counted⟩ := ih (by omega)
    obtain ⟨step, next⟩ := kept.perform op (by omega)
    rw [after_append_singleton, allocations_append_singleton, stored_append_singleton]
    exact ⟨step.mono fun file => Retires.of_append_singleton, by omega⟩

end Runs

end DocumentTables

end RobotAnalysis
