import RobotAnalysis.Proofs.ImportClosure
import RobotAnalysis.Proofs.TableConsistency

/-!
# The identity of documents

Through any operations the tables of paths and numbers stay inverse to each other, every document
stands under its own number, and a number that has been taken from its path never means anything
again. A workspace holds the same as the tables and answers alike.
-/
namespace RobotAnalysis

theorem Path.same_iff {path other : Path} :
    path.same other = true ↔ path.components = other.components := beq_iff_eq

namespace DocumentTables

/-- The documents in the order of their table. -/
def files (t : DocumentTables) : List Document := t.documents.entries.map Prod.snd

/-- What the tables say of the operations that led to them. -/
structure Tracks (t : DocumentTables) (ops : List FileOperation) : Prop where
  /-- A path has a number if and only if that number has this path, up to the way it is written. -/
  inverse : ∀ path file, t.ids.get? path = some file ↔
    ∃ known, t.paths.get? file = some known ∧ known.components = path.components
  own_id : ∀ file d, t.documents.get? file = some d → d.id = file
  has_path : ∀ file, (t.documents.get? file).isSome → (t.paths.get? file).isSome
  lookup : ∀ path file, t.lookup? path = some file ↔ (t.documents.get? file).isSome ∧
    ∃ known, t.paths.get? file = some known ∧ known.components = path.components
  /-- The documents stand in the order in which their numbers first got one. -/
  order : t.files.map Document.id = (Sequence.distinctBy id (stored .empty ops)).filter
    fun file => (t.documents.get? file).isSome
  removes : ∀ path, (t.remove path).1 = true ↔ ∃ file d known, t.documents.get? file = some d ∧
    t.paths.get? file = some known ∧ known.components = path.components
  /-- A number taken from its path has no path and no document, belongs to no path, and is not
  given again. -/
  retired : ∀ file, Retires .empty ops file → t.paths.get? file = none ∧
    t.documents.get? file = none ∧ (∀ path, t.ids.get? path ≠ some file) ∧
      ∀ op, (t.perform op).1 ≠ .file file

variable {t : DocumentTables} {ws : Workspace} {file : FileId} {path : Path} {d : Document}

namespace Represents

theorem get?_ids (h : t.Represents ws) (path : Path) : t.ids.get? path = ws.idOf? path := by
  have same : (fun e : Path × FileId => decide (e.1.components = path.components)) =
      fun e => e.1.same path := by
    funext e
    rw [Bool.eq_iff_iff, Path.same_iff, decide_eq_true_eq]
  rw [OrderedMap.get?, h.ids]
  exact congrArg (fun p => (ws.paths.find? p).map Prod.snd) same

theorem get?_documents (h : t.Represents ws) (file : FileId) :
    t.documents.get? file = ws.document? file := by
  have same : (fun d : Document => decide (d.id.index = file.index)) = fun d => d.id == file := by
    funext d
    rw [Bool.eq_iff_iff]
    simp [FileId.index_inj]
  rw [OrderedMap.get?, h.documents, List.find?_map, Option.map_map]
  refine (congrArg (fun p => (ws.documents.find? p).map id) same).trans ?_
  rw [Option.map_id, id_eq]
  rfl

theorem empty (libraries : LibraryIndex) : Represents .empty (.empty libraries) :=
  ⟨rfl, rfl, rfl, rfl⟩

variable {stored : List FileId} {retired : FileId → Prop}

/-- Registering answers the same number, and both hold the same afterwards. -/
theorem register (h : t.Represents ws) (consistent : t.Consistent stored retired) (path : Path) :
    (t.register path).1 = (ws.register path).1 ∧
      (t.nextId.toNat + (t.ids.get? path).isNone.toNat < 2 ^ 32 →
        (t.register path).2.Represents (ws.register path).2) := by
  cases found : t.ids.get? path with
  | some file =>
    rw [register_of_known found, Workspace.register, ← h.get?_ids, found]
    exact ⟨rfl, fun _ => h⟩
  | none =>
    rw [register_of_new found, Workspace.register, ← h.get?_ids, found, h.nextId]
    have unused := consistent.fresh
    rw [h.nextId] at unused
    refine ⟨rfl, fun room => ?_⟩
    constructor
    case ids => rw [OrderedMap.entries_insert_of_new found, h.ids]
    case paths =>
      rw [OrderedMap.entries_insert_of_new unused, h.paths, List.map_append]
      rfl
    case documents => exact h.documents
    case nextId =>
      have next : t.nextId.toNat + 1 = ws.nextId + 1 := by rw [h.nextId]
      rw [UInt32.toNat_add, ← next]
      exact Nat.mod_eq_of_lt (next ▸ room)

theorem store (h : t.Represents ws) (own : d.id = file) :
    (t.store file d).Represents (ws.store d) := by
  subst own
  have found := h.get?_documents d.id
  rw [Workspace.store]
  cases known : ws.document? d.id with
  | none =>
    rw [known] at found
    refine ⟨h.ids, h.paths, ?_, h.nextId⟩
    simp [DocumentTables.store, OrderedMap.entries_insert_of_new found, h.documents]
  | some old =>
    rw [known] at found
    refine ⟨h.ids, h.paths, ?_, h.nextId⟩
    rw [DocumentTables.store, OrderedMap.entries_insert_of_known (Option.isSome_of_eq_some found),
      h.documents, Option.isSome_some, if_pos rfl, List.map_map, List.map_map]
    refine List.map_congr_left fun e _ => ?_
    simp only [Function.comp_apply, FileId.index_inj]
    split
    · rename_i same
      rw [same]
    · rfl

/-- Removing a path takes away the same entries on both sides: the path belongs to one number. -/
theorem retire (h : t.Represents ws) (consistent : t.Consistent stored retired)
    (known : t.ids.get? path = some file) : (t.retire path file).Represents
      { ws with
        paths := ws.paths.filter fun e => !e.1.same path
        documents := ws.documents.filter fun d => d.id != file } := by
  constructor
  case ids =>
    simp only [DocumentTables.retire, OrderedMap.remove, h.ids]
    refine List.filter_congr fun e _ => ?_
    rw [Bool.eq_iff_iff, decide_eq_true_eq, Bool.not_eq_true', Bool.eq_false_iff, ne_eq, ne_eq,
      Path.same_iff]
  case paths =>
    simp only [DocumentTables.retire, OrderedMap.remove, h.paths, List.filter_map]
    refine congrArg _ (List.filter_congr fun e mem => ?_)
    have there : t.ids.get? e.1 = some e.2 :=
      OrderedMap.get?_eq_some_iff.2 ⟨e.1, rfl, h.ids ▸ mem⟩
    have same := consistent.file_eq_iff known there
    rw [Bool.eq_iff_iff, Function.comp_apply, Prod.fst_swap, decide_eq_true_eq,
      Bool.not_eq_true',
      Bool.eq_false_iff, ne_eq, ne_eq, FileId.index_inj, Path.same_iff]
    exact not_congr (eq_comm.trans (same.trans eq_comm))
  case documents =>
    simp only [DocumentTables.retire, OrderedMap.remove, h.documents, List.filter_map]
    refine congrArg _ (List.filter_congr fun d _ => ?_)
    rw [Bool.eq_iff_iff]
    simp [FileId.index_inj]
  case nextId => exact h.nextId

theorem setText_eq (ws : Workspace) (path : Path) (text : Text) :
    ws.setText path text = ((ws.register path).1, (ws.register path).2.store
      (replacement (ws.register path).1 text
        ((ws.register path).2.document? (ws.register path).1))) := by
  rw [Workspace.setText]
  obtain ⟨file, registered⟩ := ws.register path
  cases found : registered.document? file <;> simp only [found, replacement]

/-- The tables and the workspace answer every operation alike, and hold the same after it as long as
the counter has room. -/
theorem perform (h : t.Represents ws) (consistent : t.Consistent stored retired)
    (op : FileOperation) : (t.perform op).1 = (ws.perform op).1 ∧
      (t.nextId.toNat + (t.allocates op).toNat < 2 ^ 32 →
        (t.perform op).2.Represents (ws.perform op).2) := by
  cases op with
  | register path =>
    obtain ⟨answer, held⟩ := h.register consistent path
    exact ⟨congrArg FileAnswer.file answer, held⟩
  | setText path text =>
    obtain ⟨answer, held⟩ := h.register consistent path
    rw [DocumentTables.perform, Workspace.perform, DocumentTables.setText_eq, setText_eq, ← answer]
    refine ⟨rfl, fun room => ?_⟩
    obtain ⟨kept, -, -⟩ := consistent.register path room
    dsimp only [Prod.map, id_eq]
    rw [← (held room).get?_documents]
    exact (held room).store (id_replacement fun d => kept.id_of_get?)
  | insert path source =>
    obtain ⟨answer, held⟩ := h.register consistent path
    rw [DocumentTables.perform, Workspace.perform, DocumentTables.insert, Workspace.insert]
    dsimp only [Prod.map, id_eq]
    rw [← answer]
    exact ⟨rfl, fun room => (held room).store rfl⟩
  | remove path =>
    rw [DocumentTables.perform, Workspace.perform, Workspace.remove, ← h.get?_ids]
    cases found : t.ids.get? path with
    | none =>
      rw [remove_of_unknown found]
      exact ⟨rfl, fun _ => h⟩
    | some file =>
      rw [remove_of_known found]
      refine ⟨?_, fun _ => h.retire consistent found⟩
      simp only [Prod.map, h.get?_documents]

end Represents

/-- Consistent tables say of the operations that led to them what they should. -/
theorem Consistent.tracks {ops : List FileOperation}
    (h : t.Consistent (DocumentTables.stored .empty ops) (Retires .empty ops)) : t.Tracks ops where
  inverse := h.inverse
  own_id _ _ := h.id_of_get?
  has_path := h.has_path
  lookup path file := by
    rw [lookup?, Option.filter_eq_some_iff, h.inverse, and_comm]
  order := by
    rw [← h.order, files, List.map_map]
    exact List.map_congr_left fun e mem => h.own_id e mem
  removes path := by
    cases found : t.ids.get? path with
    | none =>
      rw [remove_of_unknown found]
      refine ⟨fun found => (by cases found), ?_⟩
      rintro ⟨file, d, known, -, there, same⟩
      rw [(h.inverse path file).2 ⟨known, there, same⟩] at found
      cases found
    | some file =>
      rw [remove_of_known found, Option.isSome_iff_exists]
      constructor
      · rintro ⟨d, document⟩
        obtain ⟨known, there, same⟩ := (h.inverse path file).1 found
        exact ⟨file, d, known, document, there, same⟩
      · rintro ⟨other, d, known, document, there, same⟩
        have here := (h.inverse path other).2 ⟨known, there, same⟩
        cases Option.some.inj (found.symm.trans here)
        exact ⟨d, document⟩
  retired file gone := by
    have noPath := h.retired_gone file gone
    refine ⟨noPath, ?_, ?_, ?_⟩
    · rw [← Option.not_isSome_iff_eq_none]
      intro found
      have := h.has_path file found
      rw [noPath] at this
      cases this
    · intro path found
      have := h.isSome_paths found
      rw [noPath] at this
      cases this
    · intro op answer
      cases op with
      | register path => exact h.register_ne gone path (FileAnswer.file.inj answer)
      | setText path text =>
        rw [DocumentTables.perform, DocumentTables.setText_eq] at answer
        exact h.register_ne gone path (FileAnswer.file.inj answer)
      | insert path source => exact h.register_ne gone path (FileAnswer.file.inj answer)
      | remove path => cases answer

/-- After any operations that give fewer numbers than the counter has, the tables say of them what
they should, and a workspace holds the same and answers the next operation alike. -/
theorem tracks_after (libraries : LibraryIndex) (ops : List FileOperation)
    (few : allocations .empty ops < 2 ^ 32) :
    (after .empty ops).Tracks ops ∧
      (after .empty ops).Represents ((Workspace.empty libraries).after ops) ∧
      ∀ op, ((after .empty ops).perform op).1 =
        (((Workspace.empty libraries).after ops).perform op).1 := by
  have represents : (after .empty ops).Represents ((Workspace.empty libraries).after ops) := by
    induction ops using List.reverseRecOn with
    | nil => exact Represents.empty libraries
    | append_singleton ops op ih =>
      rw [allocations_append_singleton] at few
      obtain ⟨consistent, counted⟩ := consistent_after (by omega : allocations .empty ops < 2 ^ 32)
      rw [after_append_singleton, Workspace.after, List.foldl_append]
      exact ((ih (by omega)).perform consistent op).2 (by omega)
  obtain ⟨consistent, -⟩ := consistent_after few
  exact ⟨consistent.tracks, represents, fun op => (represents.perform consistent op).1⟩

/-- A path that is removed and added again gets a number of its own. -/
theorem tracks_after_readded :
    let ops : List FileOperation :=
      [.setText ⟨"/a".toList⟩ [], .setText ⟨"/b".toList⟩ [], .remove ⟨"/./a/".toList⟩,
        .setText ⟨"/a".toList⟩ []]
    allocations .empty ops < 2 ^ 32 ∧ Retires .empty ops ⟨0⟩ ∧
      (after .empty ops).documents.get? ⟨0⟩ = none := by
  intro ops
  have few : allocations .empty ops < 2 ^ 32 := by decide +kernel
  have retired : Retires .empty ops ⟨0⟩ := ⟨ops.take 2, _, _, rfl, by decide +kernel⟩
  exact ⟨few, retired, ((tracks_after .empty ops few).1.retired _ retired).2.1⟩

end DocumentTables

end RobotAnalysis
