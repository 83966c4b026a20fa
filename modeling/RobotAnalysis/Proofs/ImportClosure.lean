import Mathlib.Logic.Relation
import RobotAnalysis.Proofs.DepthFirstOrder
import RobotAnalysis.Workspace

/-!
# What a document imports

An import of a document declares a target, and targets that are documents lead further. The imports
of a document, with those of imported documents or without, are the library imported everywhere and
the targets that can be reached, each once, in the order in which a depth-first walk meets them.
Imports may form any graph: what a walk skips because it has been met is followed where it was met.
-/
namespace RobotAnalysis.Workspace

open DepthFirst (Visits)

variable (ws : Workspace)

/-- Whether an import of a document leads to a target. -/
def Declares (d : Document) (t : ImportTarget) : Prop :=
  ∃ i ∈ d.imports, ws.resolveImport? d.id i = some t

/-- Whether an import of a document leads to another document. -/
def LeadsTo (d e : Document) : Prop :=
  ws.Declares d (.document e.id) ∧ ws.document? e.id = some e

/-- Whether one or more imports, each of the document that the one before leads to, lead from a
document to a target. -/
def Reaches (d : Document) (t : ImportTarget) : Prop :=
  ∃ e, Relation.ReflTransGen ws.LeadsTo d e ∧ ws.Declares e t

/-- What a list of targets says about the imports of a document, where `imported` tells which
targets belong to them and `next` what is walked through below a target. -/
structure ListsImports (d : Document) (imported : ImportTarget → Prop)
    (next : ImportTarget → List ImportTarget) (listed : List ImportTarget) : Prop where
  nodup : (listed.map ImportTarget.identity).Nodup
  builtIn_first : ws.builtInLibrary?.toList <+: listed
  sound : ∀ t ∈ listed, ws.builtInLibrary? = some t ∨ imported t
  complete : ∀ t, imported t → t.identity ∈ listed.map ImportTarget.identity
  order : ∀ out, Visits ImportTarget.identity next ws.builtInLibrary?.toList
    (ws.resolveAll d d.imports) out ↔ out = listed
  documents_exist : ∀ file, .document file ∈ listed → (ws.document? file).isSome

variable {ws} {d e : Document} {file : FileId} {t : ImportTarget}

theorem mem_resolveAll : t ∈ ws.resolveAll d d.imports ↔ ws.Declares d t := by
  simp only [resolveAll, List.mem_filterMap, Declares]

theorem id_of_document? (h : ws.document? file = some d) : d.id = file := by
  simpa using List.find?_some h

theorem mem_documents_of_document? (h : ws.document? file = some d) : d ∈ ws.documents :=
  List.mem_of_find?_eq_some h

theorem isSome_document?_of_mem (h : d ∈ ws.documents) : (ws.document? d.id).isSome := by
  rw [document?, List.find?_isSome]
  exact ⟨d, h, by simp⟩

theorem isSome_document?_of_resolveResource? {source : FileId} {target : Text}
    (h : ws.resolveResource? source target = some file) : (ws.document? file).isSome := by
  rw [resolveResource?, Option.or_eq_some_iff] at h
  rcases h with h | ⟨-, h⟩
  · rw [findByComponents?, Option.filter_eq_some_iff] at h
    exact h.2
  · simp only [findByEnd?, Option.ite_none_left_eq_some, Option.map_eq_some_iff] at h
    obtain ⟨-, d, found, rfl⟩ := h
    exact isSome_document?_of_mem (List.mem_of_find?_eq_some found)

/-- An import that leads to a document leads to one that exists. -/
theorem Declares.isSome_document? (h : ws.Declares d (.document file)) :
    (ws.document? file).isSome := by
  obtain ⟨i, -, resolved⟩ := h
  cases kind : i.kind with
  | resource =>
    simp only [resolveImport?, kind, Option.map_eq_some_iff, ImportTarget.document.injEq]
      at resolved
    obtain ⟨_, found, rfl⟩ := resolved
    exact isSome_document?_of_resolveResource? found
  | library => simp [resolveImport?, kind] at resolved
  | variableFile => simp [resolveImport?, kind] at resolved

theorem Declares.leadsTo (h : ws.Declares d (.document file)) (found : ws.document? file = some e) :
    ws.LeadsTo d e := by
  obtain rfl := id_of_document? found
  exact ⟨h, found⟩

theorem Reaches.isSome_document? (h : ws.Reaches d (.document file)) :
    (ws.document? file).isSome := by
  obtain ⟨_, -, declared⟩ := h
  exact declared.isSome_document?

/-- What is declared by a document that can be reached can be reached. -/
theorem Reaches.trans_declares (h : ws.Reaches d (.document file))
    (found : ws.document? file = some e) (declared : ws.Declares e t) : ws.Reaches d t := by
  obtain ⟨m, path, last⟩ := h
  exact ⟨e, path.tail (last.leadsTo found), declared⟩

/-- A document reaches itself when it lies on a cycle of imports. -/
theorem reaches_self_iff (h : ws.document? file = some d) :
    ws.Reaches d (.document file) ↔ Relation.TransGen ws.LeadsTo d d := by
  constructor
  · rintro ⟨e, path, last⟩
    exact Relation.TransGen.tail' path (last.leadsTo h)
  · intro cycle
    obtain ⟨e, path, last⟩ := Relation.TransGen.tail'_iff.1 cycle
    refine ⟨e, path, ?_⟩
    rw [← id_of_document? h]
    exact last.1

theorem builtInLibrary?_ne_document : ws.builtInLibrary? ≠ some (.document file) := by
  rw [builtInLibrary?, BuiltIn.library?]
  simp

theorem nodup_builtInLibrary? : (ws.builtInLibrary?.toList.map ImportTarget.identity).Nodup := by
  cases ws.builtInLibrary? <;> simp

theorem eq_document_of_identity (h : t.identity = .document file) : t = .document file := by
  cases t <;> simp_all [ImportTarget.identity]

theorem importsOfTarget_of_document? (h : ws.document? file = some e) :
    ws.importsOfTarget (.document file) = ws.directImports e := by
  simp [importsOfTarget, h]

/-- Nothing lies below a target that is no document of the workspace. -/
theorem importsOfTarget_eq_nil (h : t.identity ∉ ws.documentIdentities) :
    ws.importsOfTarget t = [] := by
  cases t with
  | library _ _ => rfl
  | module _ => rfl
  | document file =>
    cases found : ws.document? file with
    | none => simp [importsOfTarget, found]
    | some e =>
      refine absurd (List.mem_map.2 ⟨e, mem_documents_of_document? found, ?_⟩) h
      rw [id_of_document? found, ImportTarget.identity]

theorem directImports_visits : Visits ImportTarget.identity (fun _ => [])
    ws.builtInLibrary?.toList (ws.resolveAll d d.imports) (ws.directImports d) := by
  have whole : Visits ImportTarget.identity (fun _ => []) []
      (ws.builtInLibrary?.toList ++ ws.resolveAll d d.imports) (ws.directImports d) :=
    DepthFirst.distinctBy_visits
  obtain ⟨mid, first, rest⟩ := whole.exists_of_append
  rw [first.eq_toList] at rest
  exact rest

theorem allImports_visits : Visits ImportTarget.identity ws.importsOfTarget
    ws.builtInLibrary?.toList (ws.resolveAll d d.imports) (ws.allImports d) :=
  DepthFirst.collect_visits fun _ => importsOfTarget_eq_nil

/-- The part of a listing that the walk through it gives, whatever the walk follows. -/
theorem ListsImports.of_visits {imported : ImportTarget → Prop}
    {next : ImportTarget → List ImportTarget} {listed : List ImportTarget}
    (walk : Visits ImportTarget.identity next ws.builtInLibrary?.toList (ws.resolveAll d d.imports)
      listed)
    (sound : ∀ t ∈ listed, ws.builtInLibrary? = some t ∨ imported t)
    (complete : ∀ t, imported t → t.identity ∈ listed.map ImportTarget.identity)
    (exist : ∀ file, imported (.document file) → (ws.document? file).isSome) :
    ws.ListsImports d imported next listed where
  nodup := walk.nodup nodup_builtInLibrary?
  builtIn_first := walk.met_isPrefix
  sound := sound
  complete := complete
  order out := by
    constructor
    · exact fun other => other.unique walk
    · rintro rfl
      exact walk
  documents_exist file mem := by
    rcases sound _ mem with builtIn | reached
    · exact absurd builtIn builtInLibrary?_ne_document
    · exact exist file reached

theorem directImports_lists :
    ws.ListsImports d (ws.Declares d) (fun _ => []) (ws.directImports d) := by
  refine .of_visits directImports_visits ?_ ?_ fun _ => Declares.isSome_document?
  · refine directImports_visits.forall_mem (fun _ _ b hb => by simp at hb) ?_ ?_
    · intro t ht
      exact .inl (by simpa using ht)
    · exact fun t ht => .inr (mem_resolveAll.1 ht)
  · intro t declared
    exact directImports_visits.key_mem_of_pending t (mem_resolveAll.2 declared)

/-- Everything that is listed was imported everywhere or can be reached: the imports of a reached
document can be reached. -/
theorem sound_allImports : ∀ t ∈ ws.allImports d, ws.builtInLibrary? = some t ∨ ws.Reaches d t := by
  refine allImports_visits.forall_mem ?_ ?_ ?_
  · intro a ha b hb
    cases a with
    | library _ _ => simp [importsOfTarget] at hb
    | module _ => simp [importsOfTarget] at hb
    | document file =>
      cases found : ws.document? file with
      | none => simp [importsOfTarget, found] at hb
      | some e =>
        rw [importsOfTarget_of_document? found] at hb
        rcases directImports_lists.sound b hb with builtIn | declared
        · exact .inl builtIn
        · rcases ha with builtIn | reached
          · exact absurd builtIn builtInLibrary?_ne_document
          · exact .inr (reached.trans_declares found declared)
  · intro t ht
    exact .inl (by simpa using ht)
  · exact fun t ht => .inr ⟨d, .refl, mem_resolveAll.1 ht⟩

/-- Everything that can be reached is listed: a document on the way is listed, and the walk went
through its imports when it met it. -/
theorem complete_allImports (h : ws.Reaches d t) :
    t.identity ∈ (ws.allImports d).map ImportTarget.identity := by
  obtain ⟨e, path, declared⟩ := h
  induction path generalizing t with
  | refl => exact allImports_visits.key_mem_of_pending t (mem_resolveAll.2 declared)
  | @tail m e _ step ih =>
    obtain ⟨a, listed, same⟩ := List.mem_map.1 (ih step.1)
    cases eq_document_of_identity same
    rcases allImports_visits.closed _ listed with builtIn | below
    · exact absurd (by simpa using builtIn) builtInLibrary?_ne_document
    · rw [importsOfTarget_of_document? step.2] at below
      obtain ⟨b, mem, sameTarget⟩ := List.mem_map.1 (directImports_lists.complete t declared)
      rw [← sameTarget]
      exact below b mem

theorem allImports_lists :
    ws.ListsImports d (ws.Reaches d) ws.importsOfTarget (ws.allImports d) :=
  .of_visits allImports_visits sound_allImports (fun _ => complete_allImports)
    fun _ => Reaches.isSome_document?

theorem document_mem_allImports_iff (h : ws.document? file = some d) :
    .document file ∈ ws.allImports d ↔ Relation.TransGen ws.LeadsTo d d := by
  rw [← reaches_self_iff h]
  constructor
  · intro listed
    rcases sound_allImports _ listed with builtIn | reached
    · exact absurd builtIn builtInLibrary?_ne_document
    · exact reached
  · intro reached
    obtain ⟨a, listed, same⟩ := List.mem_map.1 (complete_allImports reached)
    exact eq_document_of_identity same ▸ listed

/-- The imports of a document of a workspace, in any graph of imports: with those of imported
documents, exactly what can be reached; without, exactly what the document declares. The document is
among the former when it lies on a cycle. -/
theorem importsOf_lists (ws : Workspace) (file : FileId) (d : Document)
    (h : ws.document? file = some d) :
    ws.ListsImports d (ws.Reaches d) ws.importsOfTarget (ws.importsOf d true) ∧
      ws.ListsImports d (ws.Declares d) (fun _ => []) (ws.importsOf d false) ∧
      (.document file ∈ ws.importsOf d true ↔ Relation.TransGen ws.LeadsTo d d) :=
  ⟨allImports_lists, directImports_lists, document_mem_allImports_iff h⟩

/-- A document that imports itself. -/
theorem importsOf_lists_selfImport :
    let d : Document :=
      .ofSource ⟨0⟩ (.ofText "*** Settings ***\nResource    self.robot\n".toList)
    let ws : Workspace := ⟨[(⟨"/self.robot".toList⟩, ⟨0⟩)], [d], 1, .empty, {}⟩
    ws.document? ⟨0⟩ = some d ∧
      (.document ⟨0⟩ ∈ ws.importsOf d true ↔ Relation.TransGen ws.LeadsTo d d) := by
  intro d ws
  have found : ws.document? ⟨0⟩ = some d := rfl
  exact ⟨found, (importsOf_lists ws ⟨0⟩ d found).2.2⟩

end RobotAnalysis.Workspace
