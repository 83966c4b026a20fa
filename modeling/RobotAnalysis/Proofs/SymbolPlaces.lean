import RobotAnalysis.Proofs.ImportClosure
import RobotAnalysis.Scope

/-!
# Where resolved symbols are declared

The keywords and variables of a document stand in that document, those of libraries stand in none.
So whatever a document resolves to something that stands in a document has been declared by that
document, and that document is one that it sees.
-/
namespace RobotAnalysis

namespace Findings

variable {file : FileId} {f g : Findings}

theorem file?_of_mem_declaredBy {scope : VariableScope} {cell : Cell} {v : Variable}
    (h : v ∈ declaredBy file scope cell) : v.location.file? = some file := by
  rw [declaredBy] at h
  split at h
  · rw [List.mem_singleton.1 h]
    rfl
  · cases h

theorem file?_of_mem_assignedBy {scope : VariableScope} {body : Span} {cell : Cell} {v : Variable}
    (h : v ∈ assignedBy file scope body cell) : v.location.file? = some file := by
  obtain ⟨token, -, rfl⟩ := List.mem_map.1 h
  rfl

theorem file?_of_mem_setBy {row : Node} {v : Variable} (h : v ∈ setBy file row) :
    v.location.file? = some file := by
  rw [setBy] at h
  split at h
  · split at h
    · exact file?_of_mem_declaredBy h
    · cases h
  · cases h

/-- Whether all keywords and variables that are found stand in a document. -/
structure StandIn (file : FileId) (f : Findings) : Prop where
  keywords : ∀ k ∈ f.keywords, k.location.file? = some file
  vars : ∀ v ∈ f.vars, v.location.file? = some file

namespace StandIn

/-- Rows that declare nothing. -/
theorem of_nil (keywords : f.keywords = []) (vars : f.vars = []) : f.StandIn file :=
  ⟨by simp [keywords], by simp [vars]⟩

theorem append (hf : f.StandIn file) (hg : g.StandIn file) : (f ++ g).StandIn file where
  keywords k hk := by
    rcases List.mem_append.1 hk with hk | hk
    · exact hf.keywords k hk
    · exact hg.keywords k hk
  vars v hv := by
    rcases List.mem_append.1 hv with hv | hv
    · exact hf.vars v hv
    · exact hg.vars v hv

theorem concat {fs : List Findings} (h : ∀ f ∈ fs, f.StandIn file) :
    (Findings.concat fs).StandIn file := by
  induction fs with
  | nil => exact of_nil rfl rfl
  | cons f fs ih =>
    obtain ⟨first, rest⟩ := List.forall_mem_cons.1 h
    exact first.append (ih rest)

theorem concat_map {α : Type} {l : List α} {r : α → Findings} (h : ∀ a, (r a).StandIn file) :
    (Findings.concat (l.map r)).StandIn file := by
  apply concat
  intro f hf
  obtain ⟨a, -, rfl⟩ := List.mem_map.1 hf
  exact h a

theorem ofImport (row : Node) : (Findings.ofImport row).StandIn file := by
  rw [Findings.ofImport]
  split <;> exact of_nil rfl rfl

theorem ofSetting (row : Node) : (Findings.ofSetting row).StandIn file := of_nil rfl rfl

theorem ofVariableRow (row : Node) : (Findings.ofVariableRow file row).StandIn file where
  keywords _ hk := by cases hk
  vars v hv := by
    obtain ⟨cell, -, declared⟩ := List.mem_flatMap.1 hv
    exact file?_of_mem_declaredBy declared

theorem ofBodyRow (scope : VariableScope) (body : Span) (row : Node) :
    (Findings.ofBodyRow file scope body row).StandIn file := by
  let vars := (row.cellsOf .assignment).flatMap (assignedBy file scope body) ++ setBy file row
  have declared : StandIn file { none with vars } :=
    { keywords := fun _ hk => by cases hk
      vars := fun v hv => by
        rcases List.mem_append.1 hv with hv | hv
        · obtain ⟨cell, -, assigned⟩ := List.mem_flatMap.1 hv
          exact file?_of_mem_assignedBy assigned
        · exact file?_of_mem_setBy hv }
  exact ((declared.append (of_nil rfl rfl)).append (of_nil rfl rfl)).append (of_nil rfl rfl)

theorem ofName (definition : Node) (name : Cell) :
    (Findings.ofName file definition name).StandIn file := by
  rw [Findings.ofName]
  split
  · exact of_nil rfl rfl
  · refine ⟨fun k hk => ?_, fun _ hv => by cases hv⟩
    rw [List.mem_singleton.1 hk]
    rfl

theorem ofDefinition (definition : Node) : (Findings.ofDefinition file definition).StandIn file :=
  (concat_map (ofName definition)).append (concat_map (ofBodyRow _ _))

theorem ofSection (sec : Node) : (Findings.ofSection file sec).StandIn file := by
  rw [Findings.ofSection]
  split
  · exact (concat_map ofImport).append (concat_map ofSetting)
  · exact concat_map ofVariableRow
  iterate 3 exact concat_map ofDefinition
  iterate 2 exact of_nil rfl rfl

end StandIn

end Findings

namespace Document

variable {d : Document}

theorem standIn_of_mem_sections {s : SectionModel} (h : s ∈ d.sections) : s.found.StandIn d.id := by
  obtain ⟨sec, -, rfl⟩ := List.mem_map.1 h
  exact .ofSection sec

theorem file?_of_mem_keywords {k : Keyword} (h : k ∈ d.keywords) :
    k.location.file? = some d.id := by
  obtain ⟨s, hs, hk⟩ := List.mem_flatMap.1 (Sequence.mem_of_mem_distinctBy h)
  exact (standIn_of_mem_sections hs).keywords k hk

theorem file?_of_mem_vars {v : Variable} (h : v ∈ d.vars) : v.location.file? = some d.id := by
  obtain ⟨s, hs, hv⟩ := List.mem_flatMap.1 (Sequence.mem_of_mem_distinctBy h)
  exact (standIn_of_mem_sections hs).vars v hv

end Document

namespace Workspace

variable (ws : Workspace)

/-- Whether a document is another one or among what that one imports under the options of the
workspace. -/
def Sees (d : Document) (file : FileId) : Prop :=
  file = d.id ∨ .document file ∈ ws.visibleImports d

variable {ws} {d : Document} {file : FileId}

/-- The keywords of a document stand there, and those of libraries in no document. -/
theorem file?_of_mem_keywordsOfTarget {t : ImportTarget} {k : Keyword}
    (h : k ∈ ws.keywordsOfTarget t) : k.location.file? = t.file? := by
  cases t with
  | document other =>
    rw [keywordsOfTarget] at h
    cases found : ws.document? other with
    | none => simp [found] at h
    | some e =>
      rw [found] at h
      rw [e.file?_of_mem_keywords h, id_of_document? found]
      rfl
  | library qualifier c =>
    obtain ⟨m, -, rfl⟩ := List.mem_map.1 h
    rfl
  | module _ => cases h

/-- The variables of a document stand there, and those of modules in no document. -/
theorem file?_of_mem_variablesOfTarget {t : ImportTarget} {v : Variable}
    (h : v ∈ ws.variablesOfTarget t) : v.location.file? = t.file? := by
  cases t with
  | document other =>
    rw [variablesOfTarget] at h
    cases found : ws.document? other with
    | none => simp [found] at h
    | some e =>
      rw [found] at h
      rw [e.file?_of_mem_vars h, id_of_document? found]
      rfl
  | library _ _ => cases h
  | module m =>
    obtain ⟨name, -, rfl⟩ := List.mem_map.1 h
    rfl

theorem eq_document_of_file? {t : ImportTarget} (h : t.file? = some file) : t = .document file := by
  cases t with
  | document other => exact congrArg ImportTarget.document (Option.some.inj h)
  | library _ _ | module _ => cases h

/-- A keyword of a target stands in a document only where the target is that document. -/
theorem eq_document_of_mem_keywordsOfTarget {t : ImportTarget} {k : Keyword}
    (h : k ∈ ws.keywordsOfTarget t) (place : k.location.file? = some file) :
    t = .document file :=
  eq_document_of_file? ((file?_of_mem_keywordsOfTarget h).symm.trans place)

/-- A variable of a target stands in a document only where the target is that document. -/
theorem eq_document_of_mem_variablesOfTarget {t : ImportTarget} {v : Variable}
    (h : v ∈ ws.variablesOfTarget t) (place : v.location.file? = some file) :
    t = .document file :=
  eq_document_of_file? ((file?_of_mem_variablesOfTarget h).symm.trans place)

theorem file?_of_mem_builtInVariables {v : Variable} (h : v ∈ ws.builtInVariables) :
    v.location.file? = none := by
  rw [builtInVariables, BuiltIn.vars] at h
  split at h
  · obtain ⟨entry, -, rfl⟩ := List.mem_map.1 h
    rfl
  · cases h

theorem sees_of_mem_visibleVariables {v : Variable} (h : v ∈ ws.visibleVariables d)
    (place : v.location.file? = some file) : ws.Sees d file := by
  rcases List.mem_append.1 (Sequence.mem_of_mem_distinctBy h) with h | h
  · rcases List.mem_append.1 h with h | h
    · rw [file?_of_mem_builtInVariables h] at place
      cases place
    · rw [d.file?_of_mem_vars h] at place
      exact .inl (Option.some.inj place).symm
  · obtain ⟨t, ht, hv⟩ := List.mem_flatMap.1 h
    exact .inr (eq_document_of_mem_variablesOfTarget hv place ▸ ht)

theorem sees_of_mem_keywords {k : Keyword} (h : k ∈ (Scope.ofDocument ws d).keywords)
    (place : k.location.file? = some file) : ws.Sees d file := by
  rcases List.mem_append.1 h with h | h
  · rw [d.file?_of_mem_keywords h] at place
    exact .inl (Option.some.inj place).symm
  · obtain ⟨t, ht, hk⟩ := List.mem_flatMap.1 h
    exact .inr (eq_document_of_mem_keywordsOfTarget hk place ▸ ht)

end Workspace

namespace Scope

variable {s : Scope} {text : Text} {offset : Nat} {file : FileId}

theorem file?_of_libraryMember? {k : Keyword} (h : s.libraryMember? text = some k) :
    k.location.file? = none := by
  obtain ⟨l, -, member⟩ := List.exists_of_findSome?_eq_some h
  obtain ⟨m, -, rfl⟩ := Option.map_eq_some_iff.1 member
  rfl

/-- A call is resolved to a keyword that stands in a document only among the keywords that are in
sight. -/
theorem mem_keywords_of_resolveKeyword? {k : Keyword} (h : s.resolveKeyword? text = some k)
    (place : k.location.file? = some file) : k ∈ s.keywords := by
  rw [resolveKeyword?, Option.ite_none_left_eq_some, Option.or_eq_some_iff,
    Option.or_eq_some_iff] at h
  rcases h.2 with (found | ⟨-, found⟩) | ⟨-, found⟩
  · exact List.mem_of_find?_eq_some found
  · obtain ⟨rest, -, found⟩ := Option.bind_eq_some_iff.1 found
    exact List.mem_of_find?_eq_some found
  · rw [file?_of_libraryMember? found] at place
    cases place

theorem mem_vars_of_resolveVariable? {v : Variable} (h : s.resolveVariable? text offset = some v) :
    v ∈ s.vars := by
  have candidate : v ∈ (s.variablesAt offset).filter fun v => v.isUsedBy text := by
    rcases Option.or_eq_some_iff.1 h with found | ⟨-, found⟩
    · exact List.mem_of_find?_eq_some found
    · exact List.mem_of_head? found
  exact (List.mem_filter.1 (List.mem_filter.1 candidate).1).1

end Scope

namespace Workspace

variable {ws : Workspace} {d : Document} {text : Text} {offset : Nat} {file : FileId}

/-- What a call leads to stands in a document that is in sight, or in none. -/
theorem sees_of_resolveKeyword? {k : Keyword}
    (h : (Scope.ofDocument ws d).resolveKeyword? text = some k)
    (place : k.location.file? = some file) : ws.Sees d file :=
  sees_of_mem_keywords (Scope.mem_keywords_of_resolveKeyword? h place) place

/-- What a usage leads to stands in a document that is in sight, or in none. -/
theorem sees_of_resolveVariable? {v : Variable}
    (h : (Scope.ofDocument ws d).resolveVariable? text offset = some v)
    (place : v.location.file? = some file) : ws.Sees d file :=
  sees_of_mem_visibleVariables (Scope.mem_vars_of_resolveVariable? h) place

end Workspace

end RobotAnalysis
