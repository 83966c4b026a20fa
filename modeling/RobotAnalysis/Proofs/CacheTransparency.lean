import RobotAnalysis.Proofs.CachedQueries
import RobotAnalysis.Session

/-!
# Caches are never observable

In a session that starts empty, the caches stay valid: a change forgets what it makes wrong, and a
query only adds what reading anew gives. So whatever has been changed and asked before, a question
is answered as if nothing had been kept.
-/
namespace RobotAnalysis

/-- Whether a parsed text is that of a text, with any version. -/
def SourceText.Holds (s : SourceText) (text : Text) : Prop :=
  ∃ version, s = { ofText text with version }

namespace Workspace

variable {ws : Workspace} {d e : Document} {path : Path}

theorem documents_register : (ws.register path).2.documents = ws.documents := by
  rw [register]
  cases ws.idOf? path <;> rfl

theorem libraries_register : (ws.register path).2.libraries = ws.libraries := by
  rw [register]
  cases ws.idOf? path <;> rfl

theorem libraries_store : (ws.store d).libraries = ws.libraries := by
  rw [store]
  split <;> rfl

theorem id_ne_of_isNone (h : ¬ (ws.document? d.id).isSome) (he : e ∈ ws.documents) :
    e.id ≠ d.id := by
  intro same
  exact h (same ▸ isSome_document?_of_mem he)

/-- Storing a document touches no document with another number. -/
theorem mem_of_mem_store (h : e ∈ (ws.store d).documents) (other : e.id ≠ d.id) :
    e ∈ ws.documents := by
  rw [store] at h
  split at h
  · obtain ⟨e', he', rfl⟩ := List.mem_map.1 h
    split at other
    · exact absurd rfl other
    · rename_i different
      rw [if_neg different]
      exact he'
  · rcases List.mem_append.1 h with h | h
    · exact h
    · exact absurd (congrArg Document.id (List.mem_singleton.1 h)) other

theorem nodup_store (h : (ws.documents.map Document.id).Nodup) :
    ((ws.store d).documents.map Document.id).Nodup := by
  rw [store]
  split
  · have kept : (fun e : Document => (if e.id = d.id then d else e).id) = Document.id := by
      funext e
      split
      · rename_i same
        exact same.symm
      · rfl
    simpa only [List.map_map, Function.comp_def, kept] using h
  · rename_i fresh
    rw [List.map_append, List.nodup_append]
    refine ⟨h, by simp, ?_⟩
    intro k hk l hl
    obtain ⟨e, he, rfl⟩ := List.mem_map.1 hk
    rw [List.map_singleton, List.mem_singleton] at hl
    rw [hl]
    exact id_ne_of_isNone fresh he

theorem Sound.register (h : ws.Sound) (path : Path) : (ws.register path).2.Sound where
  ids_nodup := by
    rw [documents_register]
    exact h.ids_nodup
  names := by
    rw [libraries_register]
    exact h.names

theorem Sound.store (h : ws.Sound) (d : Document) : (ws.store d).Sound where
  ids_nodup := nodup_store h.ids_nodup
  names := by
    rw [libraries_store]
    exact h.names

/-- Setting a text stores a document with this text under the number of the path. -/
theorem setText_eq_store (ws : Workspace) (path : Path) (text : Text) :
    ∃ d : Document, d.id = (ws.setText path text).1 ∧ d.source.Holds text ∧
      (ws.setText path text).2 = (ws.register path).2.store d := by
  rw [setText]
  obtain ⟨file, registered⟩ := ws.register path
  cases found : registered.document? file with
  | none =>
    refine ⟨.ofSource file (.ofText text), ?_, ⟨0, rfl⟩, by simp [found]⟩
    simp [found, Document.ofSource]
  | some d =>
    refine ⟨d.setText text, ?_, ⟨d.source.version + 1, rfl⟩, by simp [found]⟩
    simpa [found, Document.setText, Document.ofSource] using id_of_document? found

end Workspace

namespace Caches.Valid

variable {c : Caches} {ws ws' : Workspace}

/-- Caches stay valid when one document is forgotten and no other one is touched. -/
theorem forget (h : c.Valid ws) (libraries : ws'.libraries = ws.libraries) {file : FileId}
    (others : ∀ d ∈ ws'.documents, d.id ≠ file → d ∈ ws.documents) : (c.forget file).Valid ws' where
  sections d hd l hl := by
    by_cases same : d.id = file
    · rw [← same, sectionsOf?_forget_self] at hl
      cases hl
    · rw [sectionsOf?_forget same] at hl
      exact h.sections d (others d hd same) l hl
  project := by
    rw [libraries]
    exact h.project

theorem of_same (h : c.Valid ws) (libraries : ws'.libraries = ws.libraries)
    (documents : ws'.documents = ws.documents) : c.Valid ws' where
  sections d hd := h.sections d (documents ▸ hd)
  project := libraries ▸ h.project

end Caches.Valid

/-- What holds throughout a session. -/
structure Session.Valid (s : Session) : Prop where
  sound : s.workspace.Sound
  caches : s.caches.Valid s.workspace

theorem Question.cached_agrees {ws : Workspace} (sound : ws.Sound) {d : Document}
    (hd : d ∈ ws.documents) (q : Question) : Cached.Agrees ws (q.cached ws d) (q.answer ws d) := by
  cases q with
  | sections => exact Cached.sections_agrees sound hd
  | keywords => exact Cached.keywords_agrees sound hd
  | vars => exact Cached.vars_agrees sound hd
  | visibleVariables => exact Cached.visibleVariables_agrees sound hd
  | importsOf transitive => exact Cached.importsOf_agrees sound hd transitive
  | usedFiles => exact Cached.usedFiles_agrees sound hd
  | callsOf definition => exact Cached.callsOf_agrees sound hd definition
  | runMarkers => exact Cached.runMarkers_agrees sound hd
  | resolveKeyword text => exact Cached.resolveKeyword_agrees sound hd text
  | resolveVariable text offset => exact Cached.resolveVariable_agrees sound hd text offset
  | completions offset => exact Cached.completions_agrees sound hd offset
  | declarationAt offset => exact Cached.declarationAt_agrees sound hd offset
  | references offset withDeclaration =>
    exact Cached.references_agrees sound hd offset withDeclaration
  | unusedImports => exact Cached.unusedImports_agrees sound hd
  | diagnostics => exact Cached.diagnostics_agrees sound hd
  | builtInVariables => exact Cached.builtInVariables_agrees
  | builtInKeywords => exact Cached.builtInKeywords_agrees sound

namespace Session

variable {s : Session}

theorem valid_start (provider : LibraryProvider) : (start provider).Valid where
  sound := ⟨List.nodup_nil, provider.namesDetermine_index⟩
  caches := Caches.valid_empty _

theorem Valid.cold (h : s.Valid) : s.cold.Valid := ⟨h.sound, Caches.valid_empty _⟩

/-- Storing a document and forgetting its sections keeps a session valid. -/
theorem Valid.store (h : s.Valid) (path : Path) {d : Document} {file : FileId} (id : d.id = file) :
    Valid ⟨(s.workspace.register path).2.store d, s.caches.forget file⟩ where
  sound := (h.sound.register path).store d
  caches := by
    apply h.caches.forget
    · rw [Workspace.libraries_store, Workspace.libraries_register]
    · intro e he other
      have kept := Workspace.mem_of_mem_store he (id ▸ other)
      rwa [Workspace.documents_register] at kept

theorem Valid.register (h : s.Valid) (path : Path) : (s.register path).2.Valid where
  sound := h.sound.register path
  caches := h.caches.of_same Workspace.libraries_register Workspace.documents_register

theorem Valid.setText (h : s.Valid) (path : Path) (text : Text) :
    (s.setText path text).2.Valid := by
  obtain ⟨d, id, -, stored⟩ := s.workspace.setText_eq_store path text
  have kept := h.store path id
  rw [← stored] at kept
  exact kept

theorem Valid.insert (h : s.Valid) (path : Path) (source : SourceText) :
    (s.insert path source).2.Valid :=
  h.store path rfl

theorem Valid.remove (h : s.Valid) (path : Path) : (s.remove path).2.Valid := by
  rw [Session.remove, Workspace.remove]
  cases s.workspace.idOf? path with
  | none => exact h
  | some file =>
    dsimp only
    refine ⟨⟨?_, h.sound.names⟩, ?_⟩
    · exact h.sound.ids_nodup.sublist (List.filter_sublist.map Document.id)
    · apply h.caches.forget
      · rfl
      · exact fun d hd _ => List.mem_of_mem_filter hd

theorem Valid.setOptions (h : s.Valid) (options : Options) : (s.setOptions options).Valid :=
  ⟨⟨h.sound.ids_nodup, h.sound.names⟩, h.caches.of_same rfl rfl⟩

/-- New libraries make everything wrong that was looked up in the old ones, and it is forgotten. -/
theorem Valid.setLibraries (h : s.Valid) (provider : LibraryProvider) :
    (s.setLibraries provider).Valid where
  sound := ⟨h.sound.ids_nodup, provider.namesDetermine_index⟩
  caches := ⟨h.caches.sections, ProjectCache.valid_empty _⟩

theorem Valid.change (h : s.Valid) (c : Change) : (s.change c).Valid := by
  cases c with
  | register path => exact h.register path
  | setText path text => exact h.setText path text
  | insert path source => exact h.insert path source
  | remove path => exact h.remove path
  | setOptions options => exact h.setOptions options
  | setLibraries provider => exact h.setLibraries provider

/-- In a valid session a question is answered by reading everything anew, and the session stays
valid. -/
theorem Valid.ask (h : s.Valid) (file : FileId) (q : Question) :
    (s.ask file q).1 = (s.workspace.document? file).map (q.answer s.workspace) ∧
      (s.ask file q).2.Valid := by
  rw [Session.ask]
  cases found : s.workspace.document? file with
  | none => exact ⟨rfl, h⟩
  | some d =>
    have hd := Workspace.mem_documents_of_document? found
    obtain ⟨answer, kept⟩ := (Question.cached_agrees h.sound hd q).map some s.caches h.caches
    exact ⟨answer, h.sound, kept⟩

theorem Valid.step (h : s.Valid) (event : Event) : (s.step event).Valid := by
  cases event with
  | change c => exact h.change c
  | ask file q => exact (h.ask file q).2

theorem Valid.after (h : s.Valid) (events : List Event) : (s.after events).Valid := by
  induction events generalizing s with
  | nil => exact h
  | cons event events ih => exact ih (h.step event)

/-- After any changes and questions, a question is answered as it would be if nothing had been kept,
which is the answer that reads everything anew. -/
theorem ask_after_eq_cold (provider : LibraryProvider) (events : List Event) (file : FileId)
    (q : Question) :
    let s := (start provider).after events
    (s.ask file q).1 = (s.cold.ask file q).1 ∧
      (s.ask file q).1 = (s.workspace.document? file).map (q.answer s.workspace) := by
  intro s
  have valid : s.Valid := (valid_start provider).after events
  have warm := (valid.ask file q).1
  have cold := (valid.cold.ask file q).1
  exact ⟨warm.trans cold.symm, warm⟩

end Session

end RobotAnalysis
