import Mathlib.Data.List.Nodup
import RobotAnalysis.Cached
import RobotAnalysis.Proofs.ImportClosure
import RobotAnalysis.Proofs.LibraryNames

/-!
# What cached queries answer

Caches are valid for a workspace when everything they hold is what reading it anew would give. A
cached query that starts from valid caches answers what the query without caches answers, and leaves
valid caches behind. This is proved once for every way of putting queries together, and then for
every query along its own steps.
-/
namespace RobotAnalysis

/-- What the caches rely on: no two documents share a number, and classes are determined by their
names. -/
structure Workspace.Sound (ws : Workspace) : Prop where
  ids_nodup : (ws.documents.map Document.id).Nodup
  names : ws.libraries.NamesDetermine

/-- What is kept for libraries is what looking it up gives. A keyword list is kept for a class name
only, so it has to be the list of every class of that name which an import can lead to. -/
structure ProjectCache.Valid (p : ProjectCache) (index : LibraryIndex) : Prop where
  library : ∀ t, p.library? = some t → t = BuiltIn.library? index
  vars : ∀ vs, p.vars? = some vs → vs = BuiltIn.vars index
  keywords : ∀ c, index.Offers c → ∀ qualifier ks,
    p.keywords.lookup (qualifier, c.name) = some ks → ks = c.declaredKeywords qualifier

/-- Everything that is kept is what reading it anew gives. -/
structure Caches.Valid (c : Caches) (ws : Workspace) : Prop where
  sections : ∀ d ∈ ws.documents, ∀ l, c.sectionsOf? d = some l → l = d.sections
  project : c.project.Valid ws.libraries

theorem ProjectCache.valid_empty (index : LibraryIndex) : empty.Valid index where
  library _ h := by cases h
  vars _ h := by cases h
  keywords _ _ _ _ h := by cases h

namespace ProjectCache.Valid

variable {p : ProjectCache} {index : LibraryIndex}

theorem builtInVariables (h : p.Valid index) :
    (p.builtInVariables index).1 = BuiltIn.vars index ∧
      (p.builtInVariables index).2.Valid index := by
  rw [ProjectCache.builtInVariables]
  cases known : p.vars? with
  | some vs => exact ⟨h.vars vs known, h⟩
  | none => exact ⟨rfl, h.library, fun _ hvs => (Option.some.inj hvs).symm, h.keywords⟩

theorem builtInLibrary (h : p.Valid index) :
    (p.builtInLibrary index).1 = BuiltIn.library? index ∧
      (p.builtInLibrary index).2.Valid index := by
  rw [ProjectCache.builtInLibrary]
  cases known : p.library? with
  | some t => exact ⟨h.library t known, h⟩
  | none => exact ⟨rfl, fun _ ht => (Option.some.inj ht).symm, h.vars, h.keywords⟩

/-- The list kept for a class is right for every class of its name, since there is only one. -/
theorem classKeywords (h : p.Valid index) (names : index.NamesDetermine) (qualifier : Text)
    {c : LibraryClass} (offered : index.Offers c) :
    (p.classKeywords qualifier c).1 = c.declaredKeywords qualifier ∧
      (p.classKeywords qualifier c).2.Valid index := by
  rw [ProjectCache.classKeywords]
  cases known : p.keywords.lookup (qualifier, c.name) with
  | some ks => exact ⟨h.keywords c offered qualifier ks known, h⟩
  | none =>
    refine ⟨rfl, h.library, h.vars, ?_⟩
    intro c' offered' qualifier' ks found
    rw [List.lookup_cons] at found
    split at found
    · rename_i same
      simp only [beq_iff_eq, Prod.mk.injEq] at same
      obtain ⟨rfl, sameName⟩ := same
      obtain rfl := names c' c offered' offered sameName
      exact (Option.some.inj found).symm
    · exact h.keywords c' offered' qualifier' ks found

theorem builtInKeywords (h : p.Valid index) (names : index.NamesDetermine) :
    (p.builtInKeywords index).1 = BuiltIn.keywords index ∧
      (p.builtInKeywords index).2.Valid index := by
  obtain ⟨answer, kept⟩ := h.builtInLibrary
  rw [ProjectCache.builtInKeywords, BuiltIn.keywords, ← answer]
  cases found : p.builtInLibrary index with
  | mk t p' =>
    rw [found] at answer kept
    cases class_ : index.class? BuiltIn.libraryName with
    | none =>
      obtain rfl : t = none := by simpa [BuiltIn.library?, class_] using answer
      exact ⟨rfl, kept⟩
    | some c =>
      obtain rfl : t = some (.library BuiltIn.libraryName c) := by
        simpa [BuiltIn.library?, class_] using answer
      exact kept.classKeywords names BuiltIn.libraryName (.ofClass class_)

end ProjectCache.Valid

theorem Caches.valid_empty (ws : Workspace) : empty.Valid ws where
  sections _ _ _ h := by cases h
  project := ProjectCache.valid_empty ws.libraries

theorem Workspace.Sound.eq_of_id {ws : Workspace} (sound : ws.Sound) {d e : Document}
    (hd : d ∈ ws.documents) (he : e ∈ ws.documents) (same : d.id = e.id) : d = e :=
  List.inj_on_of_nodup_map sound.ids_nodup hd he same

/-- What is listed among the imports of a document is imported everywhere or written somewhere. -/
theorem Workspace.builtIn_or_declares_of_mem_importsOf {ws : Workspace} {d : Document}
    {transitive : Bool} {t : ImportTarget} (h : t ∈ ws.importsOf d transitive) :
    ws.builtInLibrary? = some t ∨ ∃ e, ws.Declares e t := by
  cases transitive with
  | true => exact (sound_allImports t h).imp_right fun ⟨e, _, found⟩ => ⟨e, found⟩
  | false => exact (directImports_lists.sound t h).imp_right fun found => ⟨d, found⟩

/-- A class that is listed among the imports of a document is offered by the libraries. -/
theorem Workspace.offers_of_mem_importsOf {ws : Workspace} {d : Document} {transitive : Bool}
    {qualifier : Text} {c : LibraryClass}
    (h : .library qualifier c ∈ ws.importsOf d transitive) : ws.libraries.Offers c := by
  rcases builtIn_or_declares_of_mem_importsOf h with found | ⟨e, i, -, resolved⟩
  · simp only [builtInLibrary?, BuiltIn.library?, Option.map_eq_some_iff,
      ImportTarget.library.injEq] at found
    obtain ⟨_, found, -, rfl⟩ := found
    exact .ofClass found
  · cases kind : i.kind with
    | resource => simp [resolveImport?, kind] at resolved
    | variableFile => simp [resolveImport?, kind] at resolved
    | library =>
      simp only [resolveImport?, kind, Option.map_eq_some_iff, Option.or_eq_some_iff,
        ImportTarget.library.injEq] at resolved
      obtain ⟨_, found, -, rfl⟩ := resolved
      rcases found with found | ⟨noClass, m, found, rfl⟩
      · exact .ofClass found
      · exact .ofModule noClass found

/-- A module that is listed among the imports of a document is found by some name. -/
theorem Workspace.exists_module?_of_mem_importsOf {ws : Workspace} {d : Document}
    {transitive : Bool} {m : LibraryModule} (h : .module m ∈ ws.importsOf d transitive) :
    ∃ name, ws.libraries.module? name = some m := by
  rcases builtIn_or_declares_of_mem_importsOf h with found | ⟨e, i, -, resolved⟩
  · simp [builtInLibrary?, BuiltIn.library?] at found
  · cases kind : i.kind <;> simp [resolveImport?, kind] at resolved
    exact ⟨i.target, resolved⟩

namespace Caches

theorem lookup_forget {c : Caches} {file other : FileId} (h : other ≠ file) :
    (c.forget file).sections.lookup other = c.sections.lookup other := by
  rw [forget]
  induction c.sections with
  | nil => rfl
  | cons entry entries ih =>
    obtain ⟨id, kept⟩ := entry
    by_cases here : id = file
    · have skipped : (other == id) = false := by simpa [here] using h
      rw [List.filter_cons_of_neg (by simpa using here), List.lookup_cons, skipped]
      exact ih
    · rw [List.filter_cons_of_pos (by simpa using here), List.lookup_cons, List.lookup_cons, ih]

theorem lookup_forget_self {c : Caches} {file : FileId} :
    (c.forget file).sections.lookup file = none := by
  rw [List.lookup_eq_none_iff]
  intro entry kept
  have other : entry.1 ≠ file := by simpa using (List.mem_filter.1 kept).2
  simpa using other.symm

theorem sectionsOf?_forget {c : Caches} {file : FileId} {d : Document} (h : d.id ≠ file) :
    (c.forget file).sectionsOf? d = c.sectionsOf? d := by
  rw [sectionsOf?, sectionsOf?, lookup_forget h]

theorem sectionsOf?_forget_self {c : Caches} {d : Document} :
    (c.forget d.id).sectionsOf? d = none := by
  rw [sectionsOf?, lookup_forget_self]

theorem sectionsOf?_keep {c : Caches} {d e : Document} (h : e.id ≠ d.id) :
    (c.keep d).sectionsOf? e = c.sectionsOf? e := by
  have other : (e.id == d.id) = false := by simpa using h
  rw [sectionsOf?, sectionsOf?, keep, List.lookup_cons, other, lookup_forget h]

theorem sectionsOf?_keep_self {c : Caches} {d : Document} :
    (c.keep d).sectionsOf? d = some d.sections := by
  simp [sectionsOf?, keep]

/-- Keeping the sections of a document of the workspace says nothing new about another one. -/
theorem Valid.keep {c : Caches} {ws : Workspace} (h : c.Valid ws) (sound : ws.Sound)
    {d : Document} (hd : d ∈ ws.documents) : (c.keep d).Valid ws where
  sections e he l hl := by
    by_cases same : e.id = d.id
    · obtain rfl := sound.eq_of_id he hd same
      rw [sectionsOf?_keep_self] at hl
      exact (Option.some.inj hl).symm
    · rw [sectionsOf?_keep same] at hl
      exact h.sections e he l hl
  project := h.project

end Caches

namespace Cached

/-- Whether a query answers `a` from all valid caches and leaves valid caches behind. -/
def Agrees {α : Type} (ws : Workspace) (query : Cached α) (a : α) : Prop :=
  ∀ c : Caches, c.Valid ws → (query.run c).1 = a ∧ (query.run c).2.Valid ws

variable {α β γ : Type} {ws : Workspace}

namespace Agrees

theorem pure (a : α) : Agrees ws (Pure.pure a) a := fun _ valid => ⟨rfl, valid⟩

theorem bind {query : Cached α} {rest : α → Cached β} {a : α} {b : β} (h : Agrees ws query a)
    (hrest : Agrees ws (rest a) b) : Agrees ws (query >>= rest) b := by
  intro c valid
  obtain ⟨answer, kept⟩ := h c valid
  have after := hrest (query.run c).2 kept
  rw [← answer] at after
  exact after

theorem map {query : Cached α} {a : α} (f : α → β) (h : Agrees ws query a) :
    Agrees ws (f <$> query) (f a) := by
  intro c valid
  obtain ⟨answer, kept⟩ := h c valid
  exact ⟨congrArg f answer, kept⟩

theorem mapM {l : List β} {query : β → Cached α} {f : β → α}
    (h : ∀ b ∈ l, Agrees ws (query b) (f b)) : Agrees ws (l.mapM query) (l.map f) := by
  induction l with
  | nil => exact .pure []
  | cons b l ih =>
    rw [List.mapM_cons, List.map_cons]
    have rest := ih fun b' hb' => h b' (List.mem_cons_of_mem _ hb')
    exact (h b List.mem_cons_self).bind (rest.bind (.pure _))

/-- Walks whose neighbours are looked up and walks whose neighbours are known meet the same. -/
theorem collectM {κ : Type} [DecidableEq κ] {key : α → κ} {domain : List κ}
    {query : α → Cached (List α)} {next : α → List α} (h : ∀ a, Agrees ws (query a) (next a))
    (met pending : List α) :
    Agrees ws (DepthFirst.collectM key domain query met pending)
      (DepthFirst.collect key domain next met pending) := by
  induction met, pending using DepthFirst.collect.induct key domain next with
  | case1 met =>
    rw [DepthFirst.collectM, DepthFirst.collect]
    exact .pure met
  | case2 met a pending seen ih =>
    rw [DepthFirst.collectM, DepthFirst.collect, dif_pos seen, dif_pos seen]
    exact ih
  | case3 met a pending unseen inside ih =>
    rw [DepthFirst.collectM, DepthFirst.collect, dif_neg unseen, dif_neg unseen, dif_pos inside,
      dif_pos inside]
    exact (h a).bind ih
  | case4 met a pending unseen outside ih =>
    rw [DepthFirst.collectM, DepthFirst.collect, dif_neg unseen, dif_neg unseen, dif_neg outside,
      dif_neg outside]
    exact ih

end Agrees

theorem sections_agrees (sound : ws.Sound) {d : Document} (hd : d ∈ ws.documents) :
    Agrees ws (sections d) d.sections := by
  intro c valid
  cases known : c.sectionsOf? d with
  | some l =>
    have run : (sections d).run c = (l, c) := by
      simp only [sections, StateT.run_bind, StateT.run_get, pure_bind, known]
      rfl
    rw [run]
    exact ⟨valid.sections d hd l known, valid⟩
  | none =>
    have run : (sections d).run c = (d.sections, c.keep d) := by
      simp only [sections, StateT.run_bind, StateT.run_get, pure_bind, known]
      rfl
    rw [run]
    exact ⟨rfl, valid.keep sound hd⟩

/-- A question to the cache of the libraries agrees when the cache itself answers it so. -/
theorem inProject_agrees {lookup : ProjectCache → α × ProjectCache} {a : α}
    (h : ∀ p : ProjectCache, p.Valid ws.libraries →
      (lookup p).1 = a ∧ (lookup p).2.Valid ws.libraries) :
    Agrees ws (inProject lookup) a := by
  intro c valid
  obtain ⟨answer, kept⟩ := h c.project valid.project
  exact ⟨answer, ⟨valid.sections, kept⟩⟩

theorem keywords_agrees (sound : ws.Sound) {d : Document} (hd : d ∈ ws.documents) :
    Agrees ws (keywords d) d.keywords :=
  (sections_agrees sound hd).bind (.pure _)

theorem vars_agrees (sound : ws.Sound) {d : Document} (hd : d ∈ ws.documents) :
    Agrees ws (vars d) d.vars :=
  (sections_agrees sound hd).bind (.pure _)

theorem imports_agrees (sound : ws.Sound) {d : Document} (hd : d ∈ ws.documents) :
    Agrees ws (imports d) d.imports :=
  (sections_agrees sound hd).bind (.pure _)

theorem runMarkers_agrees (sound : ws.Sound) {d : Document} (hd : d ∈ ws.documents) :
    Agrees ws (runMarkers d) d.runMarkers :=
  (sections_agrees sound hd).bind (.pure _)

theorem builtInVariables_agrees : Agrees ws (builtInVariables ws) ws.builtInVariables :=
  inProject_agrees fun _ valid => valid.builtInVariables

theorem builtInLibrary_agrees : Agrees ws (builtInLibrary ws) ws.builtInLibrary? :=
  inProject_agrees fun _ valid => valid.builtInLibrary

theorem builtInKeywords_agrees (sound : ws.Sound) :
    Agrees ws (builtInKeywords ws) ws.builtInKeywords :=
  inProject_agrees fun _ valid => valid.builtInKeywords sound.names

theorem directImports_agrees (sound : ws.Sound) {d : Document} (hd : d ∈ ws.documents) :
    Agrees ws (directImports ws d) (ws.directImports d) :=
  builtInLibrary_agrees.bind ((imports_agrees sound hd).bind (.pure _))

theorem importsOfTarget_agrees (sound : ws.Sound) (t : ImportTarget) :
    Agrees ws (importsOfTarget ws t) (ws.importsOfTarget t) := by
  cases t with
  | library _ _ => exact .pure []
  | module _ => exact .pure []
  | document file =>
    rw [importsOfTarget]
    cases found : ws.document? file with
    | none =>
      rw [Workspace.importsOfTarget, found]
      exact .pure []
    | some d =>
      rw [Workspace.importsOfTarget_of_document? found]
      exact directImports_agrees sound (Workspace.mem_documents_of_document? found)

theorem allImports_agrees (sound : ws.Sound) {d : Document} (hd : d ∈ ws.documents) :
    Agrees ws (allImports ws d) (ws.allImports d) :=
  builtInLibrary_agrees.bind
    ((imports_agrees sound hd).bind (.collectM (importsOfTarget_agrees sound) _ _))

theorem importsOf_agrees (sound : ws.Sound) {d : Document} (hd : d ∈ ws.documents)
    (transitive : Bool) : Agrees ws (importsOf ws d transitive) (ws.importsOf d transitive) := by
  cases transitive with
  | true => exact allImports_agrees sound hd
  | false => exact directImports_agrees sound hd

theorem visibleImports_agrees (sound : ws.Sound) {d : Document} (hd : d ∈ ws.documents) :
    Agrees ws (visibleImports ws d) (ws.visibleImports d) :=
  importsOf_agrees sound hd _

theorem variablesOfTarget_agrees (sound : ws.Sound) (t : ImportTarget) :
    Agrees ws (variablesOfTarget ws t) (ws.variablesOfTarget t) := by
  cases t with
  | library _ _ => exact .pure []
  | module m => exact .pure _
  | document file =>
    rw [variablesOfTarget, Workspace.variablesOfTarget]
    cases found : ws.document? file with
    | none => exact .pure []
    | some d => exact vars_agrees sound (Workspace.mem_documents_of_document? found)

theorem keywordsOfTarget_agrees (sound : ws.Sound) (t : ImportTarget)
    (offered : ∀ qualifier c, t = .library qualifier c → ws.libraries.Offers c) :
    Agrees ws (keywordsOfTarget ws t) (ws.keywordsOfTarget t) := by
  cases t with
  | library qualifier c =>
    exact inProject_agrees fun _ valid =>
      valid.classKeywords sound.names qualifier (offered qualifier c rfl)
  | module _ => exact .pure []
  | document file =>
    rw [keywordsOfTarget, Workspace.keywordsOfTarget]
    cases found : ws.document? file with
    | none => exact .pure []
    | some d => exact keywords_agrees sound (Workspace.mem_documents_of_document? found)

theorem visibleVariables_agrees (sound : ws.Sound) {d : Document} (hd : d ∈ ws.documents) :
    Agrees ws (visibleVariables ws d) (ws.visibleVariables d) := by
  rw [Workspace.visibleVariables, List.flatMap_def]
  have imported : Agrees ws ((ws.visibleImports d).mapM (variablesOfTarget ws))
      ((ws.visibleImports d).map ws.variablesOfTarget) :=
    .mapM fun t _ => variablesOfTarget_agrees sound t
  exact builtInVariables_agrees.bind ((vars_agrees sound hd).bind
    ((visibleImports_agrees sound hd).bind (imported.bind (.pure _))))

theorem scope_agrees (sound : ws.Sound) {d : Document} (hd : d ∈ ws.documents) :
    Agrees ws (scope ws d) (Scope.ofDocument ws d) := by
  rw [Scope.ofDocument, List.flatMap_def]
  have imported : Agrees ws ((ws.visibleImports d).mapM (keywordsOfTarget ws))
      ((ws.visibleImports d).map ws.keywordsOfTarget) := by
    refine .mapM fun t ht => keywordsOfTarget_agrees sound t ?_
    rintro qualifier c rfl
    exact Workspace.offers_of_mem_importsOf ht
  exact (visibleImports_agrees sound hd).bind (imported.bind ((keywords_agrees sound hd).bind
    ((visibleVariables_agrees sound hd).bind (.pure _))))

theorem resolveKeyword_agrees (sound : ws.Sound) {d : Document} (hd : d ∈ ws.documents)
    (text : Text) :
    Agrees ws (resolveKeyword ws d text) ((Scope.ofDocument ws d).resolveKeyword? text) :=
  (scope_agrees sound hd).bind (.pure _)

theorem resolveVariable_agrees (sound : ws.Sound) {d : Document} (hd : d ∈ ws.documents)
    (text : Text) (offset : Nat) :
    Agrees ws (resolveVariable ws d text offset)
      ((Scope.ofDocument ws d).resolveVariable? text offset) :=
  (scope_agrees sound hd).bind (.pure _)

theorem usedFiles_agrees (sound : ws.Sound) {d : Document} (hd : d ∈ ws.documents) :
    Agrees ws (usedFiles ws d) (ws.usedFiles d) :=
  (scope_agrees sound hd).bind ((sections_agrees sound hd).bind (.pure _))

theorem callsOf_agrees (sound : ws.Sound) {d : Document} (hd : d ∈ ws.documents)
    (definition : Option Keyword) :
    Agrees ws (callsOf ws d definition) (ws.callsOf d definition) := by
  refine (sections_agrees sound hd).bind ?_
  cases definition with
  | none => exact .pure _
  | some k => exact (scope_agrees sound hd).bind (.pure _)

/-- Where no document is imported, nothing can be reported, so nothing has to be resolved. -/
theorem unusedAmong_eq_nil {d : Document} {declared : List ImportDeclaration} {used : List FileId}
    (h : ¬ (declared.any fun i => i.kind == .resource) = true) :
    ws.unusedAmong d declared used = [] := by
  have nowhere : ∀ i ∈ declared, ws.importedFile? d i = none := by
    intro i hi
    have other : i.kind ≠ .resource := by
      intro kind
      exact h (List.any_eq_true.2 ⟨i, hi, by simp [kind]⟩)
    rw [Workspace.importedFile?, if_neg other]
  have unused : declared.filter (fun i =>
      (ws.importedFile? d i).any fun target => !used.contains target) = [] := by
    rw [List.filter_eq_nil_iff]
    intro i hi
    simp [nowhere i hi]
  rw [Workspace.unusedAmong, unused, List.map_nil]

theorem unusedImports_agrees (sound : ws.Sound) {d : Document} (hd : d ∈ ws.documents) :
    Agrees ws (unusedImports ws d) (ws.unusedImports d) := by
  refine (imports_agrees sound hd).bind ?_
  by_cases importing : (d.imports.any fun i => i.kind == .resource) = true
  · rw [if_pos importing]
    exact (usedFiles_agrees sound hd).bind (.pure _)
  · rw [if_neg importing, Workspace.unusedImports, unusedAmong_eq_nil importing]
    exact .pure []

theorem diagnostics_agrees (sound : ws.Sound) {d : Document} (hd : d ∈ ws.documents) :
    Agrees ws (diagnostics ws d) (ws.diagnostics d) :=
  (unusedImports_agrees sound hd).bind (.pure _)

theorem completions_agrees (sound : ws.Sound) {d : Document} (hd : d ∈ ws.documents)
    (offset : Nat) : Agrees ws (completions ws d offset) (ws.completions d offset) := by
  refine (sections_agrees sound hd).bind ?_
  simp only [Workspace.completions, Workspace.candidates]
  split
  · exact (scope_agrees sound hd).bind (.pure _)
  · rw [List.append_nil]
    exact .pure _

theorem declarationAt_agrees (sound : ws.Sound) {d : Document} (hd : d ∈ ws.documents)
    (offset : Nat) : Agrees ws (declarationAt ws d offset) (ws.declarationAt? d offset) := by
  rw [declarationAt, Workspace.declarationAt?]
  cases d.source.tree.cellAt? offset with
  | none => exact .pure none
  | some cell =>
    exact (scope_agrees sound hd).bind ((imports_agrees sound hd).bind (.pure _))

theorem keywordAt_agrees (sound : ws.Sound) {d : Document} (hd : d ∈ ws.documents)
    (offset : Nat) : Agrees ws (keywordAt ws d offset) (ws.keywordAt? d offset) := by
  rw [keywordAt, Workspace.keywordAt?]
  cases d.source.tree.cellAt? offset with
  | none => exact .pure none
  | some cell =>
    dsimp only [Option.bind_some]
    cases cell.kind
    case definitionName => exact (keywords_agrees sound hd).bind (.pure _)
    case keywordCall => exact resolveKeyword_agrees sound hd cell.text
    all_goals exact .pure none

theorem callReferences_agrees (sound : ws.Sound) (k : Keyword) :
    Agrees ws (callReferences ws k) (ws.callReferences k) := by
  rw [Workspace.callReferences, List.flatMap_def]
  refine Agrees.bind (.mapM fun d hd => ?_) (.pure _)
  exact (callsOf_agrees sound hd (some k)).bind (.pure _)

theorem references_agrees (sound : ws.Sound) {d : Document} (hd : d ∈ ws.documents)
    (offset : Nat) (withDeclaration : Bool) :
    Agrees ws (references ws d offset withDeclaration)
      (ws.references d offset withDeclaration) := by
  refine (keywordAt_agrees sound hd offset).bind ?_
  rw [Workspace.references]
  cases ws.keywordAt? d offset with
  | none => exact .pure _
  | some k => exact (callReferences_agrees sound k).bind (.pure _)

end Cached

end RobotAnalysis
