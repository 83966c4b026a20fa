import RobotAnalysis.Proofs.CacheTransparency
import RobotAnalysis.Proofs.SymbolOrder

/-!
# References and declarations

Looking for the references of a keyword and going from a call to its declaration are converse. Both
resolve the text of the cell that is found under a cursor, and a keyword is known by the cell that
declares it. So the references of a keyword are the calls from which a cursor leads to its name,
each of them once and in the order of the workspace, whichever of them one asks from.
-/
namespace RobotAnalysis

/-- Whether an offset touches a call but no variable in it. -/
structure Mention.IsFreeAt (c : Mention) (offset : Nat) : Prop where
  touches : c.span.touches offset = true
  noVariable : ∀ v ∈ VariableToken.all c.text, v.span.touches (offset - c.span.start) = false

namespace Document

variable {d : Document} {c : Mention} {offset : Nat}

/-- Whether the tree of a document is that of a text. -/
def IsParsed (d : Document) : Prop := ∃ text, d.source.tree = (parse text).value

/-- Where a call is touched, its cell is found. -/
theorem IsParsed.cellAt?_of_call (parsed : d.IsParsed) (hc : c ∈ d.calls)
    (touches : c.span.touches offset = true) :
    d.source.tree.cellAt? offset = some ⟨.keywordCall, c.text, c.span⟩ := by
  obtain ⟨text, tree⟩ := parsed
  obtain ⟨n, hn, cell⟩ := exists_cell_of_mem_calls tree hc
  rw [tree]
  exact Node.cellAt?_eq_some hn cell touches

theorem IsParsed.eq_of_span_calls (parsed : d.IsParsed) {e : Mention} (hc : c ∈ d.calls)
    (he : e ∈ d.calls) (same : c.span = e.span) : c = e := by
  obtain ⟨text, tree⟩ := parsed
  exact Document.eq_of_span_calls tree hc he same

theorem IsParsed.eq_of_location (parsed : d.IsParsed) {k l : Keyword} (hk : k ∈ d.keywords)
    (hl : l ∈ d.keywords) (same : k.location = l.location) : k = l := by
  obtain ⟨text, tree⟩ := parsed
  exact eq_of_location_keywords tree hk hl same

/-- Whether a keyword of a document is declared in a cell: the cell is a name of the tree, and the
keyword stands there. -/
structure DeclaresIn (d : Document) (k : Keyword) (name : Cell) : Prop where
  inTree : ∃ n ∈ d.source.tree.allNodes, n.cell? = some name
  isName : name.kind = .definitionName
  location : k.location = .document d.id name.span

theorem IsParsed.exists_declaresIn (parsed : d.IsParsed) {k : Keyword} (hk : k ∈ d.keywords) :
    ∃ name, d.DeclaresIn k name := by
  obtain ⟨text, tree⟩ := parsed
  obtain ⟨n, hn, name, cell, isName, location⟩ := exists_cell_of_mem_keywords tree hk
  exact ⟨name, ⟨n, tree ▸ hn, cell⟩, isName, location⟩

theorem DeclaresIn.cellAt?_eq (parsed : d.IsParsed) {k : Keyword} {name : Cell}
    (h : d.DeclaresIn k name) (touches : name.span.touches offset = true) :
    d.source.tree.cellAt? offset = some name := by
  obtain ⟨text, tree⟩ := parsed
  obtain ⟨n, hn, cell⟩ := h.inTree
  rw [tree] at hn ⊢
  exact Node.cellAt?_eq_some hn cell touches

end Document

namespace Workspace

variable {ws : Workspace} {d e g : Document} {k l : Keyword} {c : Mention} {offset : Nat}

/-- A cursor in a call, outside of its variables, leads to the keyword that its text calls. -/
theorem declarationAt?_of_call (parsed : d.IsParsed) (hc : c ∈ d.calls)
    (free : c.IsFreeAt offset) :
    ws.declarationAt? d offset = ((Scope.ofDocument ws d).resolveKeyword? c.text).map
      fun k => ws.target .keyword k.name k.location := by
  rw [declarationAt?, parsed.cellAt?_of_call hc free.touches, Option.bind_some, declarationIn?]
  simp only [VariableToken.innermostAt?_eq_none_iff.2 free.noVariable]

theorem keywordAt?_of_call (parsed : d.IsParsed) (hc : c ∈ d.calls)
    (touches : c.span.touches offset = true) :
    ws.keywordAt? d offset = (Scope.ofDocument ws d).resolveKeyword? c.text := by
  rw [keywordAt?, parsed.cellAt?_of_call hc touches]
  rfl

/-- In its name a keyword is found. -/
theorem keywordAt?_of_name (parsed : d.IsParsed) (hk : k ∈ d.keywords) {name : Cell}
    (declared : d.DeclaresIn k name) (touches : name.span.touches offset = true) :
    ws.keywordAt? d offset = some k := by
  have found : declaredIn? d name d.keywords = some k := by
    rw [declaredIn?]
    cases found : d.keywords.find? fun l => l.location == .document d.id name.span with
    | none => exact absurd (beq_iff_eq.2 declared.location) (List.find?_eq_none.1 found k hk)
    | some l =>
      have holds := List.find?_some found
      have place : l.location = k.location := (beq_iff_eq.1 holds).trans declared.location.symm
      rw [parsed.eq_of_location (List.mem_of_find?_eq_some found) hk place]
  rw [keywordAt?, declared.cellAt?_eq parsed touches, Option.bind_some]
  simp only [declared.isName, found]

section Resolution

variable (sound : ws.Sound) (parsed : ∀ e ∈ ws.documents, e.IsParsed)

include sound

theorem document?_of_mem (hd : d ∈ ws.documents) : ws.document? d.id = some d := by
  obtain ⟨e, found⟩ := Option.isSome_iff_exists.1 (isSome_document?_of_mem hd)
  have same := sound.eq_of_id (mem_documents_of_document? found) hd (id_of_document? found)
  rw [found, same]

/-- Where a keyword of a document is found under a cursor, its calls are listed, after its name if
that is asked for. -/
theorem references_of_keywordAt? (hg : g ∈ ws.documents) {name : Cell}
    (declared : g.DeclaresIn k name) (asked : ws.keywordAt? d offset = some k)
    (withDeclaration : Bool) :
    ws.references d offset withDeclaration =
      ⟨some k, (if withDeclaration then [g.reference name.span true] else []) ++
        ws.callReferences k⟩ := by
  have declaration : ws.declarationOf? k = some (g.reference name.span true) := by
    rw [declarationOf?, declared.location]
    simp only [document?_of_mem sound hg, Option.map_some]
  rw [references, asked]
  simp only [declaration, Option.toList_some]

/-- A keyword in sight that stands in a document is one of that document. -/
theorem mem_keywords_of_location (hd : d ∈ ws.documents) (hg : g ∈ ws.documents)
    (seen : l ∈ (Scope.ofDocument ws d).keywords) (place : l.location.file? = some g.id) :
    l ∈ g.keywords := by
  rcases List.mem_append.1 seen with own | imported
  · rw [d.file?_of_mem_keywords own] at place
    rwa [← sound.eq_of_id hd hg (Option.some.inj place)]
  · obtain ⟨target, -, mem⟩ := List.mem_flatMap.1 imported
    rw [eq_document_of_mem_keywordsOfTarget mem place, keywordsOfTarget,
      document?_of_mem sound hg] at mem
    exact mem

include parsed

/-- A call that leads to the place of a keyword is resolved to this keyword. -/
theorem eq_of_resolveKeyword? (hd : d ∈ ws.documents) (hg : g ∈ ws.documents)
    (hk : k ∈ g.keywords) {text : Text}
    (resolved : (Scope.ofDocument ws d).resolveKeyword? text = some l)
    (same : l.location = k.location) : l = k := by
  have place : l.location.file? = some g.id := same ▸ g.file?_of_mem_keywords hk
  have seen := Scope.mem_keywords_of_resolveKeyword? resolved place
  exact (parsed g hg).eq_of_location (mem_keywords_of_location sound hd hg seen place) hk same

theorem mem_callsOf_iff (hd : d ∈ ws.documents) (hg : g ∈ ws.documents) (hk : k ∈ g.keywords) :
    c ∈ ws.callsOf d (some k) ↔
      c ∈ d.calls ∧ (Scope.ofDocument ws d).resolveKeyword? c.text = some k := by
  change c ∈ d.calls.filter _ ↔ _
  rw [List.mem_filter]
  refine and_congr_right fun _ => ?_
  rw [Option.any_eq_true]
  constructor
  · rintro ⟨l, resolved, same⟩
    rw [Keyword.isSameSymbol, Bool.and_eq_true, beq_iff_eq, beq_iff_eq] at same
    rw [resolved, eq_of_resolveKeyword? sound parsed hd hg hk resolved same.2]
  · intro resolved
    exact ⟨k, resolved, by simp [Keyword.isSameSymbol]⟩

/-- The references of a keyword are the calls that are resolved to it. -/
theorem reference_mem_callReferences_iff (hd : d ∈ ws.documents) (hg : g ∈ ws.documents)
    (hk : k ∈ g.keywords) (hc : c ∈ d.calls) :
    d.reference c.span false ∈ ws.callReferences k ↔
      (Scope.ofDocument ws d).resolveKeyword? c.text = some k := by
  rw [callReferences, List.mem_flatMap]
  constructor
  · rintro ⟨e, he, mem⟩
    obtain ⟨u, hu, same⟩ := List.mem_map.1 mem
    obtain rfl : e = d := sound.eq_of_id he hd (congrArg Reference.file same)
    obtain ⟨isCall, resolved⟩ := (mem_callsOf_iff sound parsed he hg hk).1 hu
    have span : u.span = c.span := congrArg Reference.span same
    rwa [← (parsed e he).eq_of_span_calls isCall hc span]
  · intro resolved
    have mem := (mem_callsOf_iff sound parsed hd hg hk).2 ⟨hc, resolved⟩
    exact ⟨d, hd, List.mem_map.2 ⟨c, mem, rfl⟩⟩

/-- A cursor in a call, outside of its variables, leads to the place of a keyword exactly where the
call is resolved to the keyword. -/
theorem leads_iff (hd : d ∈ ws.documents) (hg : g ∈ ws.documents) (hk : k ∈ g.keywords)
    (hc : c ∈ d.calls) (free : c.IsFreeAt offset) :
    (∃ t, ws.declarationAt? d offset = some t ∧ t.kind = .keyword ∧ t.location = k.location) ↔
      (Scope.ofDocument ws d).resolveKeyword? c.text = some k := by
  rw [declarationAt?_of_call (parsed d hd) hc free]
  constructor
  · rintro ⟨t, leads, -, place⟩
    obtain ⟨l, resolved, rfl⟩ := Option.map_eq_some_iff.1 leads
    rw [resolved, eq_of_resolveKeyword? sound parsed hd hg hk resolved place]
  · intro resolved
    exact ⟨_, by rw [resolved]; rfl, rfl, rfl⟩

end Resolution

/-- Whether a place comes before another one: in an earlier document, or earlier in the same one. -/
def IsBefore (ws : Workspace) (r s : Reference) : Prop :=
  [r.file, s.file].Sublist (ws.documents.map Document.id) ∨
    r.file = s.file ∧ r.span.stop < s.span.start

theorem not_isBefore_self (sound : ws.Sound) (r : Reference) : ¬ ws.IsBefore r r := by
  rintro (twice | ⟨-, apart⟩)
  · exact List.nodup_iff_sublist.1 sound.ids_nodup _ twice
  · rw [Span.stop] at apart
    omega

/-- The calls of a keyword come in the order of the documents and of their texts. -/
theorem pairwise_callReferences (parsed : ∀ e ∈ ws.documents, e.IsParsed) (k : Keyword) :
    (ws.callReferences k).Pairwise ws.IsBefore := by
  refine List.pairwise_flatMap.2 ⟨fun d hd => ?_, ?_⟩
  · obtain ⟨text, tree⟩ := parsed d hd
    refine List.pairwise_map.2 (((d.pairwise_calls tree).sublist List.filter_sublist).imp ?_)
    exact fun apart => .inr ⟨rfl, apart⟩
  · refine List.pairwise_iff_forall_sublist.2 fun {d e} order x hx y hy => ?_
    obtain ⟨c, -, rfl⟩ := List.mem_map.1 hx
    obtain ⟨u, -, rfl⟩ := List.mem_map.1 hy
    exact .inl (order.map Document.id)

/-- What the references of a keyword are, `found` being those with its declaration or without, and
`name` the place where it is declared. -/
structure ListsCalls (ws : Workspace) (k : Keyword) (name : Reference)
    (found : Bool → ReferenceList) : Prop where
  definition : ∀ withDeclaration, (found withDeclaration).definition = some k
  calls : ∀ r ∈ (found false).references,
    ∃ d ∈ ws.documents, ∃ c ∈ d.calls, r = d.reference c.span false
  /-- Of the calls that are not all variables, those are listed from which every cursor outside of
  variables leads to the declaration. -/
  leads_iff : ∀ d ∈ ws.documents, ∀ c ∈ d.calls, (∃ offset, c.IsFreeAt offset) →
    (d.reference c.span false ∈ (found false).references ↔
      ∀ offset, c.IsFreeAt offset → ∃ t, ws.declarationAt? d offset = some t ∧
        t.kind = .keyword ∧ t.location = k.location)
  once : (found false).references.Nodup
  ordered : (found false).references.Pairwise ws.IsBefore
  /-- Asking from one of the calls gives the same answers. -/
  from_calls : ∀ d ∈ ws.documents, ∀ c ∈ d.calls,
    d.reference c.span false ∈ (found false).references →
      ∀ offset, c.span.touches offset = true → ws.references d offset = found
  declaration : (found true).references = name :: (found false).references

/-- In a workspace of texts the references of a keyword and the declarations of its calls are
converse. -/
theorem listsCalls (sound : ws.Sound) (parsed : ∀ e ∈ ws.documents, e.IsParsed)
    (hg : g ∈ ws.documents) (hk : k ∈ g.keywords) {name : Cell} (declared : g.DeclaresIn k name)
    (touches : name.span.touches offset = true) :
    ws.ListsCalls k (g.reference name.span true) (ws.references g offset) := by
  have asked : ws.keywordAt? g offset = some k :=
    keywordAt?_of_name (parsed g hg) hk declared touches
  have answer := references_of_keywordAt? sound hg declared asked
  have plain : (ws.references g offset false).references = ws.callReferences k := by
    rw [answer]
    rfl
  constructor
  case definition => exact fun withDeclaration => by rw [answer]
  case calls =>
    intro r hr
    rw [plain, callReferences, List.mem_flatMap] at hr
    obtain ⟨d, hd, hr⟩ := hr
    obtain ⟨c, hc, rfl⟩ := List.mem_map.1 hr
    exact ⟨d, hd, c, List.mem_of_mem_filter hc, rfl⟩
  case leads_iff =>
    rintro d hd c hc ⟨offset, free⟩
    rw [plain, reference_mem_callReferences_iff sound parsed hd hg hk hc]
    constructor
    · exact fun resolved other free => (leads_iff sound parsed hd hg hk hc free).2 resolved
    · exact fun leads => (leads_iff sound parsed hd hg hk hc free).1 (leads offset free)
  case once =>
    rw [plain]
    refine (pairwise_callReferences parsed k).imp fun before same => ?_
    exact not_isBefore_self sound _ (same ▸ before)
  case ordered =>
    rw [plain]
    exact pairwise_callReferences parsed k
  case from_calls =>
    intro d hd c hc mem other touches
    rw [plain, reference_mem_callReferences_iff sound parsed hd hg hk hc] at mem
    funext withDeclaration
    rw [answer]
    refine references_of_keywordAt? sound hg declared ?_ withDeclaration
    rw [keywordAt?_of_call (parsed d hd) hc touches, mem]
  case declaration =>
    rw [plain, answer]
    rfl

theorem eq_or_mem_of_mem_store (h : e ∈ (ws.store d).documents) : e = d ∨ e ∈ ws.documents := by
  rw [store] at h
  split at h
  · obtain ⟨old, held, rfl⟩ := List.mem_map.1 h
    split
    · exact .inl rfl
    · exact .inr held
  · rcases List.mem_append.1 h with held | new
    · exact .inr held
    · exact .inl (List.mem_singleton.1 new)

end Workspace

namespace SourceText.Holds

variable {s : SourceText} {text : Text}

theorem tree_eq (h : s.Holds text) : s.tree = (parse text).value := by
  obtain ⟨_, same⟩ := h
  rw [same]
  rfl

theorem text_eq (h : s.Holds text) : s.text = text := by
  rw [SourceText.text, h.tree_eq, Tree.text, leaves_parse, textOf_tokenize]

end SourceText.Holds

namespace Session

variable {s : Session}

/-- Whether the parsed texts of all documents of a session have a property. -/
def AllSources (P : SourceText → Prop) (s : Session) : Prop :=
  ∀ d ∈ s.workspace.documents, P d.source

variable {P : SourceText → Prop}

theorem AllSources.store (h : s.AllSources P) (path : Path) {d : Document} (new : P d.source) :
    ∀ e ∈ ((s.workspace.register path).2.store d).documents, P e.source := by
  intro e he
  rcases Workspace.eq_or_mem_of_mem_store he with rfl | he
  · exact new
  · rw [Workspace.documents_register] at he
    exact h e he

/-- A change keeps a property that every text has when it is parsed, unless something is inserted
without it. -/
theorem AllSources.change (h : s.AllSources P) (c : Change)
    (parsed : ∀ source text, source.Holds text → P source)
    (inserted : ∀ path source, c = .insert path source → P source) :
    (s.change c).AllSources P := by
  cases c with
  | register path =>
    intro d hd
    change d ∈ (s.workspace.register path).2.documents at hd
    rw [Workspace.documents_register] at hd
    exact h d hd
  | setText path text =>
    obtain ⟨d, -, holds, stored⟩ := s.workspace.setText_eq_store path text
    intro e he
    change e ∈ (s.workspace.setText path text).2.documents at he
    rw [stored] at he
    exact h.store path (parsed d.source text holds) e he
  | insert path source =>
    have new : P (Document.ofSource (s.workspace.register path).1 source).source :=
      inserted path source rfl
    exact h.store path new
  | remove path =>
    intro d hd
    rw [Session.change, Session.remove, Workspace.remove] at hd
    cases known : s.workspace.idOf? path with
    | none =>
      rw [known] at hd
      exact h d hd
    | some file =>
      rw [known] at hd
      exact h d (List.mem_of_mem_filter hd)
  | setOptions options => exact h
  | setLibraries provider => exact h

theorem workspace_ask (s : Session) (file : FileId) (q : Question) :
    (s.ask file q).2.workspace = s.workspace := by
  rw [ask]
  split <;> rfl

/-- What every change keeps of the workspace holds after all events if it holds before them. -/
theorem workspace_after {Q : Workspace → Prop}
    (change : ∀ s : Session, Q s.workspace → ∀ c, Q (s.change c).workspace)
    (h : Q s.workspace) (events : List Event) : Q (s.after events).workspace := by
  induction events generalizing s with
  | nil => exact h
  | cons event events ih =>
    apply ih
    cases event with
    | change c => exact change s h c
    | ask file q =>
      rw [step, workspace_ask]
      exact h

theorem workspace_remove (s : Session) (path : Path) :
    (s.change (.remove path)).workspace = (s.workspace.remove path).2 := by
  rw [change, remove]
  dsimp only
  split <;> rfl

theorem AllSources.after {events : List Event} (h : s.AllSources P)
    (parsed : ∀ source text, source.Holds text → P source)
    (inserted : ∀ path source, .change (.insert path source) ∈ events → P source) :
    (s.after events).AllSources P := by
  induction events generalizing s with
  | nil => exact h
  | cons event events ih =>
    refine ih ?_ fun path source mem => inserted path source (List.mem_cons_of_mem _ mem)
    cases event with
    | change c =>
      exact h.change c parsed fun path source same =>
        inserted path source (same ▸ List.mem_cons_self)
    | ask file q =>
      intro d hd
      change d ∈ (s.ask file q).2.workspace.documents at hd
      rw [workspace_ask] at hd
      exact h d hd

/-- After any changes and questions by which only parsed texts are inserted, every keyword of a
document is declared in a name of the document, and looking for its references there is converse to
going to declarations. -/
theorem listsCalls_after (provider : LibraryProvider) (events : List Event)
    (inserted : ∀ path source, .change (.insert path source) ∈ events →
      ∃ text, source.tree = (parse text).value) :
    let ws := ((start provider).after events).workspace
    ∀ g ∈ ws.documents, ∀ k ∈ g.keywords, ∃ name, g.DeclaresIn k name ∧
      ∀ offset, name.span.touches offset = true →
        ws.ListsCalls k (g.reference name.span true) (ws.references g offset) := by
  intro ws g hg k hk
  have sound : ws.Sound := ((valid_start provider).after events).sound
  have none : (start provider).AllSources fun source => ∃ text, source.tree = (parse text).value :=
    fun _ hd => nomatch hd
  have parsed : ∀ e ∈ ws.documents, e.IsParsed :=
    none.after (fun _ text ⟨_, same⟩ => ⟨text, same ▸ rfl⟩) inserted
  obtain ⟨name, declared⟩ := (parsed g hg).exists_declaresIn hk
  exact ⟨name, declared, fun offset => Workspace.listsCalls sound parsed hg hk declared⟩

/-- A keyword that is called once, in the document that declares it. -/
theorem listsCalls_after_called :
    let text : Text := "*** Tasks ***\nT\n    Go\n*** Keywords ***\nGo\n".toList
    let events : List Event := [.change (.insert ⟨"/a.robot".toList⟩ (.ofText text))]
    let ws := ((start .nothing).after events).workspace
    let g : Document := .ofSource ⟨0⟩ (.ofText text)
    let k : Keyword := .declare none "Go".toList false (.document ⟨0⟩ ⟨40, 2⟩)
    (∀ path source, .change (.insert path source) ∈ events →
        ∃ text, source.tree = (parse text).value) ∧
      g ∈ ws.documents ∧ k ∈ g.keywords ∧
      ws.ListsCalls k (g.reference ⟨40, 2⟩ true) (ws.references g 41) ∧
      (ws.references g 41 false).references = [g.reference ⟨20, 2⟩ false] := by
  intro text events ws g k
  have inserted : ∀ path source, .change (.insert path source) ∈ events →
      ∃ text, source.tree = (parse text).value := by
    intro path source mem
    obtain ⟨-, source_eq⟩ : path = ⟨"/a.robot".toList⟩ ∧ source = .ofText text := by
      simpa [events] using mem
    exact ⟨text, by rw [source_eq]; rfl⟩
  have hg : g ∈ ws.documents := List.mem_singleton.2 rfl
  have hk : k ∈ g.keywords := by decide +kernel
  obtain ⟨name, declared, lists⟩ := listsCalls_after .nothing events inserted g hg k hk
  have span : name.span = ⟨40, 2⟩ := by
    have place : Location.document ⟨0⟩ ⟨40, 2⟩ = .document g.id name.span := declared.location
    cases name
    cases place
    rfl
  rw [span] at lists
  have imported : ws.resolveAll g g.imports = [] := by decide +kernel
  have listed : ws.visibleImports g = [] := by
    change DepthFirst.collect ImportTarget.identity ws.documentIdentities ws.importsOfTarget []
      (ws.resolveAll g g.imports) = _
    simp [imported, DepthFirst.collect]
  have scope : Scope.ofDocument ws g =
      ⟨⟨0⟩, g.keywords, [], [], Variable.distinct (ws.builtInVariables ++ g.vars), .empty⟩ := by
    rw [Scope.ofDocument, Workspace.visibleVariables, listed]
    simp only [List.flatMap_nil, List.filterMap_nil, List.append_nil]
    rfl
  have calls : ws.callsOf g (some k) = [⟨"Go".toList, ⟨20, 2⟩⟩] := by
    rw [Workspace.callsOf, scope]
    decide +kernel
  have asked : ws.keywordAt? g 41 = some k :=
    Workspace.keywordAt?_of_name ⟨text, rfl⟩ hk declared (by rw [span]; rfl)
  have found : (ws.references g 41 false).references = [g.reference ⟨20, 2⟩ false] := by
    rw [Workspace.references, asked]
    change (ws.callsOf g (some k)).map (fun c => g.reference c.span false) ++ [] = _
    rw [calls]
    rfl
  exact ⟨inserted, hg, hk, lists 41 rfl, found⟩

end Session

end RobotAnalysis
