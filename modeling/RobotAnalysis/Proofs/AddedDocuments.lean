import RobotAnalysis.Proofs.CallReferences
import RobotAnalysis.Proofs.TextVersions

/-!
# Targets and added documents

A document that is added stands behind all others, and no path but its own leads to it. So a target
that leads to some document still does when another one is added, wherever that is: a document that
is found at its place stays there, and one that is found by the end of its path is still the first.
The only place that matters is the one that is looked at first.
-/
namespace RobotAnalysis

namespace Workspace

/-- The path that is written in a document, its variables replaced. -/
def writtenPath (ws : Workspace) (source : FileId) (target : Text) : Path :=
  ⟨expand ((ws.path? source).bind Path.parent?) target⟩

/-- The place that a target is looked for first: what is written, read from the directory of the
document it is written in, and resolved. -/
def placeOf (ws : Workspace) (source : FileId) (target : Text) : List Component :=
  let candidate :=
    match (ws.path? source).bind Path.parent? with
    | some d => d.join (ws.writtenPath source target)
    | none => ws.writtenPath source target
  Path.normalize candidate.components

/-- The number of a known path with some components. -/
def idAt? (ws : Workspace) (components : List Component) : Option FileId :=
  (ws.paths.find? fun entry => entry.1.components == components).map Prod.snd

variable {ws later : Workspace} {path : Path} {file source added : FileId} {target : Text}
  {d : Document} {components : List Component}

theorem resolveResource?_eq (ws : Workspace) (source : FileId) (target : Text) :
    ws.resolveResource? source target = (ws.findByComponents? (ws.placeOf source target)).or
      (ws.findByEnd? (ws.writtenPath source target)) := rfl

theorem findByComponents?_eq (ws : Workspace) (components : List Component) :
    ws.findByComponents? components =
      (ws.idAt? components).filter fun file => (ws.document? file).isSome := rfl

/-- A number found by components is that of a path with these components. -/
theorem exists_of_idAt? (h : ws.idAt? components = some file) :
    ∃ path : Path, path.components = components ∧ ws.idOf? path = some file := by
  obtain ⟨entry, found, -⟩ := Option.map_eq_some_iff.1 h
  have same : entry.1.components = components := by simpa using List.find?_some found
  subst same
  exact ⟨entry.1, rfl, h⟩

/-- A number that is given to a path has a path. -/
theorem Gives.exists_path? (h : ws.Gives file) : ∃ path, ws.path? file = some path := by
  obtain ⟨path, known⟩ := h
  obtain ⟨entry, found, rfl⟩ := Option.map_eq_some_iff.1 known
  have held := List.mem_of_find?_eq_some found
  cases there : ws.paths.find? (fun e => e.2 == entry.2) with
  | none => exact absurd (beq_self_eq_true entry.2) (List.find?_eq_none.1 there entry held)
  | some e => exact ⟨e.1, by rw [path?, there, Option.map_some]⟩

/-- What a workspace is after a document has been added to it. -/
structure Adds (ws later : Workspace) (path : Path) (added : FileId) : Prop where
  /-- The documents that were there keep their paths. -/
  paths : ∀ file, (ws.document? file).isSome → later.path? file = ws.path? file
  /-- The added document stands behind the others. -/
  ids : later.documents.map Document.id = ws.documents.map Document.id ++ [added]
  found : later.findByComponents? path.components = some added
  others : ∀ components, path.components ≠ components →
    later.findByComponents? components = ws.findByComponents? components

/-- What registering a path does to the table of paths. -/
theorem paths_register (ws : Workspace) (path : Path) :
    ∃ new, (ws.register path).2.paths = ws.paths ++ new ∧ ∀ entry ∈ new, entry.1 = path := by
  rw [register]
  cases ws.idOf? path with
  | some file => exact ⟨[], (List.append_nil _).symm, List.forall_mem_nil _⟩
  | none =>
    refine ⟨[(path, ⟨ws.nextId⟩)], rfl, fun entry held => ?_⟩
    rw [List.mem_singleton.1 held]

/-- Where a path holds no document, no document has the number that it has or gets. -/
theorem document?_register_eq_none (h : ws.Numbered) (free : ws.lookup? path = none) :
    ws.document? (ws.register path).1 = none := by
  rw [← Option.not_isSome_iff_eq_none]
  intro held
  cases known : ws.idOf? path with
  | some file =>
    rw [register_of_known known] at held
    rw [lookup?, known, Option.filter_some, if_pos held] at free
    cases free
  | none =>
    rw [register_of_new known] at held
    exact Nat.lt_irrefl _ (h.given_lt _ (h.has_path _ held))

/-- The number of a registered path is that of no other components. -/
theorem register_ne_of_idAt? (h : ws.Numbered) {components : List Component}
    (known : ws.idAt? components = some file) (apart : path.components ≠ components) :
    (ws.register path).1 ≠ file := by
  intro shared
  obtain ⟨other, here, given⟩ := exists_of_idAt? known
  have numbered := idOf?_register_self ws path
  rw [shared] at numbered
  have still := idOf?_register_of_known path given
  exact apart (((h.register path).one_path path other file numbered still).trans here)

theorem paths_store_register (ws : Workspace) (path : Path) (d : Document) :
    ∃ new, ((ws.register path).2.store d).paths = ws.paths ++ new ∧
      ∀ entry ∈ new, entry.1 = path := by
  rw [paths_store]
  exact paths_register ws path

/-- A document put at a path changes nothing for other components. -/
theorem findByComponents?_store_register (h : ws.Numbered) (own : d.id = (ws.register path).1)
    {components : List Component} (apart : path.components ≠ components) :
    ((ws.register path).2.store d).findByComponents? components =
      ws.findByComponents? components := by
  obtain ⟨new, table, at_path⟩ := paths_store_register ws path d
  have same : ((ws.register path).2.store d).idAt? components = ws.idAt? components := by
    have none_new : new.find? (fun e => e.1.components == components) = none := by
      rw [List.find?_eq_none]
      intro entry held
      rw [at_path entry held, beq_iff_eq]
      exact apart
    rw [idAt?, idAt?, table, List.find?_append, none_new, Option.or_none]
  rw [findByComponents?_eq, findByComponents?_eq, same]
  cases known : ws.idAt? components with
  | none => rfl
  | some file =>
    have distinct : d.id ≠ file := own ▸ register_ne_of_idAt? h known apart
    rw [Option.filter_some, Option.filter_some, document?_store, if_neg distinct,
      document?_register]

/-- A document put at a path without one is added. -/
theorem Adds.of_store (h : ws.Numbered) (free : ws.lookup? path = none)
    (own : d.id = (ws.register path).1) :
    ws.Adds ((ws.register path).2.store d) path (ws.register path).1 where
  paths file held := by
    obtain ⟨new, table, -⟩ := paths_store_register ws path d
    obtain ⟨known, there⟩ := (h.has_path file held).exists_path?
    obtain ⟨entry, first, same⟩ := Option.map_eq_some_iff.1 there
    rw [there, Workspace.path?, table, List.find?_append, first, Option.some_or, Option.map_some,
      same]
  ids := by
    have after : ((ws.register path).2.document? d.id).isSome = false := by
      rw [document?_register, own, document?_register_eq_none h free, Option.isSome_none]
    rw [store, if_neg (by rw [after]; exact Bool.false_ne_true)]
    show ((ws.register path).2.documents ++ [d]).map Document.id = _
    rw [documents_register, List.map_append, List.map_singleton, own]
  found := by
    show ((ws.register path).2.store d).lookup? path = _
    rw [lookup?, idOf?_store, idOf?_register_self, Option.filter_some, if_pos]
    rw [document?_store, if_pos own, Option.isSome_some]
  others _ := findByComponents?_store_register h own

namespace Adds

variable (h : ws.Adds later path added)

include h

theorem writtenPath (held : (ws.document? source).isSome) :
    later.writtenPath source target = ws.writtenPath source target := by
  rw [Workspace.writtenPath, Workspace.writtenPath, h.paths source held]

theorem placeOf (held : (ws.document? source).isSome) :
    later.placeOf source target = ws.placeOf source target := by
  simp only [Workspace.placeOf, h.paths source held, h.writtenPath held]

/-- The first document with the end of a path that is looked for stays the first one. -/
theorem findByEnd? {p : Path} (found : ws.findByEnd? p = some file) :
    later.findByEnd? p = some file := by
  rw [findByEnd?_eq] at found ⊢
  dsimp only at found ⊢
  split at found
  · cases found
  · rename_i some_names
    rw [if_neg some_names, h.ids, List.find?_append]
    have kept : ∀ id ∈ ws.documents.map Document.id, later.path? id = ws.path? id := by
      intro id held
      obtain ⟨e, mem, rfl⟩ := List.mem_map.1 held
      exact h.paths e.id (isSome_document?_of_mem mem)
    have same (ends : Path → Bool) : ((ws.documents.map Document.id).filter fun id =>
        (later.path? id).any ends) =
          (ws.documents.map Document.id).filter fun id => (ws.path? id).any ends :=
      List.filter_congr fun id held => by rw [kept id held]
    rw [← List.head?_filter, same, List.head?_filter, found, Option.some_or]

/-- A target leads where it did, unless the document is added at the place that is looked at
first. -/
theorem resolveResource? (held : (ws.document? source).isSome)
    (resolved : ws.resolveResource? source target = some file) :
    later.resolveResource? source target =
      some (if path.components = ws.placeOf source target then added else file) := by
  rw [resolveResource?_eq] at resolved
  rw [resolveResource?_eq, h.placeOf held, h.writtenPath held]
  by_cases here : path.components = ws.placeOf source target
  · rw [if_pos here, ← here, h.found, Option.some_or]
  · rw [if_neg here, h.others _ here]
    rcases Option.or_eq_some_iff.1 resolved with at_place | ⟨nowhere, by_end⟩
    · rw [at_place, Option.some_or]
    · rw [nowhere, Option.none_or, h.findByEnd? by_end]

end Adds

theorem Adds.setText (h : ws.Numbered) (free : ws.lookup? path = none) (text : Text) :
    ws.Adds (ws.setText path text).2 path (ws.setText path text).1 := by
  have number : (ws.setText path text).1 = (ws.register path).1 := by
    rw [DocumentTables.Represents.setText_eq]
  rw [number, setText_eq_store_replacement]
  exact .of_store h free (id_replacement ws _ text)

theorem Adds.insert (h : ws.Numbered) (free : ws.lookup? path = none) (content : SourceText) :
    ws.Adds (ws.insert path content).2 path (ws.insert path content).1 :=
  .of_store h free rfl

namespace Numbered

theorem change {s : Session} (h : s.workspace.Numbered) (c : Change) :
    (s.change c).workspace.Numbered := by
  cases c with
  | register path => exact h.perform (.register path)
  | setText path text => exact h.perform (.setText path text)
  | insert path source => exact h.perform (.insert path source)
  | remove path =>
    rw [Session.workspace_remove]
    exact h.perform (.remove path)
  | setOptions options => exact ⟨h.given_lt, h.one_path, h.has_path⟩
  | setLibraries provider => exact ⟨h.given_lt, h.one_path, h.has_path⟩

theorem after (provider : LibraryProvider) (events : List Event) :
    ((Session.start provider).after events).workspace.Numbered :=
  Session.workspace_after (fun _ h c => change h c) (empty provider.index) events

end Numbered

end Workspace

/-- Whatever has happened before: when a document is added at a path without one, with any content,
a target that led to a document still leads there, unless the path is the place that is looked at
first; then the target leads to the added document. -/
theorem Session.resolveResource?_added (provider : LibraryProvider) (events : List Event) :
    let ws := ((start provider).after events).workspace
    ∀ {source file : FileId} {target : Text} {path : Path}, (ws.document? source).isSome →
      ws.resolveResource? source target = some file → ws.lookup? path = none →
      (∀ text, let (added, later) := ws.setText path text
        later.lookup? path = some added ∧ later.resolveResource? source target =
          some (if path.components = ws.placeOf source target then added else file)) ∧
      ∀ content, let (added, later) := ws.insert path content
        later.lookup? path = some added ∧ later.resolveResource? source target =
          some (if path.components = ws.placeOf source target then added else file) := by
  intro ws source file target path held resolved free
  have numbered : ws.Numbered := .after provider events
  constructor
  · intro text
    have adds := Workspace.Adds.setText numbered free text
    exact ⟨adds.found, adds.resolveResource? held resolved⟩
  · intro content
    have adds := Workspace.Adds.insert numbered free content
    exact ⟨adds.found, adds.resolveResource? held resolved⟩

/-- A document is found by the end of its path. Another one with this end, at a path that has been
known without a document, changes nothing; one beside the importing document takes its place. -/
theorem Session.resolveResource?_added_beside :
    let events : List Event := [.change (.register ⟨"/q/x.resource".toList⟩),
      .change (.setText ⟨"/p/a.robot".toList⟩ []), .change (.setText ⟨"/p/r/x.resource".toList⟩ [])]
    let ws := ((start .nothing).after events).workspace
    (ws.document? ⟨1⟩).isSome ∧ ws.resolveResource? ⟨1⟩ "x.resource".toList = some ⟨2⟩ ∧
      ws.lookup? ⟨"/q/x.resource".toList⟩ = none ∧ ws.lookup? ⟨"/p/./x.resource".toList⟩ = none ∧
      (ws.setText ⟨"/q/x.resource".toList⟩ []).2.resolveResource? ⟨1⟩ "x.resource".toList =
        some ⟨2⟩ ∧
      (ws.insert ⟨"/p/./x.resource".toList⟩ (.ofText [])).2.resolveResource? ⟨1⟩
        "x.resource".toList = some ⟨3⟩ := by
  intro events ws
  have held : (ws.document? ⟨1⟩).isSome := by decide +kernel
  have resolved : ws.resolveResource? ⟨1⟩ "x.resource".toList = some ⟨2⟩ := by decide +kernel
  have known : ws.lookup? ⟨"/q/x.resource".toList⟩ = none := by decide +kernel
  have beside : ws.lookup? ⟨"/p/./x.resource".toList⟩ = none := by decide +kernel
  have elsewhere := (resolveResource?_added .nothing events held resolved known).1 []
  have nearer := (resolveResource?_added .nothing events held resolved beside).2 (.ofText [])
  refine ⟨held, resolved, known, beside, elsewhere.2.trans ?_, nearer.2.trans ?_⟩
  · rw [if_neg (by decide +kernel)]
  · rw [if_pos (by decide +kernel)]
    decide +kernel

end RobotAnalysis
