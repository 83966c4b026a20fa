import RobotAnalysis.Proofs.CacheTransparency
import RobotAnalysis.Proofs.DocumentIdentity
import RobotAnalysis.Proofs.Lossless
import RobotAnalysis.Proofs.UnrelatedEdits

/-!
# Versions and texts

What is derived from a document is kept under its version, so a version should tell its text: along
a run of operations the version of a document should not fall, and an equal version should mean an
equal text. Setting a text counts the version up. Inserting a parsed text starts again at zero, also
in the place of a document that is there, and this is the only way in which a version can fail to
tell its text.
-/
namespace RobotAnalysis

/-- Whether a text can come after another one under versions that tell them apart. -/
structure SourceText.Precedes (s t : SourceText) : Prop where
  version_le : s.version ≤ t.version
  same_text : s.version = t.version → s.text = t.text

namespace SourceText.Precedes

variable {s t u : SourceText}

theorem refl (s : SourceText) : s.Precedes s := ⟨Nat.le_refl _, fun _ => rfl⟩

theorem trans (h : s.Precedes t) (h' : t.Precedes u) : s.Precedes u where
  version_le := h.version_le.trans h'.version_le
  same_text same := by
    have le := h.version_le
    have le' := h'.version_le
    exact (h.same_text (by omega)).trans (h'.same_text (by omega))

theorem setText (s : SourceText) (text : Text) : s.Precedes (s.setText text) := by
  constructor <;> simp

end SourceText.Precedes

theorem SourceText.text_ofText (text : Text) : (ofText text).text = text := by
  have leaves : (ofText text).tree.leaves = tokenize text := leaves_parse text
  rw [SourceText.text, Tree.text, leaves, textOf_tokenize]

/-- A text that has just been parsed can only come after itself at version zero. -/
theorem SourceText.precedes_ofText_iff {s : SourceText} {text : Text} :
    s.Precedes (ofText text) ↔ s.version = 0 ∧ s.text = text := by
  have zero : (ofText text).version = 0 := rfl
  constructor
  · intro h
    have none_left : s.version = 0 := Nat.le_zero.1 h.version_le
    exact ⟨none_left, (h.same_text none_left).trans (text_ofText text)⟩
  · rintro ⟨none_left, same⟩
    exact ⟨none_left ▸ Nat.zero_le _, fun _ => same.trans (text_ofText text).symm⟩

namespace Workspace

/-- Whether the versions in one state tell the texts in another, later one: no version has fallen,
and a document under the same version has the same text. -/
def VersionsTell (ws later : Workspace) : Prop :=
  ∀ file d e, ws.document? file = some d → later.document? file = some e →
    d.source.version ≤ e.source.version ∧
      (d.source.version = e.source.version → d.source.text = e.source.text)

/-- The states that some operations lead through, the one before them first. -/
def states (ws : Workspace) : List FileOperation → List Workspace
  | [] => [ws]
  | op :: ops => ws :: (ws.perform op).2.states ops

/-- Whether a number is that of some path. -/
def Gives (ws : Workspace) (file : FileId) : Prop := ∃ path, ws.idOf? path = some file

/-- What holds of the numbers throughout a run. -/
structure Numbered (ws : Workspace) : Prop where
  given_lt : ∀ file, ws.Gives file → file.index < ws.nextId
  one_path : ∀ path other file, ws.idOf? path = some file → ws.idOf? other = some file →
    path.components = other.components
  has_path : ∀ file, (ws.document? file).isSome → ws.Gives file

/-- How a later state of a run lies to an earlier one: a number without a path stays without one,
and a document goes on under versions that tell its texts, until its number has lost its path. -/
structure Precedes (ws later : Workspace) : Prop where
  nextId_le : ws.nextId ≤ later.nextId
  retired : ∀ file, file.index < ws.nextId → ¬ ws.Gives file → ¬ later.Gives file
  continued : ∀ file d, ws.document? file = some d →
    (∃ e, later.document? file = some e ∧ d.source.Precedes e.source) ∨ ¬ later.Gives file

/-- What an operation has to meet for the versions to tell the texts after it: a parsed text can
come after the document in whose place it is put. -/
def Admits (ws : Workspace) : FileOperation → Prop
  | .insert path source => ∀ file d, ws.idOf? path = some file → ws.document? file = some d →
      d.source.Precedes source
  | .register _ | .setText _ _ | .remove _ => True

variable {ws mid later : Workspace} {path other : Path} {file : FileId} {d : Document}

theorem idOf?_congr (same : path.components = other.components) :
    ws.idOf? path = ws.idOf? other := by
  simp only [idOf?, Path.same, same]

theorem register_of_known (h : ws.idOf? path = some file) : ws.register path = (file, ws) := by
  rw [register, h]

theorem register_of_new (h : ws.idOf? path = none) : ws.register path = (⟨ws.nextId⟩,
    { ws with paths := ws.paths ++ [(path, ⟨ws.nextId⟩)], nextId := ws.nextId + 1 }) := by
  rw [register, h]

/-- A new path gets the next number; no other path changes its own. -/
theorem idOf?_register_of_new (h : ws.idOf? path = none) (other : Path) :
    (ws.register path).2.idOf? other =
      (ws.idOf? other).or (if path.same other then some ⟨ws.nextId⟩ else none) := by
  rw [register_of_new h]
  simp only [idOf?, List.find?_append, List.find?_singleton, Option.map_or]
  split <;> rfl

theorem idOf?_register_of_known (path : Path) (known : ws.idOf? other = some file) :
    (ws.register path).2.idOf? other = some file := by
  cases found : ws.idOf? path with
  | some number => rwa [register_of_known found]
  | none => rw [idOf?_register_of_new found, known, Option.some_or]

theorem idOf?_register_self (ws : Workspace) (path : Path) :
    (ws.register path).2.idOf? path = some (ws.register path).1 := by
  cases found : ws.idOf? path with
  | some file => rwa [register_of_known found]
  | none =>
    rw [idOf?_register_of_new found, found, Option.none_or, if_pos (Path.same_iff.2 rfl),
      register_of_new found]

theorem idOf?_register (h : (ws.register path).2.idOf? other = some file) :
    ws.idOf? other = some file ∨ path.components = other.components ∧ file.index = ws.nextId ∧
      (ws.register path).2.nextId = ws.nextId + 1 := by
  cases found : ws.idOf? path with
  | some known =>
    rw [register_of_known found] at h
    exact .inl h
  | none =>
    rw [idOf?_register_of_new found, Option.or_eq_some_iff] at h
    rcases h with known | ⟨-, new⟩
    · exact .inl known
    · split at new
      · rename_i same
        cases new
        exact .inr ⟨Path.same_iff.1 same, rfl, by rw [register_of_new found]⟩
      · cases new

theorem nextId_le_register (ws : Workspace) (path : Path) :
    ws.nextId ≤ (ws.register path).2.nextId := by
  rw [register]
  cases ws.idOf? path with
  | some file => exact Nat.le_refl _
  | none => exact Nat.le_succ _

theorem document?_register (ws : Workspace) (path : Path) (file : FileId) :
    (ws.register path).2.document? file = ws.document? file := by
  rw [document?, documents_register, document?]

@[simp] theorem paths_store (ws : Workspace) (d : Document) : (ws.store d).paths = ws.paths := by
  rw [store]
  split <;> rfl

@[simp] theorem idOf?_store (ws : Workspace) (d : Document) (path : Path) :
    (ws.store d).idOf? path = ws.idOf? path := by
  rw [store]
  split <;> rfl

@[simp] theorem nextId_store (ws : Workspace) (d : Document) : (ws.store d).nextId = ws.nextId := by
  rw [store]
  split <;> rfl

theorem document?_store (ws : Workspace) (d : Document) (file : FileId) :
    (ws.store d).document? file = if d.id = file then some d else ws.document? file := by
  split
  · rename_i same
    rw [← same, document?_store_self]
  · rename_i other
    by_cases held : (ws.document? d.id).isSome
    · exact document?_store_of_ne held fun same => other same.symm
    · rw [store, if_neg held, document?, List.find?_append, List.find?_singleton,
        if_neg (by simpa using other), Option.or_none, document?]

theorem idOf?_remove (found : ws.idOf? path = some file) (other : Path) :
    (ws.remove path).2.idOf? other =
      if path.components = other.components then none else ws.idOf? other := by
  rw [remove, found]
  simp only [idOf?, List.find?_filter]
  split
  · rename_i same
    rw [List.find?_eq_none.2, Option.map_none]
    intro entry _
    simp only [Path.same, same]
    simp
  · rename_i apart
    refine congrArg (Option.map Prod.snd) (congrArg (List.find? · ws.paths) ?_)
    funext entry
    rw [Bool.eq_iff_iff]
    simp only [Bool.not_eq_true', decide_eq_true_eq, Bool.eq_false_iff, ne_eq, Path.same_iff]
    constructor
    · exact fun h => h.2
    · exact fun h => ⟨fun h' => apart (h'.symm.trans h), h⟩

theorem document?_remove (found : ws.idOf? path = some file) (other : FileId) :
    (ws.remove path).2.document? other = if file = other then none else ws.document? other := by
  rw [remove, found]
  simp only [document?, List.find?_filter]
  split
  · rename_i same
    rw [List.find?_eq_none.2]
    intro e _
    simp [same]
  · rename_i apart
    refine congrArg (List.find? · ws.documents) ?_
    funext e
    rw [Bool.eq_iff_iff]
    simp only [bne_iff_ne, beq_iff_eq, decide_eq_true_eq]
    constructor
    · exact fun h => h.2
    · exact fun h => ⟨fun h' => apart (h'.symm.trans h), h⟩

theorem remove_of_unknown (h : ws.idOf? path = none) : (ws.remove path).2 = ws := by
  rw [remove, h]

theorem gives_of_document? (h : ws.Numbered) (found : ws.document? file = some d) :
    ws.Gives file :=
  h.has_path file (Option.isSome_of_eq_some found)

namespace Numbered

theorem empty (libraries : LibraryIndex) : (Workspace.empty libraries).Numbered where
  given_lt _ := nofun
  one_path _ _ _ := nofun
  has_path _ := nofun

theorem register (h : ws.Numbered) (path : Path) : (ws.register path).2.Numbered where
  given_lt file := by
    rintro ⟨other, found⟩
    have le := nextId_le_register ws path
    rcases idOf?_register found with known | ⟨-, here, next⟩
    · have := h.given_lt file ⟨other, known⟩
      omega
    · omega
  one_path other another file found found' := by
    rcases idOf?_register found with known | ⟨same, here, -⟩ <;>
      rcases idOf?_register found' with known' | ⟨same', here', -⟩
    · exact h.one_path other another file known known'
    · have := h.given_lt file ⟨other, known⟩
      omega
    · have := h.given_lt file ⟨another, known'⟩
      omega
    · exact same.symm.trans same'
  has_path file held := by
    rw [document?_register] at held
    obtain ⟨other, known⟩ := h.has_path file held
    exact ⟨other, idOf?_register_of_known path known⟩

theorem store (h : ws.Numbered) (given : ws.Gives d.id) : (ws.store d).Numbered where
  given_lt file found := by
    simp only [Gives, idOf?_store, nextId_store] at found ⊢
    exact h.given_lt file found
  one_path := by
    simp only [idOf?_store]
    exact h.one_path
  has_path file held := by
    simp only [Gives, idOf?_store]
    rw [document?_store] at held
    split at held
    · rename_i same
      exact same ▸ given
    · exact h.has_path file held

theorem remove (h : ws.Numbered) (path : Path) : (ws.remove path).2.Numbered := by
  cases found : ws.idOf? path with
  | none => rwa [remove_of_unknown found]
  | some number =>
    have next : (ws.remove path).2.nextId = ws.nextId := by rw [Workspace.remove, found]
    have kept {other : Path} {file : FileId}
        (there : (ws.remove path).2.idOf? other = some file) : ws.idOf? other = some file := by
      rw [idOf?_remove found] at there
      split at there
      · cases there
      · exact there
    constructor
    case given_lt =>
      rintro file ⟨other, there⟩
      exact next ▸ h.given_lt file ⟨other, kept there⟩
    case one_path =>
      intro other another file there there'
      exact h.one_path other another file (kept there) (kept there')
    case has_path =>
      intro file held
      rw [document?_remove found] at held
      split at held
      · cases held
      · rename_i apart
        obtain ⟨other, known⟩ := h.has_path file held
        refine ⟨other, ?_⟩
        rw [idOf?_remove found, if_neg, known]
        intro same
        rw [idOf?_congr same, known] at found
        exact apart (Option.some.inj found).symm

end Numbered

/-- Setting a text stores the document of the path with the next version, or a new one. -/
theorem setText_eq_store_replacement (ws : Workspace) (path : Path) (text : Text) :
    (ws.setText path text).2 = (ws.register path).2.store (DocumentTables.replacement
      (ws.register path).1 text (ws.document? (ws.register path).1)) := by
  rw [DocumentTables.Represents.setText_eq, document?_register]

theorem id_replacement (ws : Workspace) (file : FileId) (text : Text) :
    (DocumentTables.replacement file text (ws.document? file)).id = file :=
  DocumentTables.id_replacement fun _ => id_of_document?

theorem gives_register (ws : Workspace) (path : Path) :
    (ws.register path).2.Gives (ws.register path).1 := ⟨path, idOf?_register_self ws path⟩

theorem Numbered.perform (h : ws.Numbered) (op : FileOperation) : (ws.perform op).2.Numbered := by
  cases op with
  | register path => exact h.register path
  | setText path text =>
    show (ws.setText path text).2.Numbered
    rw [setText_eq_store_replacement]
    refine (h.register path).store ?_
    rw [id_replacement]
    exact gives_register ws path
  | insert path source => exact (h.register path).store (gives_register ws path)
  | remove path => exact h.remove path

namespace Precedes

theorem refl (ws : Workspace) : ws.Precedes ws where
  nextId_le := Nat.le_refl _
  retired _ _ gone := gone
  continued _ d found := .inl ⟨d, found, .refl _⟩

theorem trans (numbered : ws.Numbered) (h : ws.Precedes mid) (h' : mid.Precedes later) :
    ws.Precedes later where
  nextId_le := h.nextId_le.trans h'.nextId_le
  retired file old gone :=
    h'.retired file (Nat.lt_of_lt_of_le old h.nextId_le) (h.retired file old gone)
  continued file d found := by
    have old := numbered.given_lt file (gives_of_document? numbered found)
    rcases h.continued file d found with ⟨e, found', before⟩ | gone
    · rcases h'.continued file e found' with ⟨f, found'', after⟩ | gone'
      · exact .inl ⟨f, found'', before.trans after⟩
      · exact .inr gone'
    · exact .inr (h'.retired file (Nat.lt_of_lt_of_le old h.nextId_le) gone)

theorem register (ws : Workspace) (path : Path) : ws.Precedes (ws.register path).2 where
  nextId_le := nextId_le_register ws path
  retired file old gone := by
    rintro ⟨other, found⟩
    rcases idOf?_register found with known | ⟨-, here, -⟩
    · exact gone ⟨other, known⟩
    · omega
  continued file d found := .inl ⟨d, (document?_register ws path file).trans found, .refl _⟩

/-- Storing a document in the place of one that it can come after. -/
theorem store (continues : ∀ old, ws.document? d.id = some old → old.source.Precedes d.source) :
    ws.Precedes (ws.store d) where
  nextId_le := (nextId_store ws d).ge
  retired file _ gone := by simpa only [Gives, idOf?_store] using gone
  continued file old found := by
    rw [document?_store]
    split
    · rename_i same
      exact .inl ⟨d, rfl, continues old (same ▸ found)⟩
    · exact .inl ⟨old, found, .refl _⟩

theorem remove (numbered : ws.Numbered) (path : Path) : ws.Precedes (ws.remove path).2 := by
  cases found : ws.idOf? path with
  | none =>
    rw [remove_of_unknown found]
    exact refl ws
  | some number =>
    constructor
    case nextId_le => rw [Workspace.remove, found]
    case retired =>
      rintro file - gone ⟨other, there⟩
      rw [idOf?_remove found] at there
      split at there
      · cases there
      · exact gone ⟨other, there⟩
    case continued =>
      intro file d held
      rw [document?_remove found]
      split
      · rename_i same
        subst same
        refine .inr ?_
        rintro ⟨other, there⟩
        rw [idOf?_remove found] at there
        split at there
        · cases there
        · rename_i apart
          exact apart (numbered.one_path path other number found there)
      · exact .inl ⟨d, held, .refl _⟩

/-- A later state that an earlier one precedes has versions that tell the texts. -/
theorem versionsTell (h : ws.Precedes later) (numbered : later.Numbered) :
    ws.VersionsTell later := by
  intro file d e found found'
  rcases h.continued file d found with ⟨e', held, continues⟩ | gone
  · cases Option.some.inj (held.symm.trans found')
    exact ⟨continues.version_le, continues.same_text⟩
  · exact absurd (gives_of_document? numbered found') gone

end Precedes

/-- A document that is replaced by setting the text continues. -/
theorem precedes_setText (numbered : ws.Numbered) (path : Path) (text : Text) :
    ws.Precedes (ws.setText path text).2 := by
  rw [setText_eq_store_replacement]
  refine (Precedes.register ws path).trans numbered (.store fun old held => ?_)
  rw [id_replacement, document?_register] at held
  rw [held]
  exact .setText old.source text

theorem precedes_insert (numbered : ws.Numbered) {source : SourceText}
    (admitted : ws.Admits (.insert path source)) : ws.Precedes (ws.insert path source).2 := by
  refine (Precedes.register ws path).trans numbered (.store fun old held => ?_)
  rw [document?_register] at held
  rcases idOf?_register (idOf?_register_self ws path) with known | ⟨-, here, -⟩
  · exact admitted _ old known held
  · have := numbered.given_lt _ (gives_of_document? numbered held)
    exact absurd here (Nat.ne_of_lt this)

/-- One step: an operation that is admitted continues every document or retires its number. -/
theorem precedes_perform (numbered : ws.Numbered) {op : FileOperation} (admitted : ws.Admits op) :
    ws.Precedes (ws.perform op).2 := by
  cases op with
  | register path => exact .register ws path
  | setText path text => exact precedes_setText numbered path text
  | insert path source => exact precedes_insert numbered admitted
  | remove path => exact .remove numbered path

/-- An insertion after which the versions tell the texts was admitted. -/
theorem admits_of_versionsTell {op : FileOperation} (h : ws.VersionsTell (ws.perform op).2) :
    ws.Admits op := by
  cases op with
  | register path => trivial
  | setText path text => trivial
  | remove path => trivial
  | insert path source =>
    intro file d known held
    have stored : (ws.insert path source).2.document? file = some (.ofSource file source) := by
      rw [insert, register_of_known known]
      exact document?_store_self ws (.ofSource file source)
    obtain ⟨le, same⟩ := h file d _ held stored
    exact ⟨le, same⟩

theorem self_mem_states (ws : Workspace) (ops : List FileOperation) : ws ∈ ws.states ops := by
  cases ops <;> exact List.mem_cons_self

theorem Numbered.of_mem_states {ops : List FileOperation} (h : ws.Numbered)
    (mem : later ∈ ws.states ops) : later.Numbered := by
  induction ops generalizing ws with
  | nil => rwa [List.mem_singleton.1 mem]
  | cons op ops ih =>
    rcases List.mem_cons.1 mem with rfl | mem
    · exact h
    · exact ih (h.perform op) mem

/-- Whether every operation of a run is admitted where it is performed. -/
def AdmitsAll (ws : Workspace) (ops : List FileOperation) : Prop :=
  ∀ before op rest, ops = before ++ op :: rest → (ws.after before).Admits op

theorem admitsAll_cons_iff {op : FileOperation} {ops : List FileOperation} :
    ws.AdmitsAll (op :: ops) ↔ ws.Admits op ∧ (ws.perform op).2.AdmitsAll ops := by
  constructor
  · intro h
    refine ⟨h [] op ops rfl, ?_⟩
    rintro before next rest rfl
    exact h (op :: before) next rest rfl
  · rintro ⟨first, others⟩ before next rest split
    cases before with
    | nil =>
      cases split
      exact first
    | cons op' before =>
      cases split
      exact others before next rest rfl

/-- A whole run: the first state precedes all states of a run whose operations are admitted. -/
theorem precedes_of_mem_states {ops : List FileOperation} (numbered : ws.Numbered)
    (admitted : ws.AdmitsAll ops) (mem : later ∈ ws.states ops) : ws.Precedes later := by
  induction ops generalizing ws with
  | nil => exact List.mem_singleton.1 mem ▸ .refl ws
  | cons op ops ih =>
    obtain ⟨first, others⟩ := admitsAll_cons_iff.1 admitted
    rcases List.mem_cons.1 mem with rfl | mem
    · exact .refl _
    · have step := precedes_perform numbered first
      exact step.trans numbered (ih (numbered.perform op) others mem)

/-- The versions tell the texts along a run if and only if all its operations are admitted. -/
theorem pairwise_versionsTell_iff {ops : List FileOperation} (numbered : ws.Numbered) :
    (ws.states ops).Pairwise VersionsTell ↔ ws.AdmitsAll ops := by
  induction ops generalizing ws with
  | nil => simp [states, AdmitsAll]
  | cons op ops ih =>
    rw [states, List.pairwise_cons, ih (numbered.perform op), admitsAll_cons_iff]
    refine and_congr_left fun others => ?_
    constructor
    · exact fun tells => admits_of_versionsTell (tells _ (self_mem_states _ _))
    · intro first later mem
      have step := precedes_perform numbered first
      have run := precedes_of_mem_states (numbered.perform op) others mem
      exact (step.trans numbered run).versionsTell ((numbered.perform op).of_mem_states mem)

/-- Along a run in which only parsed texts are inserted, the versions tell the texts if and only if
a text is inserted in the place of a document only where the document has version zero and this very
text. -/
theorem versionsTell_states_iff (libraries : LibraryIndex) (ops : List FileOperation)
    (parsed : ∀ path source, .insert path source ∈ ops → ∃ text, source = .ofText text) :
    ((Workspace.empty libraries).states ops).Pairwise VersionsTell ↔
      ∀ before path text rest, ops = before ++ .insert path (.ofText text) :: rest →
        ∀ file d, ((Workspace.empty libraries).after before).idOf? path = some file →
          ((Workspace.empty libraries).after before).document? file = some d →
            d.source.version = 0 ∧ d.source.text = text := by
  rw [pairwise_versionsTell_iff (.empty libraries)]
  constructor
  · intro admitted before path text rest split file d known held
    have here := admitted before (.insert path (.ofText text)) rest split
    exact SourceText.precedes_ofText_iff.1 (here file d known held)
  · intro inserted before op rest split
    cases op with
    | register path => trivial
    | setText path text => trivial
    | remove path => trivial
    | insert path source =>
      intro file d known held
      have mem : .insert path source ∈ ops := by simp [split]
      obtain ⟨text, rfl⟩ := parsed path source mem
      have found := inserted before path text rest split file d known held
      exact SourceText.precedes_ofText_iff.2 found

/-- A text inserted in the place of another one of version zero stands under the same version. -/
theorem versionsTell_states_iff_replaced :
    let ops : List FileOperation :=
      [.setText ⟨"/a".toList⟩ "x".toList, .insert ⟨"/a".toList⟩ (.ofText "y".toList)]
    (∀ path source, .insert path source ∈ ops → ∃ text, source = .ofText text) ∧
      ¬ ((Workspace.empty .empty).states ops).Pairwise VersionsTell := by
  intro ops
  have parsed : ∀ path source, .insert path source ∈ ops → ∃ text, source = .ofText text := by
    intro path source mem
    obtain ⟨-, source_eq⟩ : path = ⟨"/a".toList⟩ ∧ source = .ofText "y".toList := by
      simpa [ops] using mem
    exact ⟨_, source_eq⟩
  refine ⟨parsed, fun tells => ?_⟩
  have known : ((Workspace.empty .empty).after (ops.take 1)).idOf? ⟨"/a".toList⟩ = some ⟨0⟩ := by
    decide +kernel
  have held : ((Workspace.empty .empty).after (ops.take 1)).document? ⟨0⟩ =
      some (.ofSource ⟨0⟩ (.ofText "x".toList)) := by decide +kernel
  obtain ⟨-, same⟩ := (versionsTell_states_iff .empty ops parsed).1 tells (ops.take 1) _ _ [] rfl
    _ _ known held
  rw [Document.ofSource, SourceText.text_ofText] at same
  exact absurd same (by decide)

end Workspace

end RobotAnalysis
