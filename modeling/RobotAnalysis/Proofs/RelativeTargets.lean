import Mathlib.Data.List.Infix
import RobotAnalysis.Proofs.CallReferences
import RobotAnalysis.Proofs.PathSteps
import RobotAnalysis.Proofs.TextVersions

/-!
# Targets beside the importing document

A target that names a document by its place below the directory of the importing document can be
given plainly, from `.`, or from the variable for the directory, with any spelling of its
separators. All of these lead to the document exactly as far as the directory, resolved as the
target is, is the directory that the documents are known under: known paths are not resolved. Where
it is not, the target is looked for at the end of any path, and a document elsewhere can be found.
-/
namespace RobotAnalysis

namespace Sequence

variable {α : Type} [BEq α] {target replacement : List α}

theorem copy_eq_drop (skip : Nat) (l : List α) :
    replaceAll.copy target replacement skip l =
      replaceAll.copy target replacement 0 (l.drop skip) := by
  induction l generalizing skip with
  | nil =>
    rw [List.drop_nil]
    rfl
  | cons a l ih =>
    cases skip with
    | zero => rfl
    | succ skip =>
      rw [replaceAll.copy, if_pos (Nat.succ_pos skip), Nat.add_sub_cancel, ih skip,
        List.drop_succ_cons]

theorem replaceAll_eq_copy (filled : target ≠ []) (l : List α) :
    replaceAll target replacement l = replaceAll.copy target replacement 0 l := by
  rw [replaceAll, if_neg (mt List.isEmpty_iff.1 filled)]

variable [LawfulBEq α]

theorem copy_cons {a : α} {l : List α} (h : ¬ target <+: a :: l) :
    replaceAll.copy target replacement 0 (a :: l) =
      a :: replaceAll.copy target replacement 0 l := by
  rw [replaceAll.copy, if_neg (Nat.lt_irrefl 0), if_neg (mt List.isPrefixOf_iff_prefix.1 h)]

theorem copy_append (filled : target ≠ []) (l : List α) :
    replaceAll.copy target replacement 0 (target ++ l) =
      replacement ++ replaceAll.copy target replacement 0 l := by
  obtain ⟨a, rest, rfl⟩ := List.exists_cons_of_ne_nil filled
  have found : (a :: rest).isPrefixOf (a :: rest ++ l) = true :=
    List.isPrefixOf_iff_prefix.2 (List.prefix_append _ l)
  rw [List.cons_append] at found ⊢
  rw [replaceAll.copy, if_neg (Nat.lt_irrefl 0), if_pos found, copy_eq_drop, List.length_cons,
    Nat.add_sub_cancel, List.drop_left]

theorem copy_of_not_infix {l : List α} (h : ¬ target <:+: l) :
    replaceAll.copy target replacement 0 l = l := by
  induction l with
  | nil => rfl
  | cons a l ih =>
    rw [List.infix_cons_iff, not_or] at h
    rw [copy_cons h.1, ih h.2]

/-- Nothing is replaced where nothing is found. -/
theorem replaceAll_of_not_infix {l : List α} (h : ¬ target <:+: l) :
    replaceAll target replacement l = l := by
  have filled : target ≠ [] := fun empty => h (empty ▸ List.nil_infix)
  rw [replaceAll_eq_copy filled, copy_of_not_infix h]

end Sequence

/-- How a text is spelled in a target: each separator as such, as a backslash, or as the variable
that stands for one. -/
inductive Spells : Text → Text → Prop
  | nil : Spells [] []
  | char {c : Char} {t s : Text} (other : c ≠ '/') (h : Spells t s) : Spells (c :: t) (c :: s)
  | separator {w t s : Text} (spelled : w ∈ [['/'], ['\\'], Workspace.separatorVariable])
      (h : Spells t s) : Spells ('/' :: t) (w ++ s)

namespace Spells

variable {t s : Text} {c : Char}

theorem append_left (u : Text) (h : Spells t s) : Spells (u ++ t) (u ++ s) := by
  induction u with
  | nil => exact h
  | cons c u ih =>
    by_cases same : c = '/'
    · rw [same]
      exact separator (w := ['/']) (by decide) ih
    · exact char same ih

theorem refl (t : Text) : Spells t t := by
  simpa using nil.append_left t

theorem eq_nil (h : Spells t []) : t = [] := by
  generalize empty : ([] : Text) = s at h
  cases h with
  | nil => rfl
  | char => cases empty
  | separator spelled _ =>
    simp only [List.mem_cons, List.not_mem_nil, or_false] at spelled
    rcases spelled with rfl | rfl | rfl <;> cases empty

/-- A character that begins no other spelling of a separator stands for itself. -/
theorem exists_cons (h : Spells t (c :: s)) (plain : c ≠ '\\') (single : c ≠ '$') :
    ∃ rest, t = c :: rest ∧ Spells rest s := by
  generalize whole : c :: s = u at h
  cases h with
  | nil => cases whole
  | char other h =>
    cases whole
    exact ⟨_, rfl, h⟩
  | separator spelled h =>
    simp only [List.mem_cons, List.not_mem_nil, or_false] at spelled
    rcases spelled with rfl | rfl | rfl
    · cases whole
      exact ⟨_, rfl, h⟩
    · exact absurd (List.cons.inj whole).1 plain
    · exact absurd (List.cons.inj whole).1 single

/-- Spelling makes no variable for a separator but where a separator is spelled. -/
theorem separatorVariable_prefix (h : Spells t s)
    (found : Workspace.separatorVariable <+: c :: s) : Workspace.separatorVariable <+: c :: t := by
  obtain ⟨rest, whole⟩ := found
  obtain ⟨rfl, rfl⟩ : '$' = c ∧ '{' :: '/' :: '}' :: rest = s := List.cons.inj whole
  obtain ⟨t₁, rfl, opened⟩ := h.exists_cons (by decide) (by decide)
  obtain ⟨t₂, rfl, separated⟩ := opened.exists_cons (by decide) (by decide)
  obtain ⟨t₃, rfl, -⟩ := separated.exists_cons (by decide) (by decide)
  exact List.prefix_append Workspace.separatorVariable t₃

/-- Reading the spelled separators gives the text back. -/
theorem read (h : Spells t s) (plain : '\\' ∉ t) (free : ¬ Workspace.separatorVariable <:+: t) :
    ((Sequence.replaceAll Workspace.separatorVariable ['/'] s).map
      fun c => if c = '\\' then '/' else c) = t := by
  have filled : Workspace.separatorVariable ≠ [] := List.cons_ne_nil _ _
  rw [Sequence.replaceAll_eq_copy filled]
  induction h with
  | nil => rfl
  | char other h ih =>
    rw [List.infix_cons_iff, not_or] at free
    rw [List.mem_cons, not_or] at plain
    rw [Sequence.copy_cons (mt h.separatorVariable_prefix free.1), List.map_cons,
      if_neg (Ne.symm plain.1), ih plain.2 free.2]
  | separator spelled h ih =>
    rw [List.infix_cons_iff, not_or] at free
    rw [List.mem_cons, not_or] at plain
    have rest := ih plain.2 free.2
    simp only [List.mem_cons, List.not_mem_nil, or_false] at spelled
    rcases spelled with rfl | rfl | rfl
    · rw [List.singleton_append, Sequence.copy_cons (by simp [Workspace.separatorVariable]),
        List.map_cons, rest]
      rfl
    · rw [List.singleton_append, Sequence.copy_cons (by simp [Workspace.separatorVariable]),
        List.map_cons, rest]
      rfl
    · rw [Sequence.copy_append filled, List.map_append, rest]
      rfl

/-- No spelling of a separator begins or ends with a blank. -/
theorem trim_eq_self (h : Spells t s) (trimmed : t.trim = t) : s.trim = s := by
  rw [Text.trim_eq_self_iff] at trimmed ⊢
  obtain ⟨first, last⟩ := trimmed
  constructor
  · cases h with
    | nil => exact first
    | char => exact first
    | separator spelled _ =>
      simp only [List.mem_cons, List.not_mem_nil, or_false] at spelled
      rcases spelled with rfl | rfl | rfl <;>
        · rintro c ⟨⟩
          decide
  · clear first
    induction h with
    | nil => exact last
    | @char c t s _ h ih =>
      by_cases empty : s = []
      · rw [empty] at h ⊢
        rwa [h.eq_nil] at last
      · by_cases none : t = []
        · rw [none] at h
          cases h
          exact absurd rfl empty
        · rw [List.getLast?_cons_of_ne_nil none] at last
          rw [List.getLast?_cons_of_ne_nil empty]
          exact ih last
    | @separator w t s spelled h ih =>
      by_cases empty : s = []
      · rw [empty, List.append_nil]
        simp only [List.mem_cons, List.not_mem_nil, or_false] at spelled
        rcases spelled with rfl | rfl | rfl <;>
          · rintro c ⟨⟩
            decide
      · by_cases none : t = []
        · rw [none] at h
          cases h
          exact absurd rfl empty
        · rw [List.getLast?_cons_of_ne_nil none] at last
          rw [List.getLast?_append_of_ne_nil _ empty]
          exact ih last

end Spells

namespace Component

/-- Whether a component is an entry of a directory. -/
def isName : Component → Bool
  | .normal _ => true
  | _ => false

theorem isName_iff {c : Component} : c.isName = true ↔ ∃ name, c = .normal name := by
  cases c <;> simp [isName]

end Component

namespace Path

theorem text_eq_nil_of_components {p : Path} (h : p.components = []) : p.text = [] := by
  rw [components_eq, List.append_eq_nil_iff] at h
  by_contra written
  obtain ⟨unanchored, meant⟩ := h
  obtain ⟨w, ws, split⟩ :=
    List.exists_cons_of_ne_nil (Sequence.splitBy_ne_nil (· == '/') p.text)
  have ignored : isIgnored w = true := by
    rw [steps, segments, split, List.filterMap_eq_nil_iff] at meant
    exact component?_eq_none.1 (meant w List.mem_cons_self)
  have first : (segments p.text).head? = some w := by rw [segments, split, List.head?_cons]
  rw [anchor] at unanchored
  split_ifs at unanchored with root current
  rw [isIgnored, Bool.or_eq_true, List.isEmpty_iff, beq_iff_eq] at ignored
  rcases ignored with rfl | rfl
  · rcases head?_segments.1 first with empty | absolute
    · exact written empty
    · exact root absolute
  · exact current first

theorem components_eq_nil_iff {p : Path} : p.components = [] ↔ p.text = [] := by
  refine ⟨text_eq_nil_of_components, fun empty => ?_⟩
  rw [components_eq, empty]
  rfl

theorem head?_components_eq_root {p : Path} :
    p.components.head? = some .root ↔ p.isAbsolute = true := by
  constructor
  · intro root
    by_contra relative
    rw [Bool.not_eq_true] at relative
    rw [components_eq] at root
    rcases anchor_of_relative relative with none | current
    · rw [none, List.nil_append] at root
      exact root_notMem_steps (List.mem_of_mem_head? root)
    · rw [current] at root
      cases root
  · intro absolute
    rw [components_eq, anchor_of_absolute absolute]
    rfl

/-- A path of names only is relative, and its steps are all there is to it. -/
theorem steps_of_names {p : Path} (h : ∀ c ∈ p.components, c.isName = true) :
    p.isAbsolute = false ∧ steps p.text = p.components := by
  have relative : p.isAbsolute = false := by
    rw [← Bool.not_eq_true, ← head?_components_eq_root]
    intro root
    cases h _ (List.mem_of_mem_head? root)
  have none : anchor p.text = [] := by
    refine (anchor_of_relative relative).resolve_right fun current => ?_
    cases h .current (by rw [components_eq, current]; exact List.mem_cons_self)
  exact ⟨relative, by rw [components_eq, none, List.nil_append]⟩

end Path

/-- How a target gives a document below the directory of the importing one: plainly, from the
directory itself, or from the variable for it. -/
inductive TargetForm
  | bare
  | dotted
  | fromDirectory
  deriving DecidableEq

namespace TargetForm

/-- The target that gives a document by what leads to it from the directory. -/
def text (r : Text) : TargetForm → Text
  | .bare => r
  | .dotted => '.' :: '/' :: r
  | .fromDirectory => Workspace.directoryVariable ++ '/' :: r

/-- The components that a target is read from, given those of the directory. The variable puts the
directory into the target, and a relative target is read from the directory once more. -/
def base (directory : List Component) : TargetForm → List Component
  | .bare | .dotted => directory
  | .fromDirectory =>
    if directory = [] then [.root]
    else if directory.head? = some .root then directory
    else directory ++ directory

/-- A target with its variables replaced. -/
def expanded (directory : Path) (r : Text) : TargetForm → Text
  | .bare => r
  | .dotted => '.' :: '/' :: r
  | .fromDirectory => directory.text ++ '/' :: r

/-- The path whose names are looked for at the end of others, for a document. -/
def ending (document : Path) (r : Text) : TargetForm → Path
  | .bare | .dotted => ⟨r⟩
  | .fromDirectory => document

end TargetForm

/-- A relative path in names only, without what targets give a meaning of their own. -/
structure Path.IsPlainName (r : Text) : Prop where
  names : ∀ c ∈ (Path.mk r).components, c.isName = true
  no_backslash : '\\' ∉ r
  no_variable : ¬ ['$', '{'] <:+: r
  trimmed : r.trim = r

namespace Path.IsPlainName

open Workspace (separatorVariable directoryVariable)

variable {r s : Text} {form : TargetForm} (plain : IsPlainName r)

include plain

theorem no_separatorVariable : ¬ separatorVariable <:+: r := fun found =>
  plain.no_variable ((List.prefix_append ['$', '{'] ['/', '}']).isInfix.trans found)

theorem no_directoryVariable : ¬ directoryVariable <:+: r := fun found =>
  plain.no_variable
    ((List.prefix_append ['$', '{'] ['C', 'U', 'R', 'D', 'I', 'R', '}']).isInfix.trans found)

theorem trim_text : (form.text r).trim = form.text r := by
  have last : ∀ c ∈ ('/' :: r).getLast?, CharClass.isBlank c = false := by
    by_cases empty : r = []
    · rw [empty]
      rintro c ⟨⟩
      decide
    · rw [List.getLast?_cons_of_ne_nil empty]
      exact (Text.trim_eq_self_iff.1 plain.trimmed).2
  cases form with
  | bare => exact plain.trimmed
  | dotted =>
    refine Text.trim_eq_self_iff.2 ⟨?_, ?_⟩
    · rintro c ⟨⟩
      decide
    · rwa [TargetForm.text, List.getLast?_cons_of_ne_nil (List.cons_ne_nil _ _)]
  | fromDirectory =>
    refine Text.trim_eq_self_iff.2 ⟨?_, ?_⟩
    · rintro c ⟨⟩
      decide
    · rwa [TargetForm.text, List.getLast?_append_of_ne_nil _ (List.cons_ne_nil _ _)]

/-- What a spelled target becomes: the directory stands where its variable stood. -/
theorem expand_spelled (spelled : Spells (form.text r) s) (directory : Path) :
    Workspace.expand (some directory) s = form.expanded directory r := by
  have free : ¬ separatorVariable <:+: form.text r := by
    have rest := plain.no_separatorVariable
    cases form with
    | bare => exact rest
    | dotted => simpa [TargetForm.text, List.infix_cons_iff, separatorVariable] using rest
    | fromDirectory =>
      simpa [TargetForm.text, List.infix_cons_iff, separatorVariable, directoryVariable] using rest
  have unslashed : '\\' ∉ form.text r := by
    have rest := plain.no_backslash
    cases form <;> simpa [TargetForm.text, directoryVariable] using rest
  simp only [Workspace.expand]
  rw [spelled.trim_eq_self plain.trim_text, spelled.read unslashed free]
  have absent := plain.no_directoryVariable
  cases form with
  | bare => exact Sequence.replaceAll_of_not_infix absent
  | dotted =>
    refine Sequence.replaceAll_of_not_infix ?_
    simpa [TargetForm.text, List.infix_cons_iff, directoryVariable] using absent
  | fromDirectory =>
    have filled : directoryVariable ≠ [] := List.cons_ne_nil _ _
    have behind : ¬ directoryVariable <:+: '/' :: r := by
      simpa [List.infix_cons_iff, directoryVariable] using absent
    change Sequence.replaceAll directoryVariable directory.text (directoryVariable ++ '/' :: r) =
      directory.text ++ '/' :: r
    rw [Sequence.replaceAll_eq_copy filled, Sequence.copy_append filled,
      Sequence.copy_of_not_infix behind]

theorem normalize_append (cs : List Component) :
    normalize (cs ++ (Path.mk r).components) = normalize cs ++ (Path.mk r).components :=
  normalize_append_names cs fun c hc => Component.isName_iff.1 (plain.names c hc)

theorem components_dotted :
    (Path.mk ('.' :: '/' :: r)).components = .current :: (Path.mk r).components := by
  rw [← (steps_of_names plain.names).2]
  exact components_append (s := ['.']) (List.cons_ne_nil _ _) r

theorem components_rooted : (Path.mk ('/' :: r)).components = .root :: (Path.mk r).components := by
  rw [components_eq, anchor_of_absolute rfl, ← (steps_of_names plain.names).2]
  exact congrArg (Component.root :: ·) (steps_append [] r)

/-- What is looked for is the resolved base of the target with the names behind it. -/
theorem normalize_expanded (form : TargetForm) (directory : Path) :
    Path.normalize (directory.join ⟨form.expanded directory r⟩).components =
      Path.normalize (form.base directory.components) ++ (Path.mk r).components := by
  obtain ⟨relative, steps_eq⟩ := steps_of_names plain.names
  cases form with
  | bare =>
    rw [← plain.normalize_append]
    exact normalize_join directory relative
  | dotted =>
    rw [← plain.normalize_append, TargetForm.base, ← normalize_append_current,
      ← plain.components_dotted]
    exact normalize_join directory rfl
  | fromDirectory =>
    rw [← plain.normalize_append]
    by_cases none : directory.text = []
    · have itself : directory.join ⟨'/' :: r⟩ = ⟨'/' :: r⟩ := if_pos rfl
      rw [TargetForm.base, if_pos (components_eq_nil_iff.2 none), TargetForm.expanded, none,
        List.nil_append, itself, plain.components_rooted, List.singleton_append]
    · have written : (Path.mk (directory.text ++ '/' :: r)).components =
          directory.components ++ (Path.mk r).components := by
        rw [components_append none, steps_eq]
      have head : (Path.mk (directory.text ++ '/' :: r)).isAbsolute = directory.isAbsolute := by
        rw [isAbsolute, isAbsolute, List.head?_append_of_ne_nil _ none]
      rw [TargetForm.base, if_neg (mt components_eq_nil_iff.1 none), TargetForm.expanded]
      cases absolute : directory.isAbsolute with
      | true =>
        rw [if_pos (head?_components_eq_root.2 absolute), join, if_pos (head.trans absolute),
          written]
      | false =>
        have unrooted : directory.components.head? ≠ some .root := by
          rw [Ne, head?_components_eq_root, absolute]
          exact Bool.false_ne_true
        rw [if_neg unrooted, normalize_join directory (head.trans absolute), written,
          List.append_assoc]

end Path.IsPlainName

namespace Workspace

variable {ws : Workspace} {path document : Path} {file source target : FileId}

theorem findByEnd?_congr {p q : Path}
    (h : p.components.filter Component.isName = q.components.filter Component.isName) :
    ws.findByEnd? p = ws.findByEnd? q := by
  have read (p : Path) : ws.findByEnd? p =
      let names := p.components.filter Component.isName
      if names.isEmpty then none
      else (ws.documents.find? fun d =>
        (ws.path? d.id).any fun known => known.endsWith names).map Document.id := rfl
  rw [read, read, h]

/-- Failing the place that is looked for, the names of the target decide. -/
theorem findByEnd?_expanded {r : Text} (plain : Path.IsPlainName r) (form : TargetForm)
    {directory : Path}
    (beside : document.components = directory.components ++ (Path.mk r).components) :
    ws.findByEnd? ⟨form.expanded directory r⟩ = ws.findByEnd? (form.ending document r) := by
  refine findByEnd?_congr ?_
  cases form with
  | bare => rfl
  | dotted =>
    rw [TargetForm.expanded, plain.components_dotted]
    rfl
  | fromDirectory =>
    rw [TargetForm.expanded, TargetForm.ending, beside]
    by_cases none : directory.text = []
    · rw [none, Path.components_eq_nil_iff.2 none, List.nil_append, List.nil_append,
        plain.components_rooted]
      rfl
    · rw [Path.components_append none, (Path.steps_of_names plain.names).2]

/-- Whether the known paths have numbers of their own, all below the next one. -/
structure NumbersPaths (ws : Workspace) : Prop where
  nodup : (ws.paths.map Prod.snd).Nodup
  lt_nextId : ∀ entry ∈ ws.paths, entry.2.index < ws.nextId

namespace NumbersPaths

theorem empty (libraries : LibraryIndex) : (Workspace.empty libraries).NumbersPaths :=
  ⟨List.nodup_nil, nofun⟩

theorem register (h : ws.NumbersPaths) (path : Path) : (ws.register path).2.NumbersPaths := by
  cases found : ws.idOf? path with
  | some file => rwa [register_of_known found]
  | none =>
    rw [register_of_new found]
    constructor
    case nodup =>
      rw [List.map_append, List.nodup_append]
      refine ⟨h.nodup, List.nodup_singleton _, ?_⟩
      rintro file known new here rfl
      obtain ⟨entry, held, rfl⟩ := List.mem_map.1 known
      have below := h.lt_nextId entry held
      rw [List.mem_singleton.1 here] at below
      exact Nat.lt_irrefl _ below
    case lt_nextId =>
      intro entry held
      rcases List.mem_append.1 held with known | new
      · exact Nat.lt_succ_of_lt (h.lt_nextId entry known)
      · rw [List.mem_singleton.1 new]
        exact Nat.lt_succ_self _

theorem store (h : ws.NumbersPaths) (d : Document) : (ws.store d).NumbersPaths := by
  constructor
  · rw [paths_store]
    exact h.nodup
  · rw [paths_store, nextId_store]
    exact h.lt_nextId

theorem remove (h : ws.NumbersPaths) (path : Path) : (ws.remove path).2.NumbersPaths := by
  cases found : ws.idOf? path with
  | none => rwa [remove_of_unknown found]
  | some file =>
    rw [Workspace.remove, found]
    exact ⟨h.nodup.sublist (List.filter_sublist.map _),
      fun entry held => h.lt_nextId entry (List.mem_of_mem_filter held)⟩

theorem change {s : Session} (h : s.workspace.NumbersPaths) (c : Change) :
    (s.change c).workspace.NumbersPaths := by
  cases c with
  | register path => exact h.register path
  | setText path text =>
    show (s.workspace.setText path text).2.NumbersPaths
    rw [setText_eq_store_replacement]
    exact (h.register path).store _
  | insert path source => exact (h.register path).store _
  | remove path =>
    rw [Session.workspace_remove]
    exact h.remove path
  | setOptions options => exact ⟨h.nodup, h.lt_nextId⟩
  | setLibraries provider => exact ⟨h.nodup, h.lt_nextId⟩

theorem after {s : Session} (h : s.workspace.NumbersPaths) (events : List Event) :
    (s.after events).workspace.NumbersPaths :=
  Session.workspace_after (fun _ kept c => change kept c) h events

theorem eq_of_mem (h : ws.NumbersPaths) {entry other : Path × FileId} (held : entry ∈ ws.paths)
    (held' : other ∈ ws.paths) (same : entry.2 = other.2) : entry = other :=
  List.inj_on_of_nodup_map h.nodup held held' same

/-- The path of a document that is found by some components has them. -/
theorem exists_path? (h : ws.NumbersPaths) {components : List Component}
    (found : ws.findByComponents? components = some file) :
    ∃ p, ws.path? file = some p ∧ p.components = components := by
  rw [findByComponents?, Option.filter_eq_some_iff, Option.map_eq_some_iff] at found
  obtain ⟨⟨entry, first, rfl⟩, -⟩ := found
  have held := List.mem_of_find?_eq_some first
  cases known : ws.paths.find? (fun e => e.2 == entry.2) with
  | none => exact absurd (beq_self_eq_true entry.2) (List.find?_eq_none.1 known entry held)
  | some other =>
    have same : other.2 = entry.2 := by simpa using List.find?_some known
    have one := h.eq_of_mem (List.mem_of_find?_eq_some known) held same
    refine ⟨entry.1, ?_, by simpa using List.find?_some first⟩
    rw [path?, known, one]
    rfl

/-- A document is found by no other components than those of its path. -/
theorem components_unique (h : ws.NumbersPaths) {components others : List Component}
    (found : ws.findByComponents? components = some file)
    (found' : ws.findByComponents? others = some file) : components = others := by
  obtain ⟨p, known, same⟩ := h.exists_path? found
  obtain ⟨q, known', same'⟩ := h.exists_path? found'
  rw [known] at known'
  cases known'
  exact same.symm.trans same'

end NumbersPaths

/-- A target for a document beside the importing one reaches it where the directory of both stands
resolved, and otherwise only by the end of its path. -/
theorem resolveResource?_beside (h : ws.NumbersPaths) {directory : List Component} {name r s : Text}
    {form : TargetForm} (importing : ws.lookup? path = some source)
    (imported : ws.lookup? document = some target)
    (place : path.components = directory ++ [.normal name])
    (beside : document.components = directory ++ (Path.mk r).components)
    (plain : Path.IsPlainName r) (spelled : Spells (form.text r) s) :
    ws.resolveResource? source s = some target ↔
      Path.normalize (form.base directory) = directory ∨
        ws.findByComponents? (Path.normalize (form.base directory) ++ (Path.mk r).components) =
            none ∧
          ws.findByEnd? (form.ending document r) = some target := by
  have at_place : ws.findByComponents? path.components = some source := importing
  have at_document : ws.findByComponents? document.components = some target := imported
  obtain ⟨p, known, same⟩ := h.exists_path? at_place
  obtain ⟨d, parent, inner⟩ := Path.exists_parent? (same.trans place)
  have by_end : ws.findByEnd? ⟨form.expanded d r⟩ = ws.findByEnd? (form.ending document r) :=
    findByEnd?_expanded plain form (by rw [beside, inner])
  have resolved : ws.resolveResource? source s =
      (ws.findByComponents?
        (Path.normalize (form.base directory) ++ (Path.mk r).components)).or
        (ws.findByEnd? (form.ending document r)) := by
    simp only [resolveResource?, known, Option.bind_some, parent]
    rw [plain.expand_spelled spelled, plain.normalize_expanded, inner, by_end]
  rw [resolved, Option.or_eq_some_iff]
  refine or_congr_left ?_
  constructor
  · intro found
    have whole := h.components_unique found at_document
    rw [beside] at whole
    exact List.append_cancel_right whole
  · intro stays
    rw [stays, ← beside]
    exact at_document

end Workspace

/-- Whatever has happened before, and in every spelling: a target reaches the document beside the
importing one that it names if the directory stands as it is resolved, from the root where the
target gives it by its variable. Otherwise it reaches that document only where the variable gives
the directory all the same, or no document stands at the place that is looked for and the document
is the first one whose path has the end that is then looked for. -/
theorem Session.resolveResource?_beside_after (provider : LibraryProvider) (events : List Event) :
    let ws := ((start provider).after events).workspace
    ∀ {path document : Path} {source target : FileId} {directory : List Component}
      {name r s : Text} {form : TargetForm},
      ws.lookup? path = some source → ws.lookup? document = some target →
      path.components = directory ++ [.normal name] →
      document.components = directory ++ (Path.mk r).components →
      Path.IsPlainName r → Spells (form.text r) s →
      (Path.normalize directory = directory →
          (form = .fromDirectory → directory.head? = some .root) →
          ws.resolveResource? source s = some target) ∧
        (ws.resolveResource? source s = some target ↔
          Path.normalize (form.base directory) = directory ∨
            ws.findByComponents? (Path.normalize (form.base directory) ++ (Path.mk r).components) =
                none ∧
              ws.findByEnd? (form.ending document r) = some target) := by
  intro ws path document source target directory name r s form importing imported place beside
    plain spelled
  have numbered : ws.NumbersPaths :=
    (Workspace.NumbersPaths.empty provider.index).after (s := start provider) events
  have reaches :=
    Workspace.resolveResource?_beside numbered importing imported place beside plain spelled
  refine ⟨fun stays rooted => reaches.2 (.inl ?_), reaches⟩
  cases form with
  | bare => exact stays
  | dotted => exact stays
  | fromDirectory =>
    have root := rooted rfl
    have filled : directory ≠ [] := by
      rintro rfl
      cases root
    rwa [TargetForm.base, if_neg filled, if_pos root]

/-- Beside a document whose path begins with `.` the plain name leads elsewhere; beside one whose
path begins at the root any spelling leads to the document that is meant. -/
theorem Session.resolveResource?_beside_after_elsewhere :
    let stored (path : String) : Event := .change (.setText ⟨path.toList⟩ [])
    let events := [stored "/p/old/x.resource", stored "./p/a.robot", stored "./p/x.resource",
      stored "/q/a.robot", stored "/q/r/x.resource"]
    let ws := ((start .nothing).after events).workspace
    ws.resolveResource? ⟨1⟩ "x.resource".toList = some ⟨0⟩ ∧
      ws.resolveResource? ⟨1⟩ "x.resource".toList ≠ some ⟨2⟩ ∧
      ws.resolveResource? ⟨3⟩ "$\x7bCURDIR\x7d\\r$\x7b/\x7dx.resource".toList = some ⟨4⟩ := by
  intro stored events ws
  have plain : Path.IsPlainName "x.resource".toList :=
    ⟨by decide +kernel, by decide +kernel, by decide +kernel, by decide +kernel⟩
  have inner : Path.IsPlainName "r/x.resource".toList :=
    ⟨by decide +kernel, by decide +kernel, by decide +kernel, by decide +kernel⟩
  have spelled : Spells (TargetForm.fromDirectory.text "r/x.resource".toList)
      "$\x7bCURDIR\x7d\\r$\x7b/\x7dx.resource".toList :=
    .append_left Workspace.directoryVariable (.separator (w := ['\\']) (by decide)
      (.char (by decide) (.separator (w := Workspace.separatorVariable) (by decide) (.refl _))))
  have importing : ws.lookup? ⟨"./p/a.robot".toList⟩ = some ⟨1⟩ := by decide +kernel
  have imported : ws.lookup? ⟨"./p/x.resource".toList⟩ = some ⟨2⟩ := by decide +kernel
  have place : (Path.mk "./p/a.robot".toList).components =
      [.current, .normal "p".toList] ++ [.normal "a.robot".toList] := by decide +kernel
  have beside : (Path.mk "./p/x.resource".toList).components =
      [.current, .normal "p".toList] ++ (Path.mk "x.resource".toList).components := by
    decide +kernel
  have bare : Spells (TargetForm.bare.text "x.resource".toList) "x.resource".toList := .refl _
  have importing' : ws.lookup? ⟨"/q/a.robot".toList⟩ = some ⟨3⟩ := by decide +kernel
  have imported' : ws.lookup? ⟨"/q/r/x.resource".toList⟩ = some ⟨4⟩ := by decide +kernel
  have place' : (Path.mk "/q/a.robot".toList).components =
      [.root, .normal "q".toList] ++ [.normal "a.robot".toList] := by decide +kernel
  have beside' : (Path.mk "/q/r/x.resource".toList).components =
      [.root, .normal "q".toList] ++ (Path.mk "r/x.resource".toList).components := by
    decide +kernel
  obtain ⟨-, dotted⟩ :=
    resolveResource?_beside_after .nothing events importing imported place beside plain bare
  obtain ⟨rooted, -⟩ :=
    resolveResource?_beside_after .nothing events importing' imported' place' beside' inner spelled
  exact ⟨by decide +kernel, mt dotted.1 (by decide +kernel), rooted (by decide) fun _ => rfl⟩

end RobotAnalysis
