import RobotAnalysis.Proofs.CallReferences
import RobotAnalysis.Proofs.CommentedImport
import RobotAnalysis.Proofs.ImportUses
import RobotAnalysis.Proofs.LocalVariables
import RobotAnalysis.Proofs.OmittedNode
import RobotAnalysis.Proofs.UnrelatedEdits

/-!
# Documents without an unused import

An import is reported as unused when nothing that the document counts leads into the document it
names. Turned into a comment, it takes that document out of sight, and where the imports of imported
documents are in sight also what is reached only by way of it. So whatever led elsewhere still leads
there, and only what led to a target below the import may change.
-/
namespace RobotAnalysis

open DepthFirst (Visits Omits AlikeWithout MeetsFrom)

namespace Workspace

variable {ws ws' : Workspace} {d d' : Document} {file : FileId} {t u : ImportTarget}

/-- What a walk through the targets in sight follows. -/
def followed (ws : Workspace) : ImportTarget → List ImportTarget :=
  if ws.options.allowTransitiveImports then ws.importsOfTarget else fun _ => []

theorem visibleImports_visits : Visits ImportTarget.identity ws.followed
    ws.builtInLibrary?.toList (ws.resolveAll d d.imports) (ws.visibleImports d) := by
  rw [followed, visibleImports, importsOf]
  split
  · exact allImports_visits
  · exact directImports_visits

theorem importsOfTarget_congr {u v : ImportTarget} (same : u.identity = v.identity) :
    ws.importsOfTarget u = ws.importsOfTarget v := by
  cases u <;> cases v <;> first | rfl | cases same <;> rfl

theorem followed_congr (u v : ImportTarget) (same : u.identity = v.identity) :
    ws.followed u = ws.followed v := by
  rw [followed]
  split
  · exact importsOfTarget_congr same
  · rfl

/-- Whether a symbol belongs to a target, other than the document itself, that the walk through the
targets in sight meets at an import of `t` or below it. -/
def SeesFrom {σ : Type} (ws : Workspace) (d : Document) (t : FileId)
    (symbolsOf : ImportTarget → List σ) (a : σ) : Prop :=
  ∃ u, MeetsFrom ImportTarget.identity ws.followed (.document t) (ws.visibleImports d) u ∧
    u ≠ .document d.id ∧ a ∈ symbolsOf u

/-- Two workspaces that differ only in one document, which in the second one lacks an import. -/
structure LacksImport (ws : Workspace) (d : Document) (t : FileId) (ws' : Workspace)
    (d' : Document) : Prop extends SameLayout ws ws' where
  found : ws.document? d.id = some d
  found' : ws'.document? d.id = some d'
  others : ∀ file, file ≠ d.id → ws'.document? file = ws.document? file
  id : d'.id = d.id
  keywords : d'.keywords = d.keywords
  vars : d'.vars = d.vars
  imports : ∃ before behind, ws.resolveAll d d.imports = before ++ .document t :: behind ∧
    ws.resolveAll d d'.imports = before ++ behind

namespace LacksImport

variable {t : FileId} (h : ws.LacksImport d t ws' d')

include h

theorem keywordsOfTarget : ws'.keywordsOfTarget = ws.keywordsOfTarget := by
  funext u
  cases u with
  | library _ _ | module _ => rfl
  | document file =>
    rw [Workspace.keywordsOfTarget, Workspace.keywordsOfTarget]
    by_cases same : file = d.id
    · rw [same, h.found, h.found', Option.map_some, Option.map_some, h.keywords]
    · rw [h.others file same]

theorem variablesOfTarget : ws'.variablesOfTarget = ws.variablesOfTarget := by
  funext u
  cases u with
  | library _ _ | module _ => rfl
  | document file =>
    rw [Workspace.variablesOfTarget, Workspace.variablesOfTarget]
    by_cases same : file = d.id
    · rw [same, h.found, h.found', Option.map_some, Option.map_some, h.vars]
    · rw [h.others file same]

/-- Below every target there is what was there before, apart from the import left out. -/
theorem omits_importsOfTarget (u : ImportTarget) :
    Omits ImportTarget.identity (.document t) (ws.importsOfTarget u) (ws'.importsOfTarget u) := by
  cases u with
  | library _ _ | module _ => exact .same _
  | document file =>
    by_cases same : file = d.id
    · obtain ⟨before, behind, old, new⟩ := h.imports
      rw [same, importsOfTarget_of_document? h.found, importsOfTarget_of_document? h.found',
        h.toSameLayout.directImports, directImports, directImports, old, resolveAll, h.id,
        ← resolveAll, new, ← List.append_assoc, ← List.append_assoc]
      exact Omits.distinctBy _ _
    · have kept : ws'.importsOfTarget (.document file) = ws.importsOfTarget (.document file) := by
        simp only [importsOfTarget, h.others file same, funext h.toSameLayout.directImports]
      rw [kept]
      exact .same _

theorem omits_followed (u : ImportTarget) :
    Omits ImportTarget.identity (.document t) (ws.followed u) (ws'.followed u) := by
  rw [followed, followed, h.options]
  split
  · exact h.omits_importsOfTarget u
  · exact .same _

/-- The targets in sight are walked through in the same way, apart from the import left out. -/
theorem alike : AlikeWithout ImportTarget.identity ws.followed (.document t)
    (ws.visibleImports d) (ws'.visibleImports d') := by
  obtain ⟨before, behind, old, new⟩ := h.imports
  have walk := ws.visibleImports_visits (d := d)
  have walk' := ws'.visibleImports_visits (d := d')
  have new' : ws'.resolveAll d' d'.imports = before ++ behind := by
    rw [h.toSameLayout.resolveAll, resolveAll, h.id, ← resolveAll, new]
  rw [old] at walk
  rw [new', h.toSameLayout.builtInLibrary?] at walk'
  have unmet : (ImportTarget.document t).identity ∉
      ws.builtInLibrary?.toList.map ImportTarget.identity := by
    intro met
    obtain ⟨u, hu, same⟩ := List.mem_map.1 met
    rw [eq_document_of_identity same] at hu
    exact builtInLibrary?_ne_document (Option.mem_toList.1 hu)
  refine walk.alikeWithout h.omits_followed followed_congr nodup_builtInLibrary? unmet ?_ walk'
  exact (Omits.here rfl).append_left before

end LacksImport

end Workspace

/-- What imports can lead to: documents, and what a provider has descriptions of. -/
inductive LibraryProvider.Gives (provider : LibraryProvider) : ImportTarget → Prop
  | document (file : FileId) : Gives provider (.document file)
  | library (qualifier : Text) {c : LibraryClass} (offered : provider.index.Offers c) :
      Gives provider (.library qualifier c)
  | module {name : Text} {m : LibraryModule} (found : provider.index.module? name = some m) :
      Gives provider (.module m)

/-- What imports can lead to is determined by what it is told apart by. -/
theorem LibraryProvider.Gives.eq {provider : LibraryProvider} {t u : ImportTarget}
    (ht : provider.Gives t) (hu : provider.Gives u) (same : t.identity = u.identity) : t = u := by
  cases ht with
  | document file => exact (Workspace.eq_document_of_identity same.symm).symm
  | library qualifier offered =>
    cases hu with
    | document _ | module _ => cases same
    | library qualifier' offered' =>
      obtain ⟨rfl, names⟩ := TargetIdentity.library.inj same
      rw [provider.namesDetermine_index _ _ offered offered' names]
  | module found =>
    cases hu with
    | document _ | library _ _ => cases same
    | module found' => rw [eq_of_module? found found' (TargetIdentity.module.inj same)]

namespace Scope

/-- The function of a library that a text names, where the library is the target of an import. -/
def memberOf? (index : LibraryIndex) (text : Text) (t : ImportTarget) : Option Keyword :=
  let (qualifier?, name) := splitQualified text
  ((library? t).filter fun l => qualifier?.all fun q => Text.sameAscii l.1 q).bind fun l =>
    (index.member? l.2.name (Name.toFunction name)).map (l.2.keywordOf l.1)

variable {ws : Workspace} {d : Document}

theorem libraryMember?_ofDocument (text : Text) : (ofDocument ws d).libraryMember? text =
    (ws.visibleImports d).findSome? (memberOf? ws.libraries text) := by
  simp only [libraryMember?, ofDocument]
  induction ws.visibleImports d with
  | nil => rfl
  | cons t ts ih =>
    rw [List.findSome?_cons, ← ih, memberOf?]
    cases found : library? t with
    | none => simp [found]
    | some l =>
      cases suits : (splitQualified text).1.all fun q => Text.sameAscii l.1 q with
      | false => simp [found, suits, Option.filter]
      | true => simp [found, suits, Option.filter, List.findSome?_cons]

theorem findKeyword?_ofDocument (text : Text) : (ofDocument ws d).findKeyword? text =
    (d.keywords.find? fun k => k.isCalledBy text).or ((ws.visibleImports d).findSome? fun t =>
      (ws.keywordsOfTarget t).find? fun k => k.isCalledBy text) := by
  rw [findKeyword?, keywords, List.find?_append]
  exact congrArg _ List.find?_flatMap

end Scope

namespace Workspace

variable {ws ws' : Workspace} {d d' : Document} {t u : ImportTarget}

theorem gives_of_mem_importsOf {provider : LibraryProvider} {transitive : Bool}
    (libraries : ws.libraries = provider.index) (h : t ∈ ws.importsOf d transitive) :
    provider.Gives t := by
  cases t with
  | document file => exact .document file
  | library qualifier c => exact .library qualifier (libraries ▸ offers_of_mem_importsOf h)
  | module m =>
    obtain ⟨name, found⟩ := exists_module?_of_mem_importsOf h
    exact .module (libraries ▸ found)

theorem find?_visibleVariables_eq {p : Variable → Bool}
    (congr : ∀ v w : Variable, v.identity = w.identity → p v = p w) :
    (ws.visibleVariables d).find? p =
      ((ws.builtInVariables.find? p).or (d.vars.find? p)).or
        ((ws.visibleImports d).findSome? fun t => (ws.variablesOfTarget t).find? p) := by
  rw [visibleVariables, Variable.distinct, Sequence.find?_distinctBy congr, List.find?_append,
    List.find?_append]
  exact congrArg _ List.find?_flatMap

end Workspace

/-- Whether what is found is what was found before, unless that was an exception. -/
def KeepsUnless {α : Type} (exception : α → Prop) (old new : Option α) : Prop :=
  new = old ∨ ∃ a, old = some a ∧ exception a

namespace KeepsUnless

variable {α : Type} {exception : α → Prop} {old new old' new' : Option α}

theorem refl (old : Option α) : KeepsUnless exception old old := .inl rfl

theorem or (h : KeepsUnless exception old new) (h' : KeepsUnless exception old' new') :
    KeepsUnless exception (old.or old') (new.or new') := by
  cases old with
  | some a =>
    rcases h with rfl | ⟨b, same, isException⟩
    · exact .inl rfl
    · exact .inr ⟨b, by simpa using same, isException⟩
  | none =>
    rcases h with rfl | ⟨b, same, -⟩
    · simpa using h'
    · cases same

end KeepsUnless

namespace Workspace.LacksImport

variable {ws ws' : Workspace} {d d' : Document} {t : FileId} {provider : LibraryProvider}
  (h : ws.LacksImport d t ws' d') (libraries : ws.libraries = provider.index)

include h libraries

/-- A search through the targets in sight. -/
theorem findSome? {α : Type} (g : ImportTarget → Option α) :
    KeepsUnless (fun a => ∃ u, MeetsFrom ImportTarget.identity ws.followed (.document t)
        (ws.visibleImports d) u ∧ g u = some a)
      ((ws.visibleImports d).findSome? g) ((ws'.visibleImports d').findSome? g) := by
  have given : ∀ u ∈ ws.visibleImports d, provider.Gives u :=
    fun u hu => gives_of_mem_importsOf libraries hu
  have given' : ∀ u ∈ ws'.visibleImports d', provider.Gives u :=
    fun u hu => gives_of_mem_importsOf (h.libraries.trans libraries) hu
  rcases h.alike.findSome?_eq_or given given' fun a b ha hb same => by rw [ha.eq hb same] with
    same | ⟨u, a, below, here, found⟩
  · exact .inl same
  · exact .inr ⟨a, found, u, below, here⟩

/-- A search among the symbols of a document itself and then among those of the targets in sight. -/
theorem find?_symbols {σ : Type} (symbolsOf : ImportTarget → List σ) (p : σ → Bool) :
    let own := (symbolsOf (.document d.id)).find? p
    KeepsUnless (ws.SeesFrom d t symbolsOf)
      (own.or ((ws.visibleImports d).findSome? fun u => (symbolsOf u).find? p))
      (own.or ((ws'.visibleImports d').findSome? fun u => (symbolsOf u).find? p)) := by
  intro own
  cases found : own with
  | some a => exact .refl _
  | none =>
    rw [Option.none_or, Option.none_or]
    rcases h.findSome? libraries fun u => (symbolsOf u).find? p with same | ⟨a, old, u, below, here⟩
    · exact .inl same
    · refine .inr ⟨a, old, u, below, ?_, List.mem_of_find?_eq_some here⟩
      rintro rfl
      cases found.symm.trans here

theorem findKeyword? (text : Text) :
    KeepsUnless (ws.SeesFrom d t ws.keywordsOfTarget)
      ((Scope.ofDocument ws d).findKeyword? text)
      ((Scope.ofDocument ws' d').findKeyword? text) := by
  have own : ws.keywordsOfTarget (.document d.id) = d.keywords := by
    simp [Workspace.keywordsOfTarget, h.found]
  rw [Scope.findKeyword?_ofDocument, Scope.findKeyword?_ofDocument, h.keywords, h.keywordsOfTarget,
    ← own]
  exact h.find?_symbols libraries ws.keywordsOfTarget fun k => k.isCalledBy text

theorem libraryMember? (text : Text) :
    KeepsUnless (ws.SeesFrom d t ws.keywordsOfTarget)
      ((Scope.ofDocument ws d).libraryMember? text)
      ((Scope.ofDocument ws' d').libraryMember? text) := by
  rw [Scope.libraryMember?_ofDocument, Scope.libraryMember?_ofDocument, h.libraries]
  rcases h.findSome? libraries (Scope.memberOf? ws.libraries text) with
    same | ⟨k, old, u, below, here⟩
  · exact .inl same
  · refine .inr ⟨k, old, u, below, ?_⟩
    obtain ⟨l, library, member⟩ := Option.bind_eq_some_iff.1 here
    obtain ⟨m, found, rfl⟩ := Option.map_eq_some_iff.1 member
    have library := (Option.filter_eq_some_iff.1 library).1
    cases u with
    | document _ | module _ => cases library
    | library qualifier c =>
      cases library
      have offered := libraries ▸ offers_of_mem_importsOf below.mem
      have declared := LibraryProvider.mem_members_of_member? offered (libraries ▸ found)
      exact ⟨by simp, List.mem_map.2 ⟨m, declared, rfl⟩⟩

/-- A call leads where it led, unless that was seen from the import on. -/
theorem resolveKeyword? (text : Text) :
    KeepsUnless (ws.SeesFrom d t ws.keywordsOfTarget)
      ((Scope.ofDocument ws d).resolveKeyword? text)
      ((Scope.ofDocument ws' d').resolveKeyword? text) := by
  rw [Scope.resolveKeyword?, Scope.resolveKeyword?]
  split
  · exact .refl _
  · refine ((h.findKeyword? libraries _).or ?_).or (h.libraryMember? libraries _)
    cases Reserved.withoutGherkin? text.trim with
    | none => exact .refl _
    | some rest => exact h.findKeyword? libraries rest

/-- A usage leads where it led, unless that was seen from the import on. -/
theorem resolveVariable? (usage : Text) (offset : Nat) :
    KeepsUnless (ws.SeesFrom d t ws.variablesOfTarget)
      ((Scope.ofDocument ws d).resolveVariable? usage offset)
      ((Scope.ofDocument ws' d').resolveVariable? usage offset) := by
  have found' : ws'.document? d'.id = some d' := h.id ▸ h.found'
  have sameLocal : d'.findLocal? usage offset = d.findLocal? usage offset := by
    have sameUse : d'.isLocalUse usage offset = d.isLocalUse usage offset := by
      funext v
      rw [Document.isLocalUse, Document.isLocalUse, h.id]
    rw [← Document.find?_vars, ← Document.find?_vars, h.vars, sameUse]
  have own : ws.variablesOfTarget (.document d.id) = d.vars := by
    simp [Workspace.variablesOfTarget, h.found]
  have sameBuiltIn : ws'.builtInVariables = ws.builtInVariables := congrArg BuiltIn.vars h.libraries
  have byIdentity (v w : Variable) (same : v.identity = w.identity) :
      (v.isVisibleAt d.id offset && v.isUsedBy usage) =
        (w.isVisibleAt d.id offset && w.isUsedBy usage) := by
    obtain ⟨text, visibility⟩ := Prod.mk.inj same
    simp only [Variable.isVisibleAt, Variable.isUsedBy, Variable.pattern, text, visibility]
  rw [resolveVariable?_eq h.found, resolveVariable?_eq found', sameLocal, h.id,
    find?_visibleVariables_eq byIdentity, find?_visibleVariables_eq byIdentity, h.vars,
    sameBuiltIn, h.variablesOfTarget, ← own, Option.or_assoc, Option.or_assoc]
  exact (KeepsUnless.refl _).or ((KeepsUnless.refl _).or (h.find?_symbols libraries _ _))

end Workspace.LacksImport

end RobotAnalysis
