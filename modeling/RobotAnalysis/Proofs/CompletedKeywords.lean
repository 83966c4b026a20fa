import RobotAnalysis.Completion
import RobotAnalysis.Proofs.CapitalizedNames
import RobotAnalysis.Proofs.DeclaredKeywords

/-!
# Keywords that are offered

What is written for a keyword that is offered calls the keyword and so leads somewhere, unless its
words are capitalized and one of them begins with a letter that is not equal to its uppercase up to
case.
-/
namespace RobotAnalysis

open CaseMap (FoldsAsUpper)
open VariableToken (literals pieces)

/-- Whether the words of a name begin with letters that are equal to their uppercase up to case,
those in variables left out. -/
def Name.KeepsInCapitals (name : Text) : Prop :=
  ∀ c ∈ VariableToken.initials true (pieces name), FoldsAsUpper c

instance (name : Text) : Decidable (Name.KeepsInCapitals name) :=
  List.decidableBAll _ _

namespace Keyword

variable {k : Keyword} {name : Text} {capitalize : Bool}

/-- What is written for a keyword that is offered. -/
def label (k : Keyword) (capitalize : Bool) : Text :=
  if capitalize then Name.capitalize k.name else k.name

theorem label_ofKeyword (capitalize : Bool) (k : Keyword) :
    (CompletionItem.ofKeyword capitalize k).label = k.label capitalize := rfl

/-- A keyword is called by its label, if its words begin with letters that allow for it and its
variables stand on one line each. -/
theorem isCalledBy_label (named : k.name = Name.ofFunction name)
    (oneLine : ∀ v, .token v ∈ pieces k.name → '\n' ∉ v)
    (keeps : capitalize = true → Name.KeepsInCapitals k.name) :
    k.isCalledBy (k.label capitalize) := by
  rw [isCalledBy_iff_fitsCall, label]
  refine .inl ?_
  cases capitalize with
  | false =>
    rw [if_neg Bool.false_ne_true, named, Name.ofFunction_ofFunction, ← named]
    exact VariableToken.fits_pieces oneLine
  | true =>
    have fits : FitsLiterals (literals (pieces k.name)) (Name.capitalize k.name) := by
      have tokens : ∀ v, .token v ∈ pieces k.name → VariableToken.IsToken v ∧ '\n' ∉ v :=
        fun v hv => ⟨VariableToken.isToken_of_mem_piecesAfter hv, oneLine v hv⟩
      have whole := VariableToken.fits_go tokens (keeps rfl)
      rwa [VariableToken.flatMap_text_pieces] at whole
    have first (single : Name.IsIdentifier k.name) : ∀ c ∈ k.name.head?, FoldsAsUpper c := by
      intro c hc
      obtain ⟨rest, whole⟩ := List.head?_eq_some_iff.1 hc
      have noBrace : '{' ∉ k.name := fun brace => absurd (single.2 _ brace) (by decide)
      have visible : CharClass.isBlank c = false :=
        Name.isBlank_of_continuesIdentifier (single.2 c (List.mem_of_head? hc))
      refine keeps rfl c ?_
      rw [VariableToken.pieces_eq_map_char noBrace, whole, List.map_cons, VariableToken.initials,
        visible]
      exact List.mem_append_left _ (List.mem_singleton_self c)
    rw [if_pos rfl]
    rw [named] at first ⊢
    rwa [Name.ofFunction_capitalize name first, ← named]

/-- A keyword without variables in its name is called by its label only then. -/
theorem keepsInCapitals_of_isCalledBy (plain : pieces k.name = k.name.map .char)
    (called : k.isCalledBy (Name.capitalize k.name)) : Name.KeepsInCapitals k.name := by
  have same : Text.bare (Name.capitalize k.name) = Text.bare k.name := by
    rw [isCalledBy_iff_fitsCall, plain, VariableToken.literals_map_char] at called
    rcases called with fits | ⟨q, -, -, front, rest, split, qualified, fits⟩
    · have like := FitsLiterals.singleton_iff.1 fits
      rw [like.bare_eq, Name.bare_ofFunction]
    · -- with a qualifier there would be a dot more
      have like := FitsLiterals.singleton_iff.1 fits
      have dots := Name.count_bare_go true k.name
      rw [← Name.capitalize, ← Name.bare_ofFunction (Name.capitalize k.name), split,
        Text.bare_append, ← like.bare_eq, List.count_append] at dots
      have mark : Run.Covers CharTable.asciiMarks KeywordPattern.separator := by decide
      have counted := List.count_pos_iff.2 ((Name.mem_bare_iff_of_mark mark (by decide)).2
        (separator_mem_of_qualified qualified))
      have same : KeywordPattern.separator = '.' := rfl
      rw [same] at counted
      omega
  rw [Name.KeepsInCapitals, plain]
  exact Name.foldsAsUpper_of_bare_eq same

end Keyword

namespace Workspace

variable {ws : Workspace} {d : Document} {k : Keyword} {item : CompletionItem}

theorem exists_name_of_mem_document (h : k ∈ d.keywords) :
    ∃ name, k.name = Name.ofFunction name := by
  obtain ⟨s, hs, hk⟩ := List.mem_flatMap.1 (Sequence.mem_of_mem_distinctBy h)
  obtain ⟨sec, -, rfl⟩ := List.mem_map.1 hs
  obtain ⟨-, -, c, -, -, rfl⟩ := Findings.exists_declare_of_mem_ofSection hk
  exact ⟨c.text, rfl⟩

/-- What a document sees are keywords with names in words. -/
theorem exists_name_of_mem_keywords (h : k ∈ (Scope.ofDocument ws d).keywords) :
    ∃ name, k.name = Name.ofFunction name := by
  rcases List.mem_append.1 h with own | imported
  · exact exists_name_of_mem_document own
  · obtain ⟨t, -, hk⟩ := List.mem_flatMap.1 imported
    cases t with
    | document file =>
      rw [keywordsOfTarget] at hk
      cases found : ws.document? file with
      | none => simp [found] at hk
      | some e =>
        rw [found] at hk
        exact exists_name_of_mem_document hk
    | library qualifier c =>
      obtain ⟨m, -, rfl⟩ := List.mem_map.1 hk
      exact ⟨m.name, rfl⟩
    | module _ => cases hk

theorem kind_of_mem_wordItems {category : Reserved.Category} {kind : CompletionKind} {tail : Tail}
    (h : item ∈ wordItems category kind tail) : item.kind = kind := by
  obtain ⟨w, -, rfl⟩ := List.mem_map.1 h
  rfl

/-- No reserved word is offered as a keyword. -/
theorem kind_of_mem_wordCandidates {kind : HeadingKind} (h : item ∈ wordCandidates kind) :
    item.kind ≠ .keyword := by
  have ofWord {category : Reserved.Category} {kind : CompletionKind} {tail : Tail}
      (h : item ∈ wordItems category kind tail) (other : kind ≠ .keyword) :
      item.kind ≠ .keyword := kind_of_mem_wordItems h ▸ other
  rw [wordCandidates] at h
  simp only [List.mem_append] at h
  rcases h with ((heading | body) | steps) | settings
  · exact ofWord heading nofun
  · split at body
    · exact (List.mem_append.1 body).elim (ofWord · nofun) (ofWord · nofun)
    · cases body
  · split at steps
    · exact ofWord steps nofun
    · cases steps
  · split at settings
    · exact (List.mem_append.1 settings).elim (ofWord · nofun) (ofWord · nofun)
    · cases settings

/-- Keywords that are offered are in sight. -/
theorem exists_keyword_of_mem_completions {offset : Nat} (offered : item ∈ ws.completions d offset)
    (isKeyword : item.kind = .keyword) :
    ∃ k ∈ (Scope.ofDocument ws d).keywords, item = .ofKeyword ws.options.capitalizeKeywords k := by
  have candidate : item ∈ ws.candidates d offset := by
    rw [completions, fitting] at offered
    split at offered
    · exact offered
    · exact List.mem_of_mem_filter offered
  rcases List.mem_append.1 candidate with word | symbol
  · exact absurd isKeyword (kind_of_mem_wordCandidates word)
  · split at symbol
    · rcases List.mem_append.1 symbol with keyword | variable_
      · split at keyword
        · obtain ⟨k, hk, rfl⟩ := List.mem_map.1 keyword
          exact ⟨k, Sequence.mem_of_mem_distinctBy hk, rfl⟩
        · cases keyword
      · obtain ⟨v, -, rfl⟩ := List.mem_map.1 variable_
        cases isKeyword
    · cases symbol

/-- A text that calls a keyword in sight leads somewhere. -/
theorem isSome_resolveKeyword? (h : k ∈ (Scope.ofDocument ws d).keywords) {text : Text}
    (filled : text.trim ≠ []) (called : k.isCalledBy text) :
    ((Scope.ofDocument ws d).resolveKeyword? text).isSome = true := by
  have trimmed : k.isCalledBy text.trim := by
    rw [Keyword.isCalledBy, Name.ofFunction, Text.trim_trim]
    exact called
  have found : ((Scope.ofDocument ws d).findKeyword? text.trim).isSome = true :=
    List.find?_isSome.2 ⟨k, h, trimmed⟩
  rw [Scope.resolveKeyword?, if_neg (by simpa using filled), Option.isSome_or, Option.isSome_or,
    found]
  rfl

/-- What is written for a keyword that is offered calls the keyword if its variables are in one line
each and, where its words are capitalized, they begin with letters that are equal to their uppercase
up to case. A keyword without variables in its name is called only then. What calls it and is not
empty leads somewhere. -/
theorem label_of_mem_completions (ws : Workspace) (d : Document) (offset : Nat)
    {item : CompletionItem} (offered : item ∈ ws.completions d offset)
    (isKeyword : item.kind = .keyword) :
    ∃ k ∈ (Scope.ofDocument ws d).keywords,
      item.label = k.label ws.options.capitalizeKeywords ∧
      ((∀ v ∈ VariableToken.all k.name, '\n' ∉ v.text) →
        (ws.options.capitalizeKeywords = true → Name.KeepsInCapitals k.name) →
          k.isCalledBy item.label) ∧
      (VariableToken.all k.name = [] → (k.isCalledBy item.label ↔
        (ws.options.capitalizeKeywords = true → Name.KeepsInCapitals k.name))) ∧
      (k.isCalledBy item.label → item.label ≠ [] →
        ((Scope.ofDocument ws d).resolveKeyword? item.label).isSome = true) := by
  obtain ⟨k, hk, rfl⟩ := exists_keyword_of_mem_completions offered isKeyword
  obtain ⟨name, named⟩ := exists_name_of_mem_keywords hk
  rw [Keyword.label_ofKeyword]
  have trimmed : (k.label ws.options.capitalizeKeywords).trim =
      k.label ws.options.capitalizeKeywords := by
    have own : k.name.trim = k.name := by rw [named, Name.trim_ofFunction]
    rw [Keyword.label]
    split
    · exact Name.capitalize.trim_eq_self own
    · exact own
  have calls (oneLine : ∀ v ∈ VariableToken.all k.name, '\n' ∉ v.text) :
      (ws.options.capitalizeKeywords = true → Name.KeepsInCapitals k.name) →
        k.isCalledBy (k.label ws.options.capitalizeKeywords) := by
    refine Keyword.isCalledBy_label named fun v hv => ?_
    obtain ⟨x, hx, rfl⟩ := VariableToken.exists_mem_all hv
    exact oneLine x hx
  refine ⟨k, hk, rfl, calls, fun plain => ⟨fun called capital => ?_, calls (by simp [plain])⟩,
    fun called filled => isSome_resolveKeyword? hk (by rwa [trimmed]) called⟩
  rw [Keyword.label, if_pos capital] at called
  exact Keyword.keepsInCapitals_of_isCalledBy (VariableToken.pieces_eq_map_char_of_all plain) called

/-- A sharp s has two letters for its capital, and neither is equal to it. -/
theorem label_of_mem_completions_sharpS :
    let text := "*** Keywords ***\nßtart up\n    \n".toList
    let d := Document.ofSource ⟨0⟩ (.ofText text)
    let ws : Workspace := ⟨[(⟨"/a.robot".toList⟩, ⟨0⟩)], [d], 1, .empty, {}⟩
    let k := Keyword.declare none "ßtart up".toList false (.document ⟨0⟩ ⟨17, 9⟩)
    let item := CompletionItem.ofKeyword true k
    item ∈ ws.completions d 30 ∧ item.kind = .keyword ∧ item.label = "SStart Up".toList ∧
      (Scope.ofDocument ws d).keywords = [k] ∧ ¬ k.isCalledBy item.label ∧
      (Scope.ofDocument ws d).resolveKeyword? item.label = none := by
  intro text d ws k item
  have noImports : ws.resolveAll d d.imports = [] := by decide +kernel
  have listed : ws.visibleImports d = [] := by
    change DepthFirst.collect ImportTarget.identity ws.documentIdentities ws.importsOfTarget []
      (ws.resolveAll d d.imports) = _
    simp [noImports, DepthFirst.collect]
  have own : d.keywords = [k] := by decide +kernel
  have scope : Scope.ofDocument ws d = ⟨⟨0⟩, [k], [], [], ws.visibleVariables d, .empty⟩ := by
    rw [Scope.ofDocument, listed, own]
    rfl
  have only : (Scope.ofDocument ws d).keywords = [k] := by rw [scope]; rfl
  have offered : item ∈ ws.completions d 30 := by decide +kernel
  have lost : ¬ (ws.options.capitalizeKeywords = true → Name.KeepsInCapitals k.name) := by
    decide +kernel
  obtain ⟨l, mem, -, -, plain, -⟩ := label_of_mem_completions ws d 30 offered rfl
  rw [only, List.mem_singleton] at mem
  subst mem
  refine ⟨offered, rfl, by decide +kernel, only, mt (plain (by decide +kernel)).1 lost, ?_⟩
  rw [scope]
  decide +kernel

end Workspace

end RobotAnalysis
