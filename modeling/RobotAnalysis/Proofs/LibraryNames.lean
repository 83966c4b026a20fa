import RobotAnalysis.Library

/-!
# Names of libraries

A catalogue finds a class by two names, and a later class takes over the names that it shares with
an earlier one. What is found is still determined by its full name: a class that is found at all is
also found by its full name, and a module takes the place of a class only where no class has its
name.
-/
namespace RobotAnalysis

namespace LibraryClass

/-- The short name of a class has no further part. -/
theorem notMem_shortName (c : LibraryClass) : '.' ∉ c.shortName := by
  intro dot
  rw [shortName] at dot
  cases parts : Sequence.splitLast? (· == '.') c.name with
  | none =>
    rw [parts] at dot
    have := Sequence.splitLast?_eq_none.1 parts '.' dot
    simp at this
  | some both =>
    obtain ⟨before, last⟩ := both
    rw [parts] at dot
    have := Sequence.splitLast?_eq_some parts '.' dot
    simp at this

theorem shortName_of_notMem {c : LibraryClass} (h : '.' ∉ c.name) : c.shortName = c.name := by
  have whole : Sequence.splitLast? (· == '.') c.name = none := by
    rw [Sequence.splitLast?_eq_none]
    intro a ha
    simpa using ne_of_mem_of_not_mem ha h
  rw [shortName, whole]

end LibraryClass

namespace LibraryIndex

/-- The classes that imports lead to: those found by some name, and modules in the place of classes
that are not found. -/
inductive Offers (index : LibraryIndex) : LibraryClass → Prop
  | ofClass {name : Text} {c : LibraryClass} (found : index.class? name = some c) : Offers index c
  | ofModule {name : Text} {m : LibraryModule} (noClass : index.class? name = none)
      (found : index.module? name = some m) : Offers index (.ofModule m)

/-- Whether offered classes with the same name are the same. -/
def NamesDetermine (index : LibraryIndex) : Prop :=
  ∀ c c', index.Offers c → index.Offers c' → c.name = c'.name → c = c'

theorem namesDetermine_empty : empty.NamesDetermine := by
  intro c c' offered _ _
  cases offered with
  | ofClass found => cases found
  | ofModule _ found => cases found

end LibraryIndex

namespace Catalogue

/-- What holds of every catalogue that has been filled step by step. -/
structure Consistent (k : Catalogue) : Prop where
  key_eq : ∀ {key c}, k.classes.lookup key = some c → key = c.name ∨ key = c.shortName
  name_found : ∀ {key c}, k.classes.lookup key = some c → k.classes.lookup c.name = some c
  module_key_eq : ∀ {key m}, k.modules.lookup key = some m → key = m.name

theorem consistent_empty : empty.Consistent where
  key_eq h := by cases h
  name_found h := by cases h
  module_key_eq h := by cases h

theorem lookup_addClass (k : Catalogue) (c : LibraryClass) (key : Text) :
    (k.addClass c).classes.lookup key =
      if key = c.name ∨ key = c.shortName then some c else k.classes.lookup key := by
  rw [addClass, List.lookup_cons, List.lookup_cons]
  by_cases full : key = c.name
  · simp [full]
  · have hf : (key == c.name) = false := by simpa using full
    rw [hf]
    by_cases short : key = c.shortName
    · simp [short]
    · have hs : (key == c.shortName) = false := by simpa using short
      simp [hs, full, short]

/-- A class that loses one of its two names to a new class was replaced by it or had no other. -/
theorem Consistent.addClass {k : Catalogue} (h : k.Consistent) (c : LibraryClass) :
    (k.addClass c).Consistent where
  key_eq {key d} found := by
    rw [lookup_addClass] at found
    split at found
    · rename_i here
      cases found
      exact here
    · exact h.key_eq found
  name_found {key d} found := by
    rw [lookup_addClass] at found ⊢
    split at found
    · cases found
      simp
    · rename_i elsewhere
      have kept := h.name_found found
      have notFull : d.name ≠ c.name := by
        intro same
        have other : d.shortName = c.shortName := by
          simp only [LibraryClass.shortName, same]
        rcases h.key_eq found with e | e
        · exact elsewhere (.inl (e.trans same))
        · exact elsewhere (.inr (e.trans other))
      have notShort : d.name ≠ c.shortName := by
        intro same
        have single : d.shortName = d.name :=
          LibraryClass.shortName_of_notMem (same ▸ c.notMem_shortName)
        rcases h.key_eq found with e | e
        · exact elsewhere (.inr (e.trans same))
        · exact elsewhere (.inr (e.trans (single.trans same)))
      rw [if_neg (by simp [notFull, notShort])]
      exact kept
  module_key_eq found := h.module_key_eq found

theorem Consistent.addModule {k : Catalogue} (h : k.Consistent) (m : LibraryModule) :
    (k.addModule m).Consistent where
  key_eq found := h.key_eq found
  name_found found := h.name_found found
  module_key_eq {key n} found := by
    rw [Catalogue.addModule, List.lookup_cons] at found
    split at found
    · rename_i same
      cases found
      simpa using same
    · exact h.module_key_eq found

theorem Consistent.add {k : Catalogue} (h : k.Consistent) (d : LibraryDescription) :
    (k.add d).Consistent := by
  cases d with
  | ofClass c => exact h.addClass c
  | ofModule m => exact h.addModule m

theorem consistent_ofDescriptions (descriptions : List LibraryDescription) :
    (ofDescriptions descriptions).Consistent := by
  suffices ∀ k : Catalogue, k.Consistent → (descriptions.foldl Catalogue.add k).Consistent from
    this empty consistent_empty
  induction descriptions with
  | nil => exact fun _ h => h
  | cons d descriptions ih => exact fun k h => ih (k.add d) (h.add d)

/-- A class that is found by any name is found by its full name. -/
theorem Consistent.class?_name {k : Catalogue} (h : k.Consistent) {name : Text} {c : LibraryClass}
    (found : k.class? name = some c) : k.class? c.name = some c := by
  have direct : k.classes.lookup c.name = some c := by
    rw [class?, Option.or_eq_some_iff] at found
    rcases found with found | ⟨-, found⟩
    · exact h.name_found found
    · exact h.name_found found
  rw [class?, direct, Option.some_or]

theorem Consistent.namesDetermine {k : Catalogue} (h : k.Consistent) :
    k.index.NamesDetermine := by
  intro c c' offered offered' same
  cases offered with
  | ofClass found =>
    have byName := h.class?_name found
    cases offered' with
    | ofClass found' =>
      have byName' := h.class?_name found'
      rw [← same, byName] at byName'
      cases byName'
      rfl
    | ofModule noClass found' =>
      have key := h.module_key_eq found'
      rw [same] at byName
      rw [key] at noClass
      exact absurd (byName.symm.trans noClass) (by simp)
  | ofModule noClass found =>
    have key := h.module_key_eq found
    cases offered' with
    | ofClass found' =>
      have byName' := h.class?_name found'
      rw [← same] at byName'
      rw [key] at noClass
      exact absurd (byName'.symm.trans noClass) (by simp)
    | ofModule _ found' =>
      have key' := h.module_key_eq found'
      rw [key.trans (same.trans key'.symm)] at found
      rw [Option.some.inj (found.symm.trans found')]

end Catalogue

namespace LibraryProvider

variable {provider : LibraryProvider}

/-- The classes that a provider offers are determined by their names. -/
theorem namesDetermine_index (provider : LibraryProvider) : provider.index.NamesDetermine := by
  cases provider with
  | nothing => exact LibraryIndex.namesDetermine_empty
  | catalogue descriptions =>
    exact (Catalogue.consistent_ofDescriptions descriptions).namesDetermine

/-- The modules that a provider finds are determined by their names. -/
theorem eq_of_module? {name name' : Text} {m m' : LibraryModule}
    (found : provider.index.module? name = some m) (found' : provider.index.module? name' = some m')
    (same : m.name = m'.name) : m = m' := by
  cases provider with
  | nothing => cases found
  | catalogue descriptions =>
    have consistent := Catalogue.consistent_ofDescriptions descriptions
    have key := consistent.module_key_eq found
    have key' := consistent.module_key_eq found'
    rw [key.trans (same.trans key'.symm)] at found
    exact Option.some.inj (found.symm.trans found')

/-- A function that is found in an offered class is one of its functions. -/
theorem mem_members_of_member? {c : LibraryClass} (offered : provider.index.Offers c)
    {function : Text} {m : LibraryMember}
    (found : provider.index.member? c.name function = some m) : m ∈ c.members := by
  cases provider with
  | nothing => cases found
  | catalogue descriptions =>
    have consistent := Catalogue.consistent_ofDescriptions descriptions
    obtain ⟨c', hc', hm⟩ := Option.bind_eq_some_iff.1 found
    cases offered with
    | ofClass here =>
      have byName := consistent.class?_name here
      rw [Option.some.inj (hc'.symm.trans byName)] at hm
      exact List.mem_of_find?_eq_some hm
    | ofModule noClass here =>
      rw [consistent.module_key_eq here] at noClass
      exact absurd (hc'.symm.trans noClass) (by simp)

end LibraryProvider

end RobotAnalysis
