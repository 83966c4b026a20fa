import Mathlib.Data.List.Induction
import RobotAnalysis.BuiltIn

/-!
# The first lookup decides

The cache of the libraries can be asked with other libraries each time, and it does not notice: what
was looked up first since it was last emptied is what it answers from then on. It has one entry for
the reserved variables, one for the library that is imported everywhere, and one for the keywords of
every class under every qualifier. Asking for the keywords of the library that is imported
everywhere goes by the entry of that library to the entry of its keywords, which asking for those of
a class may have filled before.
-/
namespace RobotAnalysis

/-- What can be asked of the cache of the libraries, and that it can be emptied. -/
inductive LibraryCall
  | vars (index : LibraryIndex)
  | library (index : LibraryIndex)
  | builtInKeywords (index : LibraryIndex)
  | classKeywords (qualifier : Text) (c : LibraryClass)
  | reset

/-- What is answered to a call. -/
inductive LibraryAnswer
  | vars (found : List Variable)
  | library (found : Option ImportTarget)
  | keywords (found : List Keyword)
  | emptied
  deriving DecidableEq, Repr

namespace ProjectCache

def perform (p : ProjectCache) : LibraryCall → LibraryAnswer × ProjectCache
  | .vars index => (p.builtInVariables index).map .vars id
  | .library index => (p.builtInLibrary index).map .library id
  | .builtInKeywords index => (p.builtInKeywords index).map .keywords id
  | .classKeywords qualifier c => (p.classKeywords qualifier c).map .keywords id
  | .reset => (.emptied, .empty)

/-- The cache after some calls, the first one first. -/
def after (p : ProjectCache) (calls : List LibraryCall) : ProjectCache :=
  calls.foldl (fun p call => (p.perform call).2) p

end ProjectCache

namespace LibraryCall

def isReset : LibraryCall → Bool
  | .reset => true
  | _ => false

/-- The calls since the cache was last emptied. -/
def sinceReset (calls : List LibraryCall) : List LibraryCall :=
  (calls.reverse.takeWhile fun call => !call.isReset).reverse

/-- The reserved variables that a call looks up. -/
def foundVars? : LibraryCall → Option (List Variable)
  | .vars index => some (BuiltIn.vars index)
  | _ => none

/-- The library imported everywhere that a call looks up, to answer it or its keywords. -/
def foundLibrary? : LibraryCall → Option (Option ImportTarget)
  | .library index | .builtInKeywords index => some (BuiltIn.library? index)
  | _ => none

/-- The class whose keywords a call asks for, with its qualifier, given the library that is imported
everywhere. -/
def askedClass? (library : Option ImportTarget) : LibraryCall → Option (Text × LibraryClass)
  | .classKeywords qualifier c => some (qualifier, c)
  | .builtInKeywords _ =>
    match library with
    | some (.library qualifier c) => some (qualifier, c)
    | _ => none
  | _ => none

/-- The reserved variables as the first of some calls finds them. -/
def firstVars? (calls : List LibraryCall) : Option (List Variable) := calls.findSome? foundVars?

/-- The library that is imported everywhere as the first of some calls finds it. -/
def firstLibrary? (calls : List LibraryCall) : Option (Option ImportTarget) :=
  calls.findSome? foundLibrary?

/-- The class of some name that the first of some calls asks for under some qualifier. -/
def firstClass? (calls : List LibraryCall) (qualifier name : Text) : Option (Text × LibraryClass) :=
  calls.findSome? fun call =>
    (call.askedClass? (firstLibrary? calls).join).filter fun asked =>
      decide ((asked.1, asked.2.name) = (qualifier, name))

/-- The keywords of the class that was asked for first among all of one name under one qualifier,
the given class coming last. -/
def keywordsAfter (calls : List LibraryCall) (qualifier : Text) (c : LibraryClass) : List Keyword :=
  let asked := (firstClass? calls qualifier c.name).getD (qualifier, c)
  asked.2.declaredKeywords asked.1

/-- The library that is imported everywhere as it was found first, the given libraries coming
last. -/
def libraryAfter (calls : List LibraryCall) (index : LibraryIndex) : Option ImportTarget :=
  (firstLibrary? calls).getD (BuiltIn.library? index)

/-- The answer to a call after some others since the cache was last emptied: that of the first call
for the same entry, read anew. -/
def answerAfter (calls : List LibraryCall) : LibraryCall → LibraryAnswer
  | .vars index => .vars ((firstVars? calls).getD (BuiltIn.vars index))
  | .library index => .library (libraryAfter calls index)
  | .builtInKeywords index =>
    match libraryAfter calls index with
    | some (.library qualifier c) => .keywords (keywordsAfter calls qualifier c)
    | _ => .keywords []
  | .classKeywords qualifier c => .keywords (keywordsAfter calls qualifier c)
  | .reset => .emptied

variable {calls : List LibraryCall} {call : LibraryCall}

theorem sinceReset_append_reset (calls : List LibraryCall) :
    sinceReset (calls ++ [.reset]) = [] := by
  simp [sinceReset, isReset]

theorem sinceReset_append (other : call.isReset = false) (calls : List LibraryCall) :
    sinceReset (calls ++ [call]) = sinceReset calls ++ [call] := by
  simp [sinceReset, other]

theorem firstVars?_append (calls : List LibraryCall) (call : LibraryCall) :
    firstVars? (calls ++ [call]) = (firstVars? calls).or call.foundVars? := by
  rw [firstVars?, List.findSome?_append, List.findSome?_singleton, firstVars?]

theorem firstLibrary?_append (calls : List LibraryCall) (call : LibraryCall) :
    firstLibrary? (calls ++ [call]) = (firstLibrary? calls).or call.foundLibrary? := by
  rw [firstLibrary?, List.findSome?_append, List.findSome?_singleton, firstLibrary?]

/-- A call that does not look up the library asks for the same class whatever the library is. -/
theorem askedClass?_congr (h : call.foundLibrary? = none) (library other : Option ImportTarget) :
    call.askedClass? library = call.askedClass? other := by
  cases call with
  | builtInKeywords index => cases h
  | vars _ | library _ | classKeywords _ _ | reset => rfl

/-- A further call comes after the others. The library does not change for them: it is found by the
first call that depends on it, or before that. -/
theorem firstClass?_append (calls : List LibraryCall) (call : LibraryCall) (qualifier name : Text) :
    firstClass? (calls ++ [call]) qualifier name = (firstClass? calls qualifier name).or
      ((call.askedClass? ((firstLibrary? calls).or call.foundLibrary?).join).filter fun asked =>
        decide ((asked.1, asked.2.name) = (qualifier, name))) := by
  rw [firstClass?, List.findSome?_append, List.findSome?_singleton, firstLibrary?_append]
  congr 1
  cases found : firstLibrary? calls with
  | some library => rw [firstClass?, found, Option.some_or]
  | none =>
    have alone : ∀ c ∈ calls, c.foundLibrary? = none := List.findSome?_eq_none_iff.1 found
    rw [firstClass?]
    generalize (firstLibrary? calls).join = library
    clear found
    induction calls with
    | nil => rfl
    | cons c calls ih =>
      obtain ⟨first, rest⟩ := List.forall_mem_cons.1 alone
      rw [List.findSome?_cons, List.findSome?_cons, askedClass?_congr first _ library, ih rest]

/-- A call that asks for no class leaves the first classes as they are. -/
theorem firstClass?_append_of_none (h : ∀ library, call.askedClass? library = none)
    (calls : List LibraryCall) (qualifier name : Text) :
    firstClass? (calls ++ [call]) qualifier name = firstClass? calls qualifier name := by
  rw [firstClass?_append, h, Option.filter_none, Option.or_none]

/-- Whether some calls find the same first as others. -/
structure FindSame (calls more : List LibraryCall) : Prop where
  vars : firstVars? more = firstVars? calls
  library : firstLibrary? more = firstLibrary? calls
  classes : firstClass? more = firstClass? calls

/-- The class of the library that is imported everywhere is the one that the library has as it was
found first. -/
theorem firstClass?_append_builtInKeywords (calls : List LibraryCall) (index : LibraryIndex)
    (qualifier name : Text) : firstClass? (calls ++ [.builtInKeywords index]) qualifier name =
      (firstClass? calls qualifier name).or
        (((LibraryCall.builtInKeywords index).askedClass? (libraryAfter calls index)).filter
          fun asked => decide ((asked.1, asked.2.name) = (qualifier, name))) := by
  have library : (firstLibrary? calls).or (some (BuiltIn.library? index)) =
      some (libraryAfter calls index) := by
    rw [libraryAfter]
    cases firstLibrary? calls <;> rfl
  rw [firstClass?_append, foundLibrary?, library, Option.join_some]

/-- Where the library has no class, its keywords are asked for by asking for the library. -/
theorem findSame_builtInKeywords_of_none (index : LibraryIndex)
    (none : (LibraryCall.builtInKeywords index).askedClass? (libraryAfter calls index) = none) :
    FindSame (calls ++ [.library index]) (calls ++ [.builtInKeywords index]) where
  vars := by
    rw [firstVars?_append, firstVars?_append]
    rfl
  library := by
    rw [firstLibrary?_append, firstLibrary?_append]
    rfl
  classes := by
    funext qualifier name
    rw [firstClass?_append_builtInKeywords, none, Option.filter_none, Option.or_none,
      firstClass?_append_of_none fun _ => rfl]

/-- Otherwise they are asked for by asking for the library and then for the keywords of its
class. -/
theorem findSame_builtInKeywords_of_class {index : LibraryIndex} {qualifier : Text}
    {c : LibraryClass} (library : libraryAfter calls index = some (.library qualifier c)) :
    FindSame (calls ++ [.library index] ++ [.classKeywords qualifier c])
      (calls ++ [.builtInKeywords index]) where
  vars := by
    rw [firstVars?_append, firstVars?_append (calls ++ [LibraryCall.library index]),
      firstVars?_append]
    exact Option.or_none.symm
  library := by
    rw [firstLibrary?_append, firstLibrary?_append (calls ++ [LibraryCall.library index]),
      firstLibrary?_append]
    exact Option.or_none.symm
  classes := by
    funext other name
    rw [firstClass?_append_builtInKeywords, library,
      firstClass?_append (calls ++ [LibraryCall.library index]),
      firstClass?_append_of_none fun _ => rfl]
    rfl

end LibraryCall

namespace ProjectCache

open LibraryCall

variable {p : ProjectCache} {calls more : List LibraryCall}

theorem builtInVariables_eq (p : ProjectCache) (index : LibraryIndex) :
    let found := p.vars?.getD (BuiltIn.vars index)
    p.builtInVariables index = (found, { p with vars? := some found }) := by
  obtain ⟨library, reserved, keywords⟩ := p
  cases reserved <;> rfl

theorem builtInLibrary_eq (p : ProjectCache) (index : LibraryIndex) :
    let found := p.library?.getD (BuiltIn.library? index)
    p.builtInLibrary index = (found, { p with library? := some found }) := by
  obtain ⟨library, reserved, keywords⟩ := p
  cases library <;> rfl

/-- Whether a cache holds what was looked up first by some calls. -/
structure Holds (p : ProjectCache) (calls : List LibraryCall) : Prop where
  reserved : p.vars? = firstVars? calls
  library : p.library? = firstLibrary? calls
  keywords : ∀ qualifier name, p.keywords.lookup (qualifier, name) =
    (firstClass? calls qualifier name).map fun asked => asked.2.declaredKeywords asked.1

namespace Holds

theorem empty : Holds .empty [] := ⟨rfl, rfl, fun _ _ => rfl⟩

/-- Calls that find the same first leave the same cache. -/
theorem congr (h : p.Holds calls) (same : FindSame calls more) : p.Holds more :=
  ⟨same.vars ▸ h.reserved, same.library ▸ h.library, same.classes ▸ h.keywords⟩

theorem builtInVariables (h : p.Holds calls) (index : LibraryIndex) :
    (p.builtInVariables index).1 = (firstVars? calls).getD (BuiltIn.vars index) ∧
      (p.builtInVariables index).2.Holds (calls ++ [.vars index]) := by
  rw [builtInVariables_eq, h.reserved]
  refine ⟨rfl, ?_, ?_, fun qualifier name => ?_⟩
  · rw [firstVars?_append]
    cases firstVars? calls <;> rfl
  · rw [firstLibrary?_append, ← h.library]
    exact Option.or_none.symm
  · rw [firstClass?_append_of_none fun _ => rfl]
    exact h.keywords qualifier name

theorem builtInLibrary (h : p.Holds calls) (index : LibraryIndex) :
    (p.builtInLibrary index).1 = libraryAfter calls index ∧
      (p.builtInLibrary index).2.Holds (calls ++ [.library index]) := by
  rw [builtInLibrary_eq, h.library]
  refine ⟨rfl, ?_, ?_, fun qualifier name => ?_⟩
  · rw [firstVars?_append, ← h.reserved]
    exact Option.or_none.symm
  · rw [firstLibrary?_append]
    cases firstLibrary? calls <;> rfl
  · rw [firstClass?_append_of_none fun _ => rfl]
    exact h.keywords qualifier name

/-- The keywords of a class are answered from the entry of its name, which is filled if no call did
before. -/
theorem classKeywords (h : p.Holds calls) (qualifier : Text) (c : LibraryClass) :
    (p.classKeywords qualifier c).1 = keywordsAfter calls qualifier c ∧
      (p.classKeywords qualifier c).2.Holds (calls ++ [.classKeywords qualifier c]) := by
  have grown (other name : Text) :
      firstClass? (calls ++ [.classKeywords qualifier c]) other name =
        (firstClass? calls other name).or
          (if (qualifier, c.name) = (other, name) then some (qualifier, c) else none) := by
    rw [firstClass?_append]
    simp [askedClass?, Option.filter_some]
  have reserved : p.vars? = firstVars? (calls ++ [.classKeywords qualifier c]) := by
    rw [firstVars?_append, h.reserved]
    exact Option.or_none.symm
  have library : p.library? = firstLibrary? (calls ++ [.classKeywords qualifier c]) := by
    rw [firstLibrary?_append, h.library]
    exact Option.or_none.symm
  have entry := h.keywords qualifier c.name
  rw [keywordsAfter]
  cases first : firstClass? calls qualifier c.name with
  | some asked =>
    rw [first, Option.map_some] at entry
    have kept : p.classKeywords qualifier c = (asked.2.declaredKeywords asked.1, p) := by
      rw [ProjectCache.classKeywords, entry]
    rw [kept]
    refine ⟨rfl, reserved, library, fun other name => ?_⟩
    rw [h.keywords, grown]
    by_cases same : (qualifier, c.name) = (other, name)
    · cases same
      rw [first, Option.some_or]
    · rw [if_neg same, Option.or_none]
  | none =>
    rw [first, Option.map_none] at entry
    have filled : p.classKeywords qualifier c = (c.declaredKeywords qualifier, { p with
        keywords := ((qualifier, c.name), c.declaredKeywords qualifier) :: p.keywords }) := by
      rw [ProjectCache.classKeywords, entry]
    rw [filled]
    refine ⟨rfl, reserved, library, fun other name => ?_⟩
    rw [List.lookup_cons, grown]
    by_cases same : (qualifier, c.name) = (other, name)
    · cases same
      rw [first, beq_self_eq_true, if_pos rfl]
      rfl
    · rw [beq_false_of_ne (Ne.symm same), h.keywords, if_neg same, Option.or_none]

/-- The keywords of the library that is imported everywhere are asked for by asking for the library
and then for the keywords of its class. -/
theorem builtInKeywords (h : p.Holds calls) (index : LibraryIndex) :
    (p.perform (.builtInKeywords index)).1 = (LibraryCall.builtInKeywords index).answerAfter calls ∧
      (p.perform (.builtInKeywords index)).2.Holds (calls ++ [.builtInKeywords index]) := by
  obtain ⟨answer, held⟩ := h.builtInLibrary index
  have found : p.builtInLibrary index =
      (libraryAfter calls index, (p.builtInLibrary index).2) := by rw [← answer]
  rw [ProjectCache.perform, ProjectCache.builtInKeywords, found, answerAfter]
  -- Without the library there is no class, and nothing is filled but its own entry.
  have nothing (none : (LibraryCall.builtInKeywords index).askedClass?
      (libraryAfter calls index) = none) :
      (p.builtInLibrary index).2.Holds (calls ++ [.builtInKeywords index]) :=
    held.congr (findSame_builtInKeywords_of_none index none)
  cases lib : libraryAfter calls index with
  | none => exact ⟨rfl, nothing (by rw [lib]; rfl)⟩
  | some target =>
    cases target with
    | document file => exact ⟨rfl, nothing (by rw [lib]; rfl)⟩
    | module m => exact ⟨rfl, nothing (by rw [lib]; rfl)⟩
    | library qualifier c =>
      obtain ⟨list, filled⟩ := held.classKeywords qualifier c
      have unasked : firstClass? (calls ++ [.library index]) qualifier c.name =
          firstClass? calls qualifier c.name :=
        firstClass?_append_of_none (fun _ => rfl) calls qualifier c.name
      have asked : keywordsAfter (calls ++ [.library index]) qualifier c =
          keywordsAfter calls qualifier c := by rw [keywordsAfter, keywordsAfter, unasked]
      exact ⟨congrArg LibraryAnswer.keywords (list.trans asked),
        filled.congr (findSame_builtInKeywords_of_class lib)⟩

/-- One call is answered as the first one for its entry, and fills this entry if it is the first. -/
theorem perform (h : p.Holds calls) {call : LibraryCall} (other : call.isReset = false) :
    (p.perform call).1 = call.answerAfter calls ∧ (p.perform call).2.Holds (calls ++ [call]) := by
  cases call with
  | reset => cases other
  | vars index =>
    obtain ⟨answer, held⟩ := h.builtInVariables index
    exact ⟨congrArg LibraryAnswer.vars answer, held⟩
  | library index =>
    obtain ⟨answer, held⟩ := h.builtInLibrary index
    exact ⟨congrArg LibraryAnswer.library answer, held⟩
  | classKeywords qualifier c =>
    obtain ⟨answer, held⟩ := h.classKeywords qualifier c
    exact ⟨congrArg LibraryAnswer.keywords answer, held⟩
  | builtInKeywords index => exact h.builtInKeywords index

/-- After any calls the cache holds what the calls since it was last emptied found first. -/
theorem after (calls : List LibraryCall) :
    (ProjectCache.empty.after calls).Holds (sinceReset calls) := by
  induction calls using List.reverseRecOn with
  | nil => exact empty
  | append_singleton calls call ih =>
    have last : ProjectCache.empty.after (calls ++ [call]) =
        ((ProjectCache.empty.after calls).perform call).2 := by
      rw [ProjectCache.after, List.foldl_append]
      rfl
    rw [last]
    cases other : call.isReset with
    | false =>
      rw [sinceReset_append other]
      exact (ih.perform other).2
    | true =>
      cases call with
      | reset =>
        rw [sinceReset_append_reset]
        exact empty
      | vars _ | library _ | builtInKeywords _ | classKeywords _ _ => cases other

end Holds

/-- After any calls, with any libraries each, a call is answered as the first call for the same
entry since the cache was last emptied is answered without a cache. -/
theorem perform_after (calls : List LibraryCall) (call : LibraryCall) :
    ((empty.after calls).perform call).1 = call.answerAfter (sinceReset calls) := by
  cases other : call.isReset with
  | false => exact ((Holds.after calls).perform other).1
  | true =>
    cases call with
    | reset => rfl
    | vars _ | library _ | builtInKeywords _ | classKeywords _ _ => cases other

end ProjectCache

end RobotAnalysis
