import RobotAnalysis.Sequence
import RobotAnalysis.Text.Basic

/-!
# Libraries

Keyword libraries and variable files are written in another language. The analysis knows them by
descriptions that a host looks up: a `LibraryIndex` answers questions about names, and a `Catalogue`
is the index of descriptions given beforehand.
-/
namespace RobotAnalysis

structure LibraryMember where
  name : Text
  takesArguments : Bool
  deriving DecidableEq, Repr

/-- A class whose functions are keywords. -/
structure LibraryClass where
  /-- The name with the packages it lies in. -/
  name : Text
  members : List LibraryMember
  deriving DecidableEq, Repr

/-- A module: a variable file, or a library without a class. -/
structure LibraryModule where
  /-- The name with the packages it lies in, or the path of the file. -/
  name : Text
  members : List LibraryMember
  /-- The names of the variables, without sigil and braces. -/
  vars : List Text
  deriving DecidableEq, Repr

namespace LibraryClass

/-- What follows the last dot of the name. -/
def shortName (c : LibraryClass) : Text :=
  match Sequence.splitLast? (· == '.') c.name with
  | some (_, last) => last
  | none => c.name

/-- A module whose functions are keywords, as a class. -/
def ofModule (m : LibraryModule) : LibraryClass := ⟨m.name, m.members⟩

end LibraryClass

/-- The libraries that can be looked up by name. -/
structure LibraryIndex where
  class? : Text → Option LibraryClass
  module? : Text → Option LibraryModule

namespace LibraryIndex

def empty : LibraryIndex := ⟨fun _ => none, fun _ => none⟩

/-- The function of a class with exactly some name. -/
def member? (index : LibraryIndex) (className name : Text) : Option LibraryMember :=
  (index.class? className).bind fun c => c.members.find? fun m => m.name == name

end LibraryIndex

/-- Descriptions given beforehand, each under the names it is found by, the latest first. -/
structure Catalogue where
  classes : List (Text × LibraryClass)
  modules : List (Text × LibraryModule)
  deriving DecidableEq, Repr

namespace Catalogue

def empty : Catalogue := ⟨[], []⟩

/-- Adds a class, found by its name and by what follows the last dot of it. -/
def addClass (k : Catalogue) (c : LibraryClass) : Catalogue :=
  { k with classes := (c.name, c) :: (c.shortName, c) :: k.classes }

def addModule (k : Catalogue) (m : LibraryModule) : Catalogue :=
  { k with modules := (m.name, m) :: k.modules }

/-- The package of the libraries that may be named without it. -/
def standardPackage : Text := "robot.libraries".toList

/-- The class found by a name, or by that name in the standard package. -/
def class? (k : Catalogue) (name : Text) : Option LibraryClass :=
  (k.classes.lookup name).or (k.classes.lookup (standardPackage ++ '.' :: name))

def module? (k : Catalogue) (name : Text) : Option LibraryModule := k.modules.lookup name

def index (k : Catalogue) : LibraryIndex := ⟨k.class?, k.module?⟩

end Catalogue

/-- What a catalogue is told about. -/
inductive LibraryDescription
  | ofClass (c : LibraryClass)
  | ofModule (m : LibraryModule)
  deriving DecidableEq, Repr

/-- Where descriptions of libraries come from: nowhere, or from a catalogue filled beforehand. -/
inductive LibraryProvider
  | nothing
  | catalogue (descriptions : List LibraryDescription)
  deriving DecidableEq, Repr

namespace Catalogue

def add (k : Catalogue) : LibraryDescription → Catalogue
  | .ofClass c => k.addClass c
  | .ofModule m => k.addModule m

/-- The catalogue of some descriptions, added from left to right. -/
def ofDescriptions (descriptions : List LibraryDescription) : Catalogue :=
  descriptions.foldl add empty

end Catalogue

/-- The index that a provider answers from. -/
def LibraryProvider.index : LibraryProvider → LibraryIndex
  | .nothing => .empty
  | .catalogue descriptions => (Catalogue.ofDescriptions descriptions).index

end RobotAnalysis
