import RobotAnalysis.Document

/-!
# Outlines

What a document declares by itself, without its imports. A `TextStore` holds texts that are parsed
and outlined on request; each is known by its index, and what is asked about one always follows from
its text at that time.
-/
namespace RobotAnalysis

/-- The sections of a document and the names it declares. -/
structure Outline where
  sections : List HeadingKind
  keywords : List Text
  vars : List Text
  deriving DecidableEq, Repr

namespace Document

def outline (d : Document) : Outline :=
  ⟨d.sections.map SectionModel.kind, d.keywords.map Keyword.name, d.vars.map Variable.text⟩

end Document

/-- Texts with the numbers of their documents, in the order in which they were added. -/
structure TextStore where
  inputs : List (FileId × Text)
  deriving DecidableEq, Repr

namespace TextStore

def empty : TextStore := ⟨[]⟩

/-- Adds a text and gives its index. -/
def add (s : TextStore) (file : FileId) (text : Text) : Nat × TextStore :=
  (s.inputs.length, ⟨s.inputs ++ [(file, text)]⟩)

def setText (s : TextStore) (index : Nat) (text : Text) : TextStore :=
  ⟨s.inputs.modify index fun input => (input.1, text)⟩

/-- The parsed text at an index. -/
def source? (s : TextStore) (index : Nat) : Option SourceText :=
  s.inputs[index]?.map fun input => .ofText input.2

def outline? (s : TextStore) (index : Nat) : Option Outline :=
  s.inputs[index]?.map fun input => (Document.ofSource input.1 (.ofText input.2)).outline

end TextStore

end RobotAnalysis
