import RobotAnalysis.SectionModel
import RobotAnalysis.Text.LineIndex

/-!
# Documents

A document of a workspace: its tree, its errors and its lines under a version, which every
replacement of the text counts up. What a document declares and uses is read off the sections of its
tree.
-/
namespace RobotAnalysis

/-- A parsed text. The version counts how often the text has been replaced. -/
structure SourceText where
  tree : Tree
  errors : List SyntaxError
  lines : LineIndex
  version : Nat
  deriving DecidableEq

namespace SourceText

/-- A text that has never been replaced. -/
def ofText (text : Text) : SourceText :=
  let parsed := parse text
  ⟨parsed.value, parsed.errors, LineIndex.ofText text, 0⟩

/-- The same document with another text. -/
def setText (s : SourceText) (text : Text) : SourceText :=
  { ofText text with version := s.version + 1 }

@[simp] theorem version_setText (s : SourceText) (text : Text) :
    (s.setText text).version = s.version + 1 := rfl

/-- The text, read off the tree. -/
def text (s : SourceText) : Text := s.tree.text

/-- Whether two texts have the same tree, errors and version. -/
def sameAs (s t : SourceText) : Bool :=
  s.version == t.version && s.tree == t.tree && s.errors == t.errors

end SourceText

/-- A document known by its number. -/
structure Document where
  id : FileId
  source : SourceText
  deriving DecidableEq

namespace Document

def ofSource (id : FileId) (source : SourceText) : Document := ⟨id, source⟩

def setText (d : Document) (text : Text) : Document := ofSource d.id (d.source.setText text)

/-- The sections in the order of the text. -/
def sections (d : Document) : List SectionModel := SectionModel.ofTree d.id d.source.tree

/-- The declared keywords, one for each key. -/
def keywords (d : Document) : List Keyword := SectionModel.keywords d.sections

/-- The declared variables, one for each text and visibility. -/
def vars (d : Document) : List Variable := SectionModel.vars d.sections

def imports (d : Document) : List ImportDeclaration := SectionModel.imports d.sections

def testCases (d : Document) : List TestCase := SectionModel.testCases d.sections

/-- The keyword calls in the order of the sections. -/
def calls (d : Document) : List Mention := SectionModel.calls d.sections

/-- The variable usages in the order of the sections. -/
def usages (d : Document) : List Mention := SectionModel.usages d.sections

/-- The section at an offset; of two that meet there the first. -/
def sectionAt? (d : Document) (offset : Nat) : Option SectionModel :=
  SectionModel.at? d.sections offset

end Document

end RobotAnalysis
