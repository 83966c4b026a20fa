import RobotAnalysis.FileTree
import RobotAnalysis.OptionsFile
import RobotAnalysis.Session

/-!
# Loading

Puts the documents of a file tree into a workspace. Documents are told by the extension of their
file, hidden entries are passed over, and paths are sorted by their components, so a directory is
always loaded in the same order. Loading a directory also reads the options file in it.
-/
namespace RobotAnalysis

/-- Why documents cannot be loaded. -/
inductive LoadError
  | unreadable (path : Path) (fault : FileFault)
  | notADirectory (path : Path)
  | unsupportedExtension (path : Path)
  deriving DecidableEq, Repr

namespace LoadError

/-- The path that cannot be loaded. -/
def path : LoadError → Path
  | .unreadable path _ | .notADirectory path | .unsupportedExtension path => path

/-- The message shown to the user. How a fault of the file system is worded is up to the system. -/
def message? : LoadError → Option Text
  | .unreadable _ _ => none
  | .notADirectory path => some ("Directory not found: ".toList ++ path.text)
  | .unsupportedExtension path => some ("Unsupported file extension: ".toList ++ path.text)

end LoadError

namespace Path

def documentExtensions : List Text := ["robot", "resource", "txt"].map String.toList

/-- The extension of the file name, capitals of ASCII made small. -/
def plainExtension? (p : Path) : Option Text :=
  p.extension?.map fun extension => extension.map CaseMap.lowerAscii

/-- Whether a path has the extension of a document. -/
def isDocument (p : Path) : Bool := p.plainExtension?.any documentExtensions.contains

/-- Refuses a path without the extension of a document. -/
def checkExtension (p : Path) : Except LoadError Unit :=
  if p.isDocument then .ok () else .error (.unsupportedExtension p)

end Path

namespace FileTree

/-- The documents below a directory, hidden entries apart, in the order of their components. -/
def documentPaths (tree : FileTree) (directory : Path) : Except LoadError (List Path) :=
  match tree.find directory with
  | .error fault => .error (.unreadable directory fault)
  | .ok found =>
    .ok (((found.files directory).filter Path.isDocument).mergeSort fun p q => p.sortsBefore q)

def readDocument (tree : FileTree) (path : Path) : Except LoadError Text := do
  path.checkExtension
  match tree.readText path with
  | .ok text => return text
  | .error fault => throw (.unreadable path fault)

/-- The options that a directory sets: those of the first options file in it, and the defaults where
there is none or where it cannot be read. -/
def optionsIn (tree : FileTree) (directory : Path) : Options :=
  let candidates := Options.fileNames.map fun name => directory.join ⟨name⟩
  match (candidates.find? tree.hasFile).map tree.readText with
  | some (.ok text) => (Options.ofToml? text).getD {}
  | _ => {}

end FileTree

namespace Session

/-- Puts the document at a path into the workspace. -/
def loadFile (s : Session) (tree : FileTree) (path : Path) : Except LoadError FileId × Session :=
  match tree.readDocument path with
  | .ok text =>
    let (file, s) := s.insert path (.ofText text)
    (.ok file, s)
  | .error e => (.error e, s)

/-- Puts all documents below a directory into the workspace and takes over its options. Documents
that cannot be read are passed over; the answer is the number of the others. -/
def loadDirectory (s : Session) (tree : FileTree) (directory : Path) :
    Except LoadError Nat × Session :=
  if !tree.hasDirectory directory then (.error (.notADirectory directory), s)
  else
    let s := s.setOptions (tree.optionsIn directory)
    match tree.documentPaths directory with
    | .error e => (.error e, s)
    | .ok paths =>
      let read := paths.filterMap fun p => (tree.readDocument p).toOption.map fun text => (p, text)
      (.ok read.length, read.foldl (fun s d => (s.insert d.1 (.ofText d.2)).2) s)

end Session

end RobotAnalysis
