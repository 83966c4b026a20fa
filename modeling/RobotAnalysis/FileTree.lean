import RobotAnalysis.Path

/-!
# File trees

A file system as a tree of directories and files. A path is followed step by step from the root: a
directory can be entered, whatever follows a file in a path is a fault, and the parent of the root is
the root. Files hold bytes, and only some byte sequences are text.
-/
namespace RobotAnalysis

/-- A file with its bytes, or a directory with its entries by name. -/
inductive FileTree
  | file (bytes : ByteArray)
  | directory (entries : List (Text × FileTree))

/-- Why a path cannot be followed or read. -/
inductive FileFault
  | notFound
  | notADirectory
  | isADirectory
  /-- The bytes of the file are not the UTF-8 form of a text. -/
  | invalidText
  /-- A name is longer than names of a file system may be. -/
  | invalidName
  /-- The path has a zero character in it. -/
  | invalidPath
  deriving DecidableEq, Repr

namespace FileTree

def empty : FileTree := .directory []

def maxNameSize : Nat := 255

/-- Follows the segments of a path. `above` holds the directories around the place reached, the
innermost first. -/
def follow (above : List FileTree) (here : FileTree) : List Text → Except FileFault FileTree
  | [] => .ok here
  | segment :: rest =>
    match here with
    | .file _ => .error .notADirectory
    | .directory entries =>
      if Path.isIgnored segment then follow above here rest
      else if segment = ['.', '.'] then
        match above with
        | [] => follow [] here rest
        | outer :: above => follow above outer rest
      else if maxNameSize < Text.byteSize segment then .error .invalidName
      else
        match entries.lookup segment with
        | some inner => follow (here :: above) inner rest
        | none => .error .notFound

/-- What stands at a path, read from the root. -/
def find (tree : FileTree) (path : Path) : Except FileFault FileTree :=
  if path.text.contains '\x00' then .error .invalidPath
  else tree.follow [] (Path.segments path.text)

def hasDirectory (tree : FileTree) (path : Path) : Bool :=
  match tree.find path with
  | .ok (.directory _) => true
  | _ => false

def hasFile (tree : FileTree) (path : Path) : Bool :=
  match tree.find path with
  | .ok (.file _) => true
  | _ => false

def readText (tree : FileTree) (path : Path) : Except FileFault Text :=
  match tree.find path with
  | .error fault => .error fault
  | .ok (.directory _) => .error .isADirectory
  | .ok (.file bytes) =>
    match String.fromUTF8? bytes with
    | some text => .ok text.toList
    | none => .error .invalidText

/-- Names of entries that are passed over. -/
def isHidden (name : Text) : Bool := name.head? == some '.'

mutual

/-- The paths of the files of a tree that stands at a path, hidden entries apart. -/
def files (path : Path) : FileTree → List Path
  | .file _ => [path]
  | .directory entries => filesOf path entries

/-- The paths of the files below entries of a directory, hidden ones apart. -/
def filesOf (path : Path) : List (Text × FileTree) → List Path
  | [] => []
  | (name, tree) :: entries =>
    (if isHidden name then [] else files (path.join ⟨name⟩) tree) ++ filesOf path entries

end

/-- The entries of a directory with another entry at a name. -/
def put (name : Text) (tree : FileTree) (entries : List (Text × FileTree)) :
    List (Text × FileTree) :=
  if (entries.lookup name).isSome then
    entries.map fun e => if e.1 = name then (name, tree) else e
  else entries ++ [(name, tree)]

/-- The tree with another one at some names, which stand for directories inside each other. Those
that do not exist come about. A directory put where one exists changes nothing. -/
def insert (new : FileTree) : List Text → FileTree → FileTree
  | [], old =>
    match old, new with
    | .directory entries, .directory [] => .directory entries
    | _, _ => new
  | name :: names, old =>
    let entries :=
      match old with
      | .directory entries => entries
      | .file _ => []
    .directory (put name (insert new names ((entries.lookup name).getD empty)) entries)

end FileTree

end RobotAnalysis
