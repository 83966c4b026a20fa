import RobotAnalysis.OrderedMap
import RobotAnalysis.Workspace

/-!
# The tables behind a workspace

A workspace has three tables: the number of every path, the path of every number, and the documents
by their numbers. Each is an insertion-ordered map that is changed by itself, and new numbers come
from a 32-bit counter. `Workspace` keeps one list of paths with numbers instead of the first two
tables and counts without a bound; `Represents` says that both hold the same.
-/
namespace RobotAnalysis

/-- The tables of a workspace and the counter of its numbers. -/
structure DocumentTables where
  /-- The numbers of the known paths; paths are told apart by their components. -/
  ids : OrderedMap Path.components FileId
  /-- The known paths by their numbers. -/
  paths : OrderedMap FileId.index Path
  documents : OrderedMap FileId.index Document
  /-- The number that the next new path gets. -/
  nextId : UInt32

namespace DocumentTables

def empty : DocumentTables := ⟨.empty, .empty, .empty, 0⟩

/-- Gives a path a number if it has none. -/
def register (t : DocumentTables) (path : Path) : FileId × DocumentTables :=
  match t.ids.get? path with
  | some file => (file, t)
  | none =>
    let file : FileId := ⟨t.nextId.toNat⟩
    (file,
      { t with
        ids := t.ids.insert path file
        paths := t.paths.insert file path
        nextId := t.nextId + 1 })

/-- The number of a path that holds a document. -/
def lookup? (t : DocumentTables) (path : Path) : Option FileId :=
  (t.ids.get? path).filter fun file => (t.documents.get? file).isSome

/-- Puts a document under a number. -/
def store (t : DocumentTables) (file : FileId) (d : Document) : DocumentTables :=
  { t with documents := t.documents.insert file d }

/-- Creates the document at a path, or replaces its text. -/
def setText (t : DocumentTables) (path : Path) (text : Text) : FileId × DocumentTables :=
  let (file, t) := t.register path
  match t.documents.get? file with
  | some d => (file, t.store file (d.setText text))
  | none => (file, t.store file (.ofSource file (.ofText text)))

/-- Puts a parsed text at a path, in the place of any document there. -/
def insert (t : DocumentTables) (path : Path) (source : SourceText) : FileId × DocumentTables :=
  let (file, t) := t.register path
  (file, t.store file (.ofSource file source))

/-- Removes the document at a path, and says whether there was one. The path loses its number even
if it held no document. -/
def remove (t : DocumentTables) (path : Path) : Bool × DocumentTables :=
  match t.ids.remove path with
  | (none, _) => (false, t)
  | (some file, ids) =>
    let (removed, documents) := t.documents.remove file
    (removed.isSome, { t with ids, paths := (t.paths.remove file).2, documents })

/-- Whether a workspace holds what the tables hold. -/
structure Represents (t : DocumentTables) (ws : Workspace) : Prop where
  ids : t.ids.entries = ws.paths
  paths : t.paths.entries = ws.paths.map Prod.swap
  documents : t.documents.entries = ws.documents.map fun d => (d.id, d)
  nextId : t.nextId.toNat = ws.nextId

end DocumentTables

/-- What can be done with the documents of a workspace. -/
inductive FileOperation
  | register (path : Path)
  | setText (path : Path) (text : Text)
  | insert (path : Path) (source : SourceText)
  | remove (path : Path)

/-- What such an operation answers: a number, or whether a document was removed. -/
inductive FileAnswer
  | file (file : FileId)
  | removed (was : Bool)
  deriving DecidableEq, Repr

def FileAnswer.file? : FileAnswer → Option FileId
  | .file given => some given
  | .removed _ => none

namespace FileOperation

/-- The path that gets a number if it has none. -/
def registers? : FileOperation → Option Path
  | .register path | .setText path _ | .insert path _ => some path
  | .remove _ => none

/-- Whether an operation puts a document under the number of its path. -/
def stores : FileOperation → Bool
  | .setText _ _ | .insert _ _ => true
  | .register _ | .remove _ => false

/-- The number under which an operation with some answer has put a document. -/
def storedUnder? (op : FileOperation) (answer : FileAnswer) : Option FileId :=
  if op.stores then answer.file? else none

end FileOperation

namespace Workspace

def perform (ws : Workspace) : FileOperation → FileAnswer × Workspace
  | .register path => (ws.register path).map .file id
  | .setText path text => (ws.setText path text).map .file id
  | .insert path source => (ws.insert path source).map .file id
  | .remove path => (ws.remove path).map .removed id

/-- The workspace after some operations, the first one first. -/
def after (ws : Workspace) (ops : List FileOperation) : Workspace :=
  ops.foldl (fun ws op => (ws.perform op).2) ws

end Workspace

namespace DocumentTables

def perform (t : DocumentTables) : FileOperation → FileAnswer × DocumentTables
  | .register path => (t.register path).map .file id
  | .setText path text => (t.setText path text).map .file id
  | .insert path source => (t.insert path source).map .file id
  | .remove path => (t.remove path).map .removed id

/-- The tables after some operations, the first one first. -/
def after (t : DocumentTables) (ops : List FileOperation) : DocumentTables :=
  ops.foldl (fun t op => (t.perform op).2) t

/-- Whether an operation gives a new number to its path. -/
def allocates (t : DocumentTables) (op : FileOperation) : Bool :=
  op.registers?.any fun path => (t.ids.get? path).isNone

def allocations (t : DocumentTables) : List FileOperation → Nat
  | [] => 0
  | op :: ops => (t.allocates op).toNat + allocations (t.perform op).2 ops

/-- The numbers under which some operations put documents, each time they do. -/
def stored (t : DocumentTables) : List FileOperation → List FileId
  | [] => []
  | op :: ops => (op.storedUnder? (t.perform op).1).toList ++ stored (t.perform op).2 ops

/-- Whether some operations on the tables take its number from a path and give it to nothing. -/
def Retires (t : DocumentTables) (ops : List FileOperation) (file : FileId) : Prop :=
  ∃ before path rest, ops = before ++ .remove path :: rest ∧
    (t.after before).ids.get? path = some file

end DocumentTables

end RobotAnalysis
