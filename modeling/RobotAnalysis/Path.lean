import RobotAnalysis.Sequence
import RobotAnalysis.Text.CaseMap
import RobotAnalysis.Text.Trim

/-!
# Paths

Paths with `/` between their components. Two paths are the same when their components are, however
they are written: repeated separators, separators at the end and `.` after the first place mean
nothing. A path keeps its text, since messages and substitutions show it as it was given.
-/
namespace RobotAnalysis

/-- A step of a path. -/
inductive Component
  /-- The root directory. -/
  | root
  /-- The directory itself; only at the start of a relative path. -/
  | current
  /-- The directory above. -/
  | parent
  /-- An entry of a directory. -/
  | normal (name : Text)
  deriving DecidableEq, Repr

/-- A path as it is written. -/
structure Path where
  text : Text
  deriving DecidableEq, Repr

namespace Path

/-- Segments between separators that mean nothing. -/
def isIgnored (segment : Text) : Bool := segment.isEmpty || segment == ['.']

/-- The component that a segment stands for. -/
def component? (segment : Text) : Option Component :=
  if isIgnored segment then none
  else if segment = ['.', '.'] then some .parent
  else some (.normal segment)

def segments (text : Text) : List Text := Sequence.splitBy (· == '/') text

/-- The segments joined by separators. -/
def ofSegments (segments : List Text) : Text := Text.joinWith '/' segments

/-- Whether a path starts at the root. -/
def isAbsolute (p : Path) : Bool := p.text.head? == some '/'

def components (p : Path) : List Component :=
  if p.isAbsolute then .root :: (segments p.text).filterMap component?
  else
    match segments p.text with
    | ['.'] :: rest => .current :: rest.filterMap component?
    | all => all.filterMap component?

/-- Whether two paths have the same components. -/
def same (p q : Path) : Bool := p.components == q.components

/-- A relative path read from a directory; an absolute one stands for itself. -/
def join (directory path : Path) : Path :=
  if path.isAbsolute then path
  else if directory.text.isEmpty || directory.text.getLast? == some '/' then
    ⟨directory.text ++ path.text⟩
  else ⟨directory.text ++ '/' :: path.text⟩

/-- The segments without the last component, and without what means nothing at their end. -/
def withoutLast (segments : List Text) : List Text :=
  Sequence.dropTrailing isIgnored (Sequence.dropTrailing isIgnored segments).dropLast

/-- The path without its last component; the root and the empty path have none. -/
def parent? (p : Path) : Option Path :=
  if p.components = [] ∨ p.components = [.root] then none
  else if p.isAbsolute then some ⟨'/' :: ofSegments (withoutLast (segments (p.text.drop 1)))⟩
  else
    match segments p.text with
    | ['.'] :: rest =>
      if rest.all isIgnored then some ⟨[]⟩
      else some ⟨ofSegments (['.'] :: withoutLast rest)⟩
    | all => some ⟨ofSegments (withoutLast all)⟩

/-- The name of the last component where that is an entry of a directory. -/
def fileName? (p : Path) : Option Text :=
  match p.components.getLast? with
  | some (.normal name) => some name
  | _ => none

/-- What follows the last dot of the file name, unless nothing stands before that dot. -/
def extension? (p : Path) : Option Text :=
  match p.fileName?.bind (Sequence.splitLast? (· == '.')) with
  | some (before, after) => if before.isEmpty then none else some after
  | none => none

/-- Drops segments until some number of those that mean something are gone. -/
def dropSegments : Nat → List Text → List Text
  | 0, segments => segments
  | _ + 1, [] => []
  | n + 1, s :: segments =>
    if isIgnored s then dropSegments (n + 1) segments else dropSegments n segments

/-- What a path adds to a directory that it lies below, without what means nothing at its ends. -/
def relativeTo? (directory p : Path) : Option Path :=
  if directory.components.isPrefixOf p.components then
    let steps := (segments directory.text).countP fun s => !isIgnored s
    let inner := (dropSegments steps (segments p.text)).dropWhile isIgnored
    some ⟨ofSegments (Sequence.dropTrailing isIgnored inner)⟩
  else none

/-- Whether a path ends with some components. -/
def endsWith (p : Path) (suffix : List Component) : Bool := suffix.isSuffixOf p.components

/-- Whether a component stands before another one in sorted lists: the root, then the directory
itself, the directory above, and entries by the code points of their names. -/
def sortsFirst : Component → Component → Bool
  | .root, .root => false
  | .root, _ => true
  | .current, .root | .current, .current => false
  | .current, _ => true
  | .parent, .normal _ => true
  | .parent, _ => false
  | .normal a, .normal b => decide (a < b)
  | .normal _, _ => false

/-- Whether components stand before others in sorted lists, or are the same. -/
def componentsSortBefore : List Component → List Component → Bool
  | [], _ => true
  | _ :: _, [] => false
  | a :: as, b :: bs => if a = b then componentsSortBefore as bs else sortsFirst a b

/-- Whether a path stands before another one in sorted lists, or has the same components. -/
def sortsBefore (p q : Path) : Bool := componentsSortBefore p.components q.components

/-- Appends a component to others given in reverse, and resolves it as far as it goes. A parent takes
away the component before it, except the root, and stands alone where there is none. -/
def pushResolved (reversed : List Component) : Component → List Component
  | .current => reversed
  | .parent =>
    match reversed with
    | [] => [.parent]
    | .root :: rest => .parent :: .root :: rest
    | _ :: rest => rest
  | other => other :: reversed

/-- The components of a path without the directory itself and with parents resolved. -/
def normalize (components : List Component) : List Component :=
  (components.foldl pushResolved []).reverse

end Path

end RobotAnalysis
