import RobotAnalysis.Sequence
import RobotAnalysis.Token

/-!
# Lines and cells

A line ends with its line break. Inside it separators divide cells, which are words joined by single
spaces; a word that starts with `#` where no cell is open begins the comment, which takes the rest
of the line up to its last word. `Part.ofTokens` keeps every token, so the parts of a line spell it.
-/
namespace RobotAnalysis

inductive Part
  /-- A blank or a line break outside cells and comments. -/
  | gap (t : Token)
  /-- The tokens of a cell. -/
  | cell (ts : List Token)
  /-- The tokens of a comment. -/
  | comment (ts : List Token)
  deriving DecidableEq, Repr

namespace Part

def tokens : Part → List Token
  | .gap t => [t]
  | .cell ts => ts
  | .comment ts => ts

/-- The text of a part that is a cell. -/
def cellText? : Part → Option Text
  | .cell ts => some (Token.textOf ts)
  | .gap _ | .comment _ => none

/-- Whether a part is a cell. -/
def isCell (p : Part) : Bool := p.cellText?.isSome

/-- Tokens at which a cell ends. -/
def endsCell (t : Token) : Bool := t.kind == .separator || t.kind == .newline

/-- The tokens after the first one of a cell, and the tokens after the cell. -/
def restOfCell (ts : List Token) : List Token × List Token :=
  let body := Sequence.dropTrailing Token.isTrivia (ts.takeWhile fun t => !endsCell t)
  (body, ts.drop body.length)

/-- The tokens after the first one of a comment, and the tokens after the comment. -/
def restOfComment (ts : List Token) : List Token × List Token :=
  let body := Sequence.dropTrailing Token.isTrivia ts
  (body, ts.drop body.length)

/-- Whether a word begins a comment. -/
def opensComment (t : Token) : Bool := t.text.head? == some '#'

/-- The parts of the tokens of a line. -/
def ofTokens : List Token → List Part
  | [] => []
  | t :: ts =>
    if t.isTrivia then .gap t :: ofTokens ts
    else if opensComment t then
      let rest := restOfComment ts
      .comment (t :: rest.1) :: rest.2.map .gap
    else
      let rest := restOfCell ts
      .cell (t :: rest.1) :: ofTokens rest.2
termination_by ts => ts.length
decreasing_by
  · simp
  · simp only [restOfCell, List.length_drop, List.length_cons]; omega

end Part

/-- A line of a document: the offset at which it begins, and its parts. -/
structure Line where
  start : Nat
  parts : List Part
  deriving DecidableEq, Repr

namespace Line

def tokens (l : Line) : List Token := l.parts.flatMap Part.tokens

/-- The bytes of a line, its line break included. -/
def span (l : Line) : Span := ⟨l.start, Token.sizeOf l.tokens⟩

def cells (l : Line) : List Text := l.parts.filterMap Part.cellText?

/-- A line without cells; it may have a comment. -/
def isBlank (l : Line) : Bool := l.cells.isEmpty

/-- The mark in the first cell of a line that continues the row before it. -/
def continuationMark : Text := ['.', '.', '.']

/-- Whether a line continues the row before it. -/
def isContinuation (l : Line) : Bool := l.cells.head? == some continuationMark

/-- Whether a line begins with a blank. -/
def isIndented (l : Line) : Bool :=
  match l.parts with
  | .gap t :: _ => t.kind == .separator || t.kind == .space
  | _ => false

/-- Whether a line is the heading of a section: it is not indented, and its first cell starts
with a star. -/
def isHeading (l : Line) : Bool :=
  !l.isIndented && (l.cells.head?.any fun cell => cell.head? == some '*')

/-- The text from the first cell to the last one. -/
def cellsText (l : Line) : Text :=
  let inner := Sequence.dropTrailing (fun p => !p.isCell) (l.parts.dropWhile fun p => !p.isCell)
  Token.textOf (inner.flatMap Part.tokens)

/-- The parts up to the first cell, that cell included, and the parts after it. -/
def splitAfterFirstCell (l : Line) : List Part × List Part :=
  let before := l.parts.takeWhile fun p => !p.isCell
  (l.parts.take (before.length + 1), l.parts.drop (before.length + 1))

end Line

/-- Tokens grouped into lines; every group but the last ends with a line break. -/
def splitLines : List Token → List (List Token)
  | [] => []
  | t :: ts =>
    if t.kind = .newline then [t] :: splitLines ts
    else
      match splitLines ts with
      | [] => [[t]]
      | l :: ls => (t :: l) :: ls

/-- No token is lost by grouping. -/
theorem flatten_splitLines (ts : List Token) : (splitLines ts).flatten = ts := by
  induction ts with
  | nil => rfl
  | cons t ts ih =>
    by_cases h : t.kind = .newline
    · simp [splitLines, h, ih]
    · cases hs : splitLines ts with
      | nil => simp_all [splitLines]
      | cons l ls => simp_all [splitLines]

def linesOf (ts : List Token) : List Line :=
  locate 0 (splitLines ts)
where
  /-- The lines with the offset at which each begins, the first one at `offset`. -/
  locate (offset : Nat) : List (List Token) → List Line
    | [] => []
    | l :: ls => ⟨offset, Part.ofTokens l⟩ :: locate (offset + Token.sizeOf l) ls

end RobotAnalysis
