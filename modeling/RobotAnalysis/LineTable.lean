import RobotAnalysis.Line

/-!
# Lines by the numbers of their tokens

One pass over the tokens of a document finds where its lines end and, in each line, which tokens
make up its cells and its comment. Everything is given as a range of token numbers, so that a cursor
over the tokens can be moved to any of these places.
-/
namespace RobotAnalysis

/-- The tokens with the numbers from `start` up to `stop`. -/
def Token.slice (tokens : List Token) (start stop : Nat) : List Token :=
  (tokens.take stop).drop start

/-- A cell as the range of its tokens. -/
structure CellRange where
  start : Nat
  stop : Nat
  text : Text
  deriving DecidableEq, Repr

/-- A line as a range of tokens that ends at `stop`, its line break included. -/
structure LineEntry where
  stop : Nat
  cells : List CellRange
  /-- The tokens of the comment. -/
  comment? : Option (Nat × Nat)
  /-- Whether the line begins with a blank. -/
  indented : Bool
  span : Span
  deriving DecidableEq, Repr

namespace LineEntry

def isBlank (l : LineEntry) : Bool := l.cells.isEmpty

def isContinuation (l : LineEntry) : Bool :=
  l.cells.head?.any fun c => c.text == Line.continuationMark

def isHeading (l : LineEntry) : Bool :=
  !l.indented && (l.cells.head?.any fun c => c.text.head? == some '*')

def cellsText (tokens : List Token) (l : LineEntry) : Text :=
  match l.cells.head?, l.cells.getLast? with
  | some first, some last => Token.textOf (Token.slice tokens first.start last.stop)
  | _, _ => []

end LineEntry

/-- What has been found of a line so far. -/
structure LineScan where
  cells : List CellRange
  /-- The tokens of the cell that has not ended yet. -/
  open? : Option (Nat × Nat)
  comment? : Option (Nat × Nat)
  deriving DecidableEq, Repr

namespace LineScan

/-- Ends the open cell. -/
def close (tokens : List Token) (s : LineScan) : LineScan :=
  match s.open? with
  | some (start, stop) =>
    let cell := ⟨start, stop, Token.textOf (Token.slice tokens start stop)⟩
    { s with cells := s.cells ++ [cell], open? := none }
  | none => s

/-- Takes the word with the number `index`, which extends the comment or the open cell, or begins
one of them. -/
def word (s : LineScan) (index : Nat) (t : Token) : LineScan :=
  match s.comment?, s.open? with
  | some (start, _), _ => { s with comment? := some (start, index + 1) }
  | none, some (start, _) => { s with open? := some (start, index + 1) }
  | none, none =>
    if Part.opensComment t then { s with comment? := some (index, index + 1) }
    else { s with open? := some (index, index + 1) }

/-- Takes the token with the number `index`. -/
def next (tokens : List Token) (s : LineScan) (index : Nat) (t : Token) : LineScan :=
  match t.kind with
  | .space => s
  | .separator | .newline => s.close tokens
  | .word | .stray => s.word index t

/-- Takes tokens one after the other, of which the first has the number `index`. -/
def run (tokens : List Token) (s : LineScan) (index : Nat) : List Token → LineScan
  | [] => s
  | t :: ts => run tokens (s.next tokens index t) (index + 1) ts

/-- Takes the tokens of a whole line. -/
def ofTokens (tokens : List Token) (index : Nat) (ts : List Token) : LineScan :=
  (run tokens ⟨[], none, none⟩ index ts).close tokens

end LineScan

namespace LineEntry

/-- The line made of some tokens, of which the first has the number `index` and begins at
`offset`. -/
def ofTokens (tokens : List Token) (index offset : Nat) (ts : List Token) : LineEntry :=
  let found := LineScan.ofTokens tokens index ts
  { stop := index + ts.length, cells := found.cells, comment? := found.comment?,
    indented := ts.head?.any fun t => t.kind == .separator || t.kind == .space,
    span := ⟨offset, Token.sizeOf ts⟩ }

def table (tokens : List Token) : List LineEntry := locate 0 0 (splitLines tokens)
where
  /-- The lines with their places, the first one at token `index` and offset `offset`. -/
  locate (index offset : Nat) : List (List Token) → List LineEntry
    | [] => []
    | ts :: lines =>
      ofTokens tokens index offset ts ::
        locate (index + ts.length) (offset + Token.sizeOf ts) lines

end LineEntry

end RobotAnalysis
