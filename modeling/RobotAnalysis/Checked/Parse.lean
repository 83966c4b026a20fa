import RobotAnalysis.Checked.Variables
import RobotAnalysis.Emission

/-!
# Parsing by token numbers

The table of lines made by one index that runs over the tokens of a text, each of which knows its
offset. Cells are cut out of the text from the first byte of their first token up to the last byte
of their last one. `parse` makes the table, asks every line what parsing may ask of it, and emits
the tree.
-/
namespace RobotAnalysis.Checked

/-- Tokens with the offset at which each begins, the first one at `offset`. -/
def locate (offset : Nat) : List Token → Checked (List (Nat × Token))
  | [] => some []
  | t :: ts => do return (offset, t) :: (← locate (← add offset t.text.byteSize) ts)

/-- The offset just after a token that begins at some offset. -/
def stopOf (placed : Nat × Token) : Checked Nat := add placed.1 placed.2.text.byteSize

/-- The bytes from one token up to another one, both included. -/
def spanOf (first last : Nat × Token) : Checked Span := do
  range first.1 (← stopOf last)

variable (text : Text) (tokens : List (Nat × Token))

/-- The cell of the tokens with the numbers from `start` up to `stop`. -/
def cellRange (start stop : Nat) : Checked CellRange := do
  let span ← spanOf (← tokens[start]?) (← tokens[← sub stop 1]?)
  return ⟨start, stop, ← cut text span⟩

def close (s : LineScan) : Checked LineScan :=
  match s.open? with
  | some (start, stop) => do
    let cell ← cellRange text tokens start stop
    return { s with cells := s.cells ++ [cell], open? := none }
  | none => some s

/-- Takes the tokens of a line from the number `index` on, up to the line break. -/
def scanLine (s : LineScan) (index : Nat) : Checked (LineScan × Nat) :=
  if index < tokens.length then
    match tokens[index]? with
    | none => none
    | some (_, t) =>
      match t.kind with
      | .newline => some (s, index)
      | .separator =>
        match close text tokens s with
        | none => none
        | some s => scanLine s (index + 1)
      | .space => scanLine s (index + 1)
      | .word | .stray => scanLine (s.word index t) (index + 1)
  else some (s, index)
termination_by tokens.length - index

/-- The line whose first token has the number `index`. -/
def lineAt (index : Nat) : Checked LineEntry := do
  let (s, atBreak) ← scanLine text tokens ⟨[], none, none⟩ index
  let s ← close text tokens s
  let stop := if atBreak < tokens.length then atBreak + 1 else atBreak
  let first ← tokens[index]?
  let span ← spanOf first (← tokens[← sub stop 1]?)
  return {
    stop, span
    cells := s.cells
    comment? := s.comment?
    indented := first.2.kind == .separator || first.2.kind == .space }

/-- The lines from the token with the number `index` on. A line that does not pass a token is not
followed by another one. -/
def linesFrom (index : Nat) : Checked (List LineEntry) :=
  if index < tokens.length then
    match lineAt text tokens index with
    | none => none
    | some line =>
      if index < line.stop then do return line :: (← linesFrom line.stop) else none
  else some []
termination_by tokens.length - index

def cellsText (l : LineEntry) : Checked Text :=
  match l.cells.head?, l.cells.getLast? with
  | some first, some last =>
    if first.start ≤ last.stop ∧ last.stop ≤ tokens.length then
      some (l.cellsText (tokens.map Prod.snd))
    else none
  | _, _ => some []

/-- What parsing may ask of a line before its tokens are emitted: its text as a heading, and of each
cell whether it is a variable. -/
def askLine (l : LineEntry) : Checked (Text × List Bool) := do
  return (← cellsText tokens l, ← l.cells.mapM fun c => isWholeCell c.text)

def parse : Checked Emission := do
  let tokens := tokenize text
  let placed ← locate 0 tokens
  let lines ← linesFrom text placed 0
  let _ ← lines.mapM (askLine placed)
  Emission.emitDocument tokens ⟨0, lines, [], []⟩

end RobotAnalysis.Checked
