import RobotAnalysis.Checked.Word

/-!
# Lines and columns

Editors name a place by line and column, the analysis by offset; `LineIndex` turns one into the
other. It holds the offset at which every line starts, in increasing order and beginning with zero,
and the size of the text, which no answer exceeds. Lines and columns are 32-bit words, and so is the
sum of a line start and a column: a place is refused where the sum is none.
-/
namespace RobotAnalysis

/-- A place in a document. Line and column count from zero, the column in bytes. -/
structure Position where
  line : UInt32
  column : UInt32
  deriving DecidableEq, Repr

/-- Where the lines of a text start. -/
structure LineIndex where
  starts : List Nat
  size : Nat
  deriving DecidableEq, Repr

namespace LineIndex

/-- The offsets just after the line feeds of a text that begins at `offset`. -/
def startsAfter (offset : Nat) : Text → List Nat
  | [] => []
  | c :: t =>
    if c = '\n' then (offset + c.utf8Size) :: startsAfter (offset + c.utf8Size) t
    else startsAfter (offset + c.utf8Size) t

def ofText (t : Text) : LineIndex := ⟨0 :: startsAfter 0 t, t.byteSize⟩

/-- The number of lines, one more than there are line feeds. -/
def lineCount (ix : LineIndex) : Nat := ix.starts.length

/-- The place of an offset; an offset beyond the text counts as its end. -/
def position (ix : LineIndex) (offset : Nat) : Position :=
  let inside := min offset ix.size
  let line := ix.starts.countP (fun start => decide (start ≤ inside)) - 1
  ⟨.ofNat line, .ofNat (inside - ix.starts.getD line 0)⟩

/-- The offset of a place, nothing where the line does not exist. A column beyond the text counts
as its end, but it is added to the start of the line before it is compared with the size. -/
def offset? (ix : LineIndex) (p : Position) : Checked (Option Nat) :=
  match ix.starts[p.line.toNat]? with
  | none => some none
  | some start => do return some (min (← Checked.add start p.column.toNat) ix.size)

/-- The places where a span starts and stops. -/
def positions (ix : LineIndex) (s : Span) : Position × Position :=
  (ix.position s.start, ix.position s.stop)

theorem offset?_eq_some_none_iff (ix : LineIndex) (p : Position) :
    ix.offset? p = some none ↔ ix.lineCount ≤ p.line.toNat := by
  rw [lineCount, ← List.getElem?_eq_none_iff, offset?]
  cases ix.starts[p.line.toNat]? with
  | none => simp
  | some start => cases sum : Checked.add start p.column.toNat <;> simp [sum]

end LineIndex

end RobotAnalysis
