import RobotAnalysis.Text.LineIndex
import RobotAnalysis.Text.Trim

/-!
# Operations on texts and lines that may be refused

A text is cut between characters only, and a list is asked at a place that it has. Offsets are
computed as words.
-/
namespace RobotAnalysis

namespace Text

/-- The UTF-8 form of a text. -/
def bytes (t : Text) : List UInt8 := t.flatMap String.utf8EncodeChar

theorem byteSize_takeBytes_le (n : Nat) (t : Text) : (t.takeBytes n).byteSize ≤ n := by
  induction t generalizing n with
  | nil => simp [takeBytes]
  | cons c t ih =>
    by_cases h : c.utf8Size ≤ n
    · have rest := ih (n - c.utf8Size)
      simp only [takeBytes, if_pos h, byteSize_cons]
      omega
    · simp [takeBytes, h]

theorem byteSize_takeBytes_le_byteSize (n : Nat) (t : Text) :
    (t.takeBytes n).byteSize ≤ t.byteSize := by
  have whole := congrArg byteSize (takeBytes_append_dropBytes n t)
  rw [byteSize_append] at whole
  omega

/-- Whether an offset lies between two characters of a text, or at one of its ends. -/
def isBoundary (t : Text) (offset : Nat) : Bool := (t.takeBytes offset).byteSize == offset

/-- The place where the last occurrence of a text begins. -/
def lastPlace? (needle : Text) : Text → Option Nat
  | [] => none
  | c :: t =>
    match lastPlace? needle t with
    | some place => some (c.utf8Size + place)
    | none => if needle.isPrefixOf (c :: t) then some 0 else none

end Text

namespace Checked

/-- The part of a text that a span covers. -/
def cut (t : Text) (s : Span) : Checked Text :=
  if t.isBoundary s.start && t.isBoundary s.stop then some (t.slice s) else none

/-- The part of a text from one offset up to another. -/
def cutBetween (t : Text) (start stop : Nat) : Checked Text := do
  cut t (← range start stop)

/-- A cut that leaves out the start of a text is shorter than the text. -/
theorem byteSize_lt_of_cut {t piece : Text} {s : Span} (h : cut t s = some piece)
    (later : 0 < s.start) : piece.byteSize < t.byteSize := by
  unfold cut at h
  split at h
  · rename_i allowed
    cases h
    have stop : (t.takeBytes s.stop).byteSize = s.stop := by
      simpa [Text.isBoundary] using (Bool.and_eq_true_iff.1 allowed).2
    have short := Text.byteSize_takeBytes_le s.size (t.dropBytes s.start)
    have fits := Text.byteSize_takeBytes_le_byteSize s.stop t
    simp only [Span.stop, Text.slice] at *
    omega
  · cases h

/-- The last boundary of a text that is not after an offset. -/
def floor (t : Text) : Nat → Checked Nat
  | 0 => if t.isBoundary 0 then some 0 else none
  | n + 1 => if t.isBoundary (n + 1) then some (n + 1) else floor t n

def typedBefore (t : Text) (offset : Nat) : Checked Text := do
  let stop ← floor t (min offset t.byteSize)
  let head ← cutBetween t 0 stop
  let lineStart := ((Text.lastPlace? ['\n'] head).map (· + 1)).getD 0
  let line ← cutBetween t lineStart stop
  let afterBlanks := (Text.lastPlace? [' ', ' '] line).map (· + 2)
  let afterTab := (Text.lastPlace? ['\t'] line).map (· + 1)
  let cell ← cutBetween line (max (afterBlanks.getD 0) (afterTab.getD 0)) line.byteSize
  return Text.trimStart cell

def position (ix : LineIndex) (offset : Nat) : Checked Position := do
  let inside := min offset ix.size
  let line := ix.starts.countP (fun start => decide (start ≤ inside)) - 1
  let start ← ix.starts[line]?
  return ⟨.ofNat line, .ofNat (← sub inside start)⟩

def positions (ix : LineIndex) (s : Span) : Checked (Position × Position) := do
  return (← position ix s.start, ← position ix s.stop)

end Checked

end RobotAnalysis
