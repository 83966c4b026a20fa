import RobotAnalysis.Text.Basic

/-!
# Arithmetic that may be refused

Sizes and offsets are 32-bit words. A sum has to be a word, a difference must not be negative, and
a range must not end before it starts. A `Checked` computation has no answer where one of its
operations is refused.
-/
namespace RobotAnalysis

/-- What a computation answers, nothing where one of its operations is refused. -/
abbrev Checked (α : Type) : Type := Option α

namespace Checked

/-- A size as a word. -/
def word (n : Nat) : Checked Nat := if n < UInt32.size then some n else none

def add (a b : Nat) : Checked Nat := word (a + b)

def sub (a b : Nat) : Checked Nat := if b ≤ a then some (a - b) else none

/-- The span with some ends. -/
def range (start stop : Nat) : Checked Span :=
  if start ≤ stop then some (.between start stop) else none

/-- The same span in a text with `n` more bytes in front. -/
def shift (n : Nat) (s : Span) : Checked Span := do
  range (← add n s.start) (← add n s.stop)

theorem word_eq {n : Nat} (h : n < UInt32.size) : word n = some n := if_pos h

theorem add_eq {a b : Nat} (h : a + b < UInt32.size) : add a b = some (a + b) := if_pos h

theorem add_eq_none_iff {a b : Nat} : add a b = none ↔ UInt32.size ≤ a + b := by
  simp [add, word]

theorem sub_eq {a b : Nat} (h : b ≤ a) : sub a b = some (a - b) := if_pos h

theorem range_eq {start stop : Nat} (h : start ≤ stop) :
    range start stop = some (.between start stop) := if_pos h

theorem shift_eq {n : Nat} {s : Span} (short : n + s.stop < UInt32.size) :
    shift n s = some (s.shift n) := by
  have ordered : n + s.start ≤ n + s.stop := by simp [Span.stop]
  have same : Span.between (n + s.start) (n + s.stop) = s.shift n := by
    simp only [Span.between, Span.shift, Span.stop, Span.mk.injEq, true_and]
    omega
  simp only [shift, add_eq (Nat.lt_of_le_of_lt ordered short), add_eq short, range_eq ordered, same,
    Option.bind_eq_bind, Option.bind_some]

end Checked

end RobotAnalysis
