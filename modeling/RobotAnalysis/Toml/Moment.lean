import RobotAnalysis.Text.Basic
import RobotAnalysis.Text.CharClass

/-!
# Dates and times

A date, a time of day, or both with a distance from universal time after them, such as
`1979-05-27T07:32:00Z`. Seconds may be left out, and a minute may have a leap second. Only whether a
text is such a moment is decided here.
-/
namespace RobotAnalysis.Toml.Moment

open CharClass (isDigit)

/-- The number that some digits at the start of a text spell, and the rest; a further digit must not
follow them. -/
def field? (width : Nat) (t : Text) : Option (Nat × Text) :=
  let ds := t.takeWhile isDigit
  if ds.length = width then
    some (ds.foldl (fun n c => n * 10 + (c.toNat - 48)) 0, t.dropWhile isDigit)
  else none

/-- A field of two digits that is at most `bound`, and the rest. -/
def pair? (bound : Nat) (t : Text) : Option (Nat × Text) :=
  (field? 2 t).filter fun f => decide (f.1 ≤ bound)

/-- The text after a given first character. -/
def after? (c : Char) : Text → Option Text
  | d :: t => if d = c then some t else none
  | [] => none

/-- Whether a year has a leap day. -/
def isLeap (year : Nat) : Bool :=
  year % 4 == 0 && (year % 100 != 0 || year % 400 == 0)

def daysIn (year month : Nat) : Nat :=
  if month = 2 then if isLeap year then 29 else 28
  else if month = 4 ∨ month = 6 ∨ month = 9 ∨ month = 11 then 30
  else 31

/-- The text after a date. -/
def afterDate? (t : Text) : Option Text := do
  let (year, t) ← field? 4 t
  let (month, t) ← (after? '-' t).bind (pair? 12)
  let (day, t) ← (after? '-' t).bind (pair? (daysIn year month))
  if month = 0 ∨ day = 0 then none else some t

/-- The text after the seconds of a time, which may be left out. -/
def afterSeconds? (t : Text) : Option Text :=
  match after? ':' t with
  | none => some t
  | some t =>
    (pair? 60 t).bind fun (_, t) =>
      match after? '.' t with
      | none => some t
      | some t => if (t.takeWhile isDigit).isEmpty then none else some (t.dropWhile isDigit)

/-- The text after a time of day. -/
def afterTime? (t : Text) : Option Text := do
  let (_, t) ← pair? 23 t
  let (_, t) ← (after? ':' t).bind (pair? 59)
  afterSeconds? t

/-- Whether a text is empty or a distance from universal time. -/
def isDistance (t : Text) : Bool :=
  match t with
  | [] => true
  | ['Z'] | ['z'] => true
  | sign :: t =>
    (sign == '+' || sign == '-') &&
      ((pair? 23 t).bind fun (_, t) => (after? ':' t).bind (pair? 59)).any fun f => f.2.isEmpty

def isDate (t : Text) : Bool := afterDate? t == some []

/-- Whether a text is a date, a time, or a date with a time. -/
def isMoment (t : Text) : Bool :=
  afterTime? t == some [] ||
    match afterDate? t with
    | none => false
    | some [] => true
    | some (between :: t) =>
      ['T', 't', ' '].contains between && (afterTime? t).any isDistance

example : isMoment "2000-02-29 23:59:60.5-07:30".toList = true := by decide
example : isMoment "1900-02-29".toList = false := by decide

end RobotAnalysis.Toml.Moment
