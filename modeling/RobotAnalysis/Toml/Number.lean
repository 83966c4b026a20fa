import RobotAnalysis.Sequence
import RobotAnalysis.Text.Basic
import RobotAnalysis.Text.CharClass

/-!
# Numbers

Integers in base ten, sixteen, eight and two, and decimal fractions with an exponent. Underscores may
stand between digits, one at a time. Numbers are exact here; `Decimal.isDouble` and
`isWord128` say whether a machine number of the usual size can hold one.
-/
namespace RobotAnalysis.Toml

open CharClass (isDigit)

/-- The number `mantissa · 10 ^ exponent`. -/
structure Decimal where
  mantissa : Int
  exponent : Int
  deriving DecidableEq, Repr

namespace Number

/-- The digits of a base; those after nine are the letters of either case. -/
def digitValue? (base : Nat) (c : Char) : Option Nat :=
  let n := c.toLower.toNat
  let value? := if isDigit c then some (n - 48) else if 97 ≤ n then some (n - 87) else none
  value?.filter fun v => decide (v < base)

def isDigitOf (base : Nat) (c : Char) : Bool := (digitValue? base c).isSome

/-- The digits of a text in which single underscores may stand between them. -/
def digits? (base : Nat) (t : Text) : Option Text :=
  let groups := Sequence.splitBy (· == '_') t
  if groups.all fun g => !g.isEmpty && g.all (isDigitOf base) then some groups.flatten else none

/-- The number that digits spell. -/
def valueOf (base : Nat) (digits : Text) : Nat :=
  digits.foldl (fun n c => n * base + (digitValue? base c).getD 0) 0

/-- The decimal digits of a text, of which the first one is zero only where it is alone. -/
def whole? (t : Text) : Option Text :=
  (digits? 10 t).filter fun ds => ds.length == 1 || ds.head? != some '0'

/-- Whether a text begins with a minus sign, and what follows a sign. -/
def splitSign : Text → Bool × Text
  | '-' :: t => (true, t)
  | '+' :: t => (false, t)
  | t => (false, t)

def signed (negative : Bool) (n : Nat) : Int := if negative then -(n : Int) else n

/-- The integer that a text writes. Only decimal integers have a sign. -/
def integer? (t : Text) : Option Int :=
  match t with
  | '0' :: 'x' :: ds => (digits? 16 ds).map fun ds => valueOf 16 ds
  | '0' :: 'o' :: ds => (digits? 8 ds).map fun ds => valueOf 8 ds
  | '0' :: 'b' :: ds => (digits? 2 ds).map fun ds => valueOf 2 ds
  | _ =>
    let (negative, ds) := splitSign t
    (whole? ds).map fun ds => signed negative (valueOf 10 ds)

/-- The exponent that a text writes. -/
def exponent? (t : Text) : Option Int :=
  let (negative, ds) := splitSign t
  (digits? 10 ds).map fun ds => signed negative (valueOf 10 ds)

/-- The decimal fraction that a text writes. It has a fraction part or an exponent, or both. -/
def decimal? (t : Text) : Option Decimal :=
  let (negative, body) := splitSign t
  let (number, exponent) :=
    match Sequence.splitOnce? (fun c => c == 'e' || c == 'E') body with
    | some (number, exponent) => (number, exponent? exponent)
    | none => (body, some 0)
  match Sequence.splitOnce? (· == '.') number, exponent with
  | some (left, right), some e => do
    let left ← whole? left
    let right ← digits? 10 right
    return ⟨signed negative (valueOf 10 (left ++ right)), e - right.length⟩
  | none, some e =>
    if number == body then none
    else (whole? number).map fun ds => ⟨signed negative (valueOf 10 ds), e⟩
  | _, none => none

/-- Whether an integer is a 128-bit word, signed or not. -/
def isWord128 : Int → Bool
  | .ofNat n => decide (n < Nat.pow 2 128)
  | .negSucc n => decide (n < Nat.pow 2 127)

end Number

namespace Decimal

/-- The least number that is rounded to no finite floating-point number of 64 bits. -/
def doubleBound : Nat := Nat.pow 2 1024 - Nat.pow 2 970

/-- Whether the number is rounded to a finite floating-point number of 64 bits. -/
def isDouble (d : Decimal) : Bool :=
  let digits := (Nat.toDigits 10 d.mantissa.natAbs).length
  if d.mantissa = 0 ∨ digits + d.exponent < 300 then true
  else if 310 < digits + d.exponent then false
  else
    decide (d.mantissa.natAbs * Nat.pow 10 d.exponent.toNat <
      doubleBound * Nat.pow 10 (-d.exponent).toNat)

end Decimal

end RobotAnalysis.Toml
