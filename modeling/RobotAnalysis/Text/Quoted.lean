import RobotAnalysis.Text.Basic
import RobotAnalysis.Text.CharTable

/-!
# Quoted texts

A text between double quotes, on one line and free of characters that cannot be seen. The common
controls have an escape of their own; any other character of the table `CharTable.unprinted` is
shown by its code point.
-/
namespace RobotAnalysis.Text

/-- The digits of a number in base sixteen, the small letters after nine. -/
def hexadecimal (n : Nat) : Text := Nat.toDigits 16 n

/-- A character as it stands between quotes. -/
def escape (c : Char) : Text :=
  match c with
  | '\x00' => ['\\', '0']
  | '\t' => ['\\', 't']
  | '\n' => ['\\', 'n']
  | '\r' => ['\\', 'r']
  | '"' => ['\\', '"']
  | '\\' => ['\\', '\\']
  | c =>
    if Run.anyHolds CharTable.unprinted c.toNat then
      '\\' :: 'u' :: '{' :: hexadecimal c.toNat ++ ['}']
    else [c]

/-- A text between double quotes. -/
def quoted (t : Text) : Text := '"' :: t.flatMap escape ++ ['"']

example : quoted ['a', '"', '\n'] = ['"', 'a', '\\', '"', '\\', 'n', '"'] := by decide

end RobotAnalysis.Text
