import RobotAnalysis.Text.Basic
import RobotAnalysis.Text.CharClass

/-!
# Case mappings

Lowercase and uppercase map one character to one or more; folding maps one character to one and is
what makes two letters equal up to case. A capital sigma at the end of a word is the one character
whose lowercase depends on its neighbours, and only `Text.lowerInContext` looks at them.
-/
namespace RobotAnalysis

namespace CaseMap

/-- The lowercase of a character taken by itself. -/
def lower (c : Char) : Text :=
  if c = 'İ' then ['i', Char.ofNat 0x307]
  else
    match Shift.image? CharTable.toLower c.toNat with
    | some n => [Char.ofNat n]
    | none => [c]

/-- The uppercase of a character. -/
def upper (c : Char) : Text :=
  match Shift.image? CharTable.toUpper c.toNat with
  | some n => [Char.ofNat n]
  | none =>
    match CharTable.toUpperMany.lookup c.toNat with
    | some ns => ns.map Char.ofNat
    | none => [c]

/-- The character that stands for all characters equal to this one up to case. -/
def fold (c : Char) : Char :=
  match Shift.image? CharTable.foldException c.toNat with
  | some n => Char.ofNat n
  | none =>
    match Shift.image? CharTable.toLower c.toNat with
    | some n => Char.ofNat n
    | none => c

/-- Whether two characters are equal up to case. -/
def same (c d : Char) : Bool := fold c == fold d

/-- The lowercase of an ASCII capital, any other character unchanged. -/
def lowerAscii (c : Char) : Char := c.toLower

end CaseMap

namespace Text

/-- Every character in lowercase, each taken by itself. -/
def lower (t : Text) : Text := t.flatMap CaseMap.lower

/-- Whether the next character that is not case-ignorable has a case. -/
def casedNext (t : Text) : Bool :=
  match t.dropWhile CharClass.isCaseIgnorable with
  | [] => false
  | c :: _ => CharClass.isCased c

/-- Every character in lowercase, with the final form of a sigma that ends a word. -/
def lowerInContext (t : Text) : Text := go [] t
where
  /-- Lowercase of the rest; `before` holds the characters already passed, the last one first. -/
  go (before : Text) : Text → Text
    | [] => []
    | c :: t =>
      if c = 'Σ' then
        (if casedNext before && !casedNext t then 'ς' else 'σ') :: go (c :: before) t
      else CaseMap.lower c ++ go (c :: before) t

/-- Equality of texts up to the case of ASCII letters. -/
def sameAscii (s t : Text) : Bool := s.map CaseMap.lowerAscii == t.map CaseMap.lowerAscii

end Text

end RobotAnalysis
