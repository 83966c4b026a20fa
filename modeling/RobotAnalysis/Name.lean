import RobotAnalysis.Text.CaseMap
import RobotAnalysis.Text.Trim

/-!
# Keyword names

A keyword may be named like a function, `go_to_page` or `goToPage`, or in words. `ofFunction` turns
the first form into the second; `key` is the form in which two names are the same keyword.
-/
namespace RobotAnalysis.Name

open CharClass (isUpper isLower isDigit isNameBlank continuesIdentifier)

/-- Whether a word begins between two neighbouring characters of an identifier. -/
def isBoundary (before : Option Char) (c : Char) : Bool :=
  isUpper c && before.any fun b => isLower b || isDigit b

/-- The words of an identifier from some point on. `room` says whether a blank may be written here:
something is written already, and the last thing written is no blank. -/
def splitIdentifier (room : Bool) (before : Option Char) : Text → Text
  | [] => []
  | c :: t =>
    if c = '_' then
      if room then ' ' :: splitIdentifier false (some c) t else splitIdentifier false (some c) t
    else if isBoundary before c && room then ' ' :: c :: splitIdentifier true (some c) t
    else c :: splitIdentifier true (some c) t

/-- Only blanks are added between the words. -/
theorem mem_splitIdentifier {room : Bool} {before : Option Char} {t : Text} {c : Char}
    (h : c ∈ splitIdentifier room before t) : c = ' ' ∨ c ∈ t := by
  fun_induction splitIdentifier room before t with
  | case1 => cases h
  | case2 => grind
  | case3 => grind
  | case4 => grind
  | case5 => grind

/-- The words of a function name; a text that is no single identifier is only trimmed. -/
def ofFunction (name : Text) : Text :=
  let trimmed := name.trim
  if trimmed.isEmpty || !trimmed.all continuesIdentifier then trimmed
  else Text.trimEnd (splitIdentifier false none trimmed)

/-- The words of a name in lowercase, separated by single spaces. -/
def key (name : Text) : Text :=
  Text.joinWith ' ' ((Text.wordsBy isNameBlank name).map Text.lower)

/-- The function that a keyword is named after: its words joined by underscores. -/
def toFunction (name : Text) : Text := (key name).map fun c => if c = ' ' then '_' else c

/-- A text with the first letter of every word as a capital. -/
def capitalize (text : Text) : Text := go true text
where
  /-- The rest of a text; `atStart` says whether a word may begin here. -/
  go (atStart : Bool) : Text → Text
    | [] => []
    | c :: t =>
      let blank := CharClass.isBlank c
      (if atStart && !blank then CaseMap.upper c else [c]) ++ go blank t

end RobotAnalysis.Name
