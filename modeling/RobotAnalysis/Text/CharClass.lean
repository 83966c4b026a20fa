import RobotAnalysis.Text.CharTable

/-!
# Character classes

The classes of characters that names and cells are read by, each a look-up in the table of its
property.
-/
namespace RobotAnalysis.CharClass

/-- White space of any script; line breaks and the no-break space belong to it. -/
def isBlank (c : Char) : Bool := Run.anyHolds CharTable.whiteSpace c.toNat

/-- A blank inside a keyword or variable name, where an underscore counts as one. -/
def isNameBlank (c : Char) : Bool := isBlank c || c == '_'

/-- A character that may stand in an identifier after the first place. -/
def continuesIdentifier (c : Char) : Bool := Run.anyHolds CharTable.identifierContinue c.toNat

def isUpper (c : Char) : Bool := Run.anyHolds CharTable.uppercase c.toNat

def isLower (c : Char) : Bool := Run.anyHolds CharTable.lowercase c.toNat

def isCased (c : Char) : Bool := Run.anyHolds CharTable.cased c.toNat

/-- A character that is passed over when the end of a word is looked for. -/
def isCaseIgnorable (c : Char) : Bool := Run.anyHolds CharTable.caseIgnorable c.toNat

/-- A digit from `0` to `9`. -/
def isDigit (c : Char) : Bool := decide ('0' ≤ c) && decide (c ≤ '9')

theorem isNameBlank_of_isBlank {c : Char} (h : isBlank c = true) : isNameBlank c = true := by
  simp [isNameBlank, h]

end RobotAnalysis.CharClass
