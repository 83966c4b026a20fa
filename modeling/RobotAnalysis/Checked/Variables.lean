import RobotAnalysis.Checked.Operation
import RobotAnalysis.Symbol

/-!
# Variables among bytes

Variable tokens found by a scan of the UTF-8 form of a text, as their sigils, their braces and the
backslash are single bytes. Names and literal parts are then cut out of the text at the offsets that
the scan gives.
-/
namespace RobotAnalysis.Checked

/-- Whether a byte is the UTF-8 form of a character. -/
def spells (b : UInt8) (c : Char) : Bool := Char.ofUInt8 b == c

/-- Whether a byte is the UTF-8 form of a character that announces a variable. -/
def spellsSigil (b : UInt8) : Bool := VariableToken.isSigil (Char.ofUInt8 b)

/-- The place of the brace that closes the first of some bytes, if it is an open one; the first byte
has the place `index`, and before it `depth` braces are open. -/
def closing (index depth : Nat) : List UInt8 → Checked (Option Nat)
  | [] => some none
  | b :: bytes =>
    if spells b '{' then closing (index + 1) (depth + 1) bytes
    else if spells b '}' then
      match sub depth 1 with
      | none => none
      | some 0 => some (some index)
      | some (d + 1) => closing (index + 1) (d + 1) bytes
    else closing (index + 1) depth bytes

theorem le_of_closing {index depth stop : Nat} {bytes : List UInt8}
    (h : closing index depth bytes = some (some stop)) : index ≤ stop := by
  fun_induction closing index depth bytes with
  | case1 => cases h
  | case2 _ _ _ _ _ ih => exact Nat.le_of_succ_le (ih h)
  | case3 => cases h
  | case4 => cases h; exact Nat.le_refl _
  | case5 _ _ _ _ _ _ _ _ ih => exact Nat.le_of_succ_le (ih h)
  | case6 _ _ _ _ _ _ ih => exact Nat.le_of_succ_le (ih h)

/-- Whether the byte at a place has a backslash before it. -/
def isEscaped (bytes : List UInt8) (place : Nat) : Checked Bool :=
  if place = 0 then some false
  else do
    let before ← bytes[← sub place 1]?
    return spells before '\\'

/-- Whether a variable may begin at a place: a sigil and an open brace, without a backslash. -/
def opensAt (bytes : List UInt8) (place : Nat) : Checked Bool := do
  let escaped ← isEscaped bytes place
  let sigil ← bytes[place]?
  let brace ← bytes[place + 1]?
  return spellsSigil sigil && spells brace '{' && !escaped

/-- The variable tokens among some bytes from a place on. -/
def spansFrom (bytes : List UInt8) (place : Nat) : Checked (List Span) :=
  if place + 1 < bytes.length then
    match opensAt bytes place with
    | none => none
    | some false => spansFrom bytes (place + 1)
    | some true =>
      match _found : closing (place + 1) 0 (bytes.drop (place + 1)) with
      | none => none
      | some none => spansFrom bytes (place + 1)
      | some (some stop) => do
        let token ← range (← word place) (← word (stop + 1))
        return token :: (← spansFrom bytes (stop + 1))
  else some []
termination_by bytes.length - place
decreasing_by
  · omega
  · omega
  · have := le_of_closing _found
    omega

def spans (t : Text) : Checked (List Span) := spansFrom t.bytes 0

def isWholeCell (cell : Text) : Checked Bool := do
  let text := VariableToken.withoutAssignment cell
  match ← spans text with
  | [token] => return token.start == 0 && token.stop == text.byteSize
  | _ => return false

/-- What stands between the braces of a variable token. -/
def insideOf (token : Span) : Checked Span := do
  range (← add token.start 2) (← sub token.stop 1)

theorem start_of_insideOf {token inside : Span} (h : insideOf token = some inside) :
    inside.start = token.start + 2 := by
  simp only [insideOf, add, word, sub, range] at h
  grind [Span.between]

def innermostAt (text : Text) (offset : Nat) : Checked (Option Span) :=
  match spans text with
  | none => none
  | some tokens =>
    match tokens.find? fun s => s.touches offset with
    | none => some none
    | some outer =>
      match _inside : insideOf outer with
      | none => none
      | some inside =>
        if inside.size = 0 || !inside.touches offset then some (some outer)
        else
          match _piece : cut text inside with
          | none => none
          | some piece => do
            match ← innermostAt piece (← sub offset inside.start) with
            | some nested => return some (← shift inside.start nested)
            | none => return some outer
termination_by text.byteSize
decreasing_by
  have := start_of_insideOf _inside
  exact byteSize_lt_of_cut _piece (by omega)

/-- The same without the proofs that every inside is shorter. -/
theorem innermostAt_eq_bind (text : Text) (offset : Nat) :
    innermostAt text offset = do
      match (← spans text).find? fun s => s.touches offset with
      | none => return none
      | some outer =>
        let inside ← insideOf outer
        if inside.size = 0 || !inside.touches offset then return some outer
        else
          let piece ← cut text inside
          match ← innermostAt piece (← sub offset inside.start) with
          | some nested => return some (← shift inside.start nested)
          | none => return some outer := by
  rw [innermostAt]
  cases spans text with
  | none => rfl
  | some tokens =>
    simp only [Option.bind_eq_bind, Option.bind_some]
    cases tokens.find? fun s => s.touches offset with
    | none => rfl
    | some outer =>
      simp only
      split
      · rename_i outside
        rw [outside]
        rfl
      · rename_i inside found
        rw [found, Option.bind_some]
        split
        · rfl
        · split
          · rename_i refused
            rw [refused]
            rfl
          · rename_i piece cut
            rw [cut]
            rfl

def name (t : Text) : Checked Text :=
  if 3 ≤ t.bytes.length then do
    let sigil ← t.bytes[0]?
    let brace ← t.bytes[1]?
    if spellsSigil sigil && spells brace '{' && t.getLast? == some '}' then
      cutBetween t 2 (← sub t.byteSize 1)
    else return t
  else some t

/-- The atoms of a name from an offset on, where some variable tokens follow: those of the literal
parts between the tokens, and any text in place of a token. -/
def atomsFrom (literal : Text → List Atom) (name : Text) (offset : Nat) :
    List Span → Checked (List Atom)
  | [] => do return literal (← cutBetween name offset name.byteSize)
  | token :: tokens => do
    let part ← cutBetween name offset token.start
    return literal part ++ .gap :: (← atomsFrom literal name token.stop tokens)

def atoms (literal : Text → List Atom) (name : Text) : Checked (List Atom) := do
  atomsFrom literal name 0 (← spans name)

/-- The atoms of a text without variables as a part of the name of a keyword. -/
def keywordLiteral (t : Text) : List Atom := KeywordPattern.bodyOf false (t.map .char)

/-- The atoms of a text without variables as a part of the name of a variable. -/
def variableLiteral (t : Text) : List Atom := VariablePattern.bodyOf (t.map .char)

/-- The pattern of a keyword name. An empty qualifier is none. -/
def keywordPattern (qualifier : Option Text) (name : Text) : Checked KeywordPattern := do
  return ⟨qualifier.filter fun q => !q.isEmpty, ← atoms keywordLiteral name⟩

def variablePattern (t : Text) : Checked VariablePattern := do
  return ⟨.blanks :: (← atoms variableLiteral (← name t))⟩

/-- The keyword that a name declares; its pattern is made right away. -/
def declareKeyword (qualifier : Option Text) (name : Text) (takesArguments : Bool)
    (location : Location) : Checked Keyword := do
  let keyword := Keyword.declare qualifier name takesArguments location
  let _ ← keywordPattern qualifier keyword.name
  return keyword

/-- Whether a usage refers to a variable; the pattern is made for the first usage. -/
def isUsedBy (v : Variable) (text : Text) : Checked Bool := do
  return (← variablePattern v.text).accepts (VariableToken.withoutAssignment text.trim)

end RobotAnalysis.Checked
