import RobotAnalysis.Text.Trim

/-!
# Variable tokens

A variable in a cell is a sigil, a brace and everything up to the brace that closes it, as in
`Hello ${name}!`. A backslash before the sigil takes its meaning away, and so does a missing closing
brace. `pieces` cuts a text into its outermost variable tokens and the characters around them.
-/
namespace RobotAnalysis

namespace VariableToken

/-- The characters that announce a variable when a brace follows. -/
def isSigil (c : Char) : Bool := c == '$' || c == '@' || c == '&' || c == '%'

/-- The text up to the brace that closes an open one, that brace included, and the rest. Inside the
open brace `depth` further ones are open. -/
def closing? (depth : Nat) : Text → Option (Text × Text)
  | [] => none
  | c :: t =>
    if c = '{' then (closing? (depth + 1) t).map fun (body, rest) => (c :: body, rest)
    else if c = '}' then
      match depth with
      | 0 => some ([c], t)
      | d + 1 => (closing? d t).map fun (body, rest) => (c :: body, rest)
    else (closing? depth t).map fun (body, rest) => (c :: body, rest)

theorem append_of_closing? {depth : Nat} {t body rest : Text}
    (h : closing? depth t = some (body, rest)) : t = body ++ rest := by
  induction t generalizing depth body rest with
  | nil => simp [closing?] at h
  | cons c t ih =>
    unfold closing? at h
    split at h
    · obtain ⟨⟨b, r⟩, hb, he⟩ := Option.map_eq_some_iff.1 h
      cases he
      simp [ih hb]
    · split at h
      · split at h
        · cases h; rfl
        · obtain ⟨⟨b, r⟩, hb, he⟩ := Option.map_eq_some_iff.1 h
          cases he
          simp [ih hb]
      · obtain ⟨⟨b, r⟩, hb, he⟩ := Option.map_eq_some_iff.1 h
        cases he
        simp [ih hb]

/-- The variable token at the start of a text, and the text after it. -/
def atStart? : Text → Option (Text × Text)
  | c :: '{' :: t =>
    if isSigil c then (closing? 0 t).map fun (body, rest) => (c :: '{' :: body, rest) else none
  | _ => none

theorem append_of_atStart? {t token rest : Text} (h : atStart? t = some (token, rest)) :
    t = token ++ rest := by
  unfold atStart? at h
  split at h
  · split at h
    · obtain ⟨⟨b, r⟩, hb, he⟩ := Option.map_eq_some_iff.1 h
      cases he
      simp [append_of_closing? hb]
    · cases h
  · cases h

theorem two_le_length_of_atStart? {t token rest : Text} (h : atStart? t = some (token, rest)) :
    2 ≤ token.length := by
  unfold atStart? at h
  split at h
  · split at h
    · obtain ⟨⟨b, r⟩, _, he⟩ := Option.map_eq_some_iff.1 h
      cases he
      simp
    · cases h
  · cases h

/-- A variable token, or a character outside all of them. -/
inductive Piece
  | char (c : Char)
  | token (t : Text)
  deriving DecidableEq, Repr

namespace Piece

def text : Piece → Text
  | .char c => [c]
  | .token t => t

end Piece

/-- The token at the start of a text, unless a backslash before the text takes its meaning away. -/
def unescaped? (escaped : Bool) (t : Text) : Option (Text × Text) :=
  if escaped then none else atStart? t

theorem length_lt_of_unescaped? {escaped : Bool} {t token rest : Text}
    (h : unescaped? escaped t = some (token, rest)) : rest.length < t.length := by
  unfold unescaped? at h
  split at h
  · cases h
  · have whole := congrArg List.length (append_of_atStart? h)
    have long := two_le_length_of_atStart? h
    simp only [List.length_append] at whole
    omega

/-- The pieces of a text; `escaped` says whether a backslash stands before it. -/
def piecesAfter (escaped : Bool) : Text → List Piece
  | [] => []
  | c :: t =>
    match _found : unescaped? escaped (c :: t) with
    | some (token, rest) => .token token :: piecesAfter false rest
    | none => .char c :: piecesAfter (c == '\\') t
termination_by t => t.length
decreasing_by
  · exact length_lt_of_unescaped? _found
  · simp

def pieces (t : Text) : List Piece := piecesAfter false t

/-- The pieces of a text spell it. -/
theorem flatMap_text_piecesAfter (escaped : Bool) (t : Text) :
    (piecesAfter escaped t).flatMap Piece.text = t := by
  fun_induction piecesAfter escaped t with
  | case1 => rfl
  | case2 escaped c t token rest found ih =>
    have live : atStart? (c :: t) = some (token, rest) := by
      unfold unescaped? at found
      split at found
      · cases found
      · exact found
    rw [List.flatMap_cons, ih, append_of_atStart? live]
    rfl
  | case3 escaped c t found ih => simp [ih, Piece.text]

end VariableToken

/-- A variable token of a text and the bytes it covers. -/
structure VariableToken where
  span : Span
  text : Text
  deriving DecidableEq, Repr

namespace VariableToken

/-- The variable tokens among some pieces, of which the first begins at `offset`. -/
def locate (offset : Nat) : List Piece → List VariableToken
  | [] => []
  | .char c :: ps => locate (offset + c.utf8Size) ps
  | .token t :: ps => ⟨⟨offset, t.byteSize⟩, t⟩ :: locate (offset + t.byteSize) ps

/-- The outermost variable tokens of a text, in order. -/
def all (t : Text) : List VariableToken := locate 0 (pieces t)

/-- A cell without the equals signs that mark an assignment. -/
def withoutAssignment (cell : Text) : Text :=
  Text.trimEnd (Sequence.dropTrailing (· == '=') cell.trimEnd)

/-- Whether a cell is one variable, with or without the mark of an assignment. -/
def isWholeCell (cell : Text) : Bool :=
  match pieces (withoutAssignment cell) with
  | [.token _] => true
  | _ => false

/-- What stands between the braces of a variable; any other text is its own name. -/
def name (t : Text) : Text :=
  match t with
  | c :: '{' :: r => if isSigil c && r.getLast? == some '}' then r.dropLast else t
  | _ => t

end VariableToken

end RobotAnalysis
