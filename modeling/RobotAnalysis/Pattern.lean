import RobotAnalysis.Text.CaseMap
import RobotAnalysis.VariableToken

/-!
# Name patterns

A declaration matches the texts that its pattern describes. A pattern is a sequence of atoms, read
against a whole text; letters match up to case. Atoms that take one character each are read off the
start of the text. From the first other atom on matching computes, for every rest of the text from its
end on, which rests of the pattern match it, so it takes no more steps than the product of both
lengths. The equations `accepts_nil`, `accepts_cons_nil` and `accepts_cons_cons` say what both
together compute.
-/
namespace RobotAnalysis

/-- A step of a pattern. -/
inductive Atom
  /-- One character, up to case. -/
  | char (c : Char)
  /-- One of some characters that have no case. -/
  | oneOf (cs : List Char)
  /-- One or more blanks of a name. -/
  | blankRun
  /-- Any number of blanks of a name. -/
  | blanks
  /-- Any text without a line feed. -/
  | gap
  deriving DecidableEq, Repr

namespace Atom

/-- Whether an atom can take a character. -/
def takes : Atom → Char → Bool
  | .char d, c => CaseMap.same d c
  | .oneOf cs, c => cs.contains c
  | .blankRun, c => CharClass.isNameBlank c
  | .blanks, c => CharClass.isNameBlank c
  | .gap, c => c != '\n'

/-- Whether an atom can take more than one character. -/
def repeats : Atom → Bool
  | .blankRun | .blanks | .gap => true
  | .char _ | .oneOf _ => false

/-- Whether an atom can take nothing. -/
def skips : Atom → Bool
  | .blanks | .gap => true
  | .char _ | .oneOf _ | .blankRun => false

/-- For every rest of a pattern, the whole first and the empty one last, whether it matches the empty
text. -/
def rowAtEnd : List Atom → List Bool
  | [] => [true]
  | a :: as =>
    let rest := rowAtEnd as
    (a.skips && rest.headD false) :: rest

/-- For every rest of a pattern whether it matches a text that begins with `c`, from the same about
the text after `c`. -/
def rowBefore (c : Char) : List Atom → List Bool → List Bool
  | [], _ => [false]
  | a :: as, after =>
    let rest := rowBefore c as after.tail
    (((after.tail.headD false || (a.repeats && after.headD false)) && a.takes c) ||
      (a.skips && rest.headD false)) :: rest

/-- For every rest of a pattern whether it matches a text. -/
def row (as : List Atom) : Text → List Bool
  | [] => rowAtEnd as
  | c :: t => rowBefore c as (row as t)

/-- Whether a pattern matches a whole text. -/
def accepts : List Atom → Text → Bool
  | a :: as, c :: t =>
    if a.repeats || a.skips then (row (a :: as) (c :: t)).headD false
    else a.takes c && accepts as t
  | as, t => (row as t).headD false

/-- An atom adds one entry in front of the row of the atoms after it. -/
theorem tail_row_cons (a : Atom) (as : List Atom) (t : Text) : (row (a :: as) t).tail = row as t := by
  induction t with
  | nil => simp [row, rowAtEnd]
  | cons c t ih => simp only [row, rowBefore, ih, List.tail_cons]

theorem headD_row_cons_cons (a : Atom) (as : List Atom) (c : Char) (t : Text) :
    (row (a :: as) (c :: t)).headD false =
      ((a.takes c && ((row as t).headD false || (a.repeats && (row (a :: as) t).headD false))) ||
        (a.skips && (row as (c :: t)).headD false)) := by
  rw [Bool.and_comm (a.takes c)]
  simp only [row, rowBefore, tail_row_cons, List.headD_cons]

/-- Reading an atom off the start of the text agrees with the row. -/
theorem accepts_eq_headD_row (as : List Atom) (t : Text) :
    accepts as t = (row as t).headD false := by
  fun_induction accepts as t with
  | case1 => rfl
  | case2 a as c t single ih =>
    have once : a.repeats = false ∧ a.skips = false := by simpa using single
    rw [ih, headD_row_cons_cons, once.1, once.2]
    simp
  | case3 => rfl

@[simp] theorem accepts_nil (t : Text) : accepts [] t = t.isEmpty := by
  cases t <;> simp [accepts, row, rowAtEnd, rowBefore]

@[simp] theorem accepts_cons_nil (a : Atom) (as : List Atom) :
    accepts (a :: as) [] = (a.skips && accepts as []) := by
  simp [accepts_eq_headD_row, row, rowAtEnd]

theorem accepts_cons_cons (a : Atom) (as : List Atom) (c : Char) (t : Text) :
    accepts (a :: as) (c :: t) =
      ((a.takes c && (accepts as t || (a.repeats && accepts (a :: as) t))) ||
        (a.skips && accepts as (c :: t))) := by
  simp only [accepts_eq_headD_row, headD_row_cons_cons]

/-- Characters that have a meaning of their own in a written pattern. -/
def isSpecial (c : Char) : Bool :=
  ['\\', '.', '+', '*', '?', '(', ')', '|', '[', ']', '{', '}', '^', '$', '#', '&', '-', '~'].contains c

/-- A character as it is written in a pattern. -/
def written (c : Char) : Text := if isSpecial c then ['\\', c] else [c]

/-- An atom as it is written in a pattern. -/
def text : Atom → Text
  | .char c => written c
  | .oneOf cs => '[' :: cs.flatMap written ++ [']']
  | .blankRun => "[\\s_]+".toList
  | .blanks => "[\\s_]*".toList
  | .gap => ".*?".toList

end Atom

/-- What calls of a keyword look like: its name, with or without the name of its library before it. -/
structure KeywordPattern where
  qualifier : Option Text
  body : List Atom
  deriving DecidableEq, Repr

namespace KeywordPattern

/-- The atoms of a keyword name: a run of blanks matches any other, and a variable any text.
`inBlanks` says whether a run of blanks is already open. -/
def bodyOf (inBlanks : Bool) : List VariableToken.Piece → List Atom
  | [] => []
  | .char c :: ps =>
    if CharClass.isNameBlank c then
      if inBlanks then bodyOf true ps else .blankRun :: bodyOf true ps
    else .char c :: bodyOf false ps
  | .token _ :: ps => .gap :: bodyOf false ps

/-- The literal before a variable is read for itself. -/
theorem bodyOf_append_token (inBlanks : Bool) (cs t : Text) (ps : List VariableToken.Piece) :
    bodyOf inBlanks (cs.map .char ++ .token t :: ps) =
      bodyOf inBlanks (cs.map .char) ++ .gap :: bodyOf false ps := by
  induction cs generalizing inBlanks with
  | nil => rfl
  | cons c cs ih =>
    rw [List.map_cons, List.cons_append, bodyOf, bodyOf]
    split
    · split <;> simp [ih]
    · simp [ih]

/-- The pattern of a keyword name. An empty qualifier is none. -/
def ofName (qualifier : Option Text) (name : Text) : KeywordPattern :=
  ⟨qualifier.filter fun q => !q.isEmpty, bodyOf false (VariableToken.pieces name)⟩

/-- The character between a qualifier and a name. -/
def separator : Char := '.'

/-- The atoms that a qualified name has before the atoms of the name. -/
def qualifierAtoms (qualifier : Text) : List Atom := qualifier.map .char ++ [.char separator]

/-- Whether a text is the name, qualified or not. -/
def accepts (p : KeywordPattern) (t : Text) : Bool :=
  Atom.accepts p.body t ||
    (p.qualifier.any fun q => Atom.accepts (qualifierAtoms q ++ p.body) t)

/-- The pattern as it is written. -/
def text (p : KeywordPattern) : Text :=
  let qualifier :=
    match p.qualifier with
    | some q => "(?:".toList ++ q.flatMap Atom.written ++ Atom.written separator ++ [')', '?']
    | none => []
  '^' :: qualifier ++ p.body.flatMap Atom.text ++ ['$']

end KeywordPattern

/-- What usages of a variable look like: any sigil, the name, an attribute or item inside the braces
and items after them. -/
structure VariablePattern where
  body : List Atom
  deriving DecidableEq, Repr

namespace VariablePattern

/-- The atoms of a variable name: blanks may stand anywhere, those of the name mean nothing, and a
nested variable matches any text. -/
def bodyOf : List VariableToken.Piece → List Atom
  | [] => []
  | .char c :: ps =>
    if CharClass.isNameBlank c then bodyOf ps else .char c :: .blanks :: bodyOf ps
  | .token _ :: ps => .gap :: bodyOf ps

def ofDeclaration (t : Text) : VariablePattern :=
  ⟨.blanks :: bodyOf (VariableToken.pieces (VariableToken.name t))⟩

/-- The characters that may stand before the brace. -/
def sigils : List Char := ['$', '@', '&', '%']

/-- What may follow the name inside the braces: nothing, an attribute or an item. -/
def accesses : List (List Atom) := [[], [.oneOf ['.', '['], .gap]]

/-- What may follow the braces: nothing, or items. Several items are as much as one, since a gap
matches the brackets between them. -/
def items : List (List Atom) := [[], [.char '[', .gap, .char ']']]

/-- Whether a text uses the variable. -/
def accepts (p : VariablePattern) (t : Text) : Bool :=
  accesses.any fun access => items.any fun item =>
    Atom.accepts (.oneOf sigils :: .char '{' :: p.body ++ access ++ .char '}' :: item) t

def text (p : VariablePattern) : Text :=
  "^[$@&%]\\\x7b".toList ++ p.body.flatMap Atom.text ++
    "(?:[.\\[].*)?\\\x7d(?:\\[.*\\])*$".toList

end VariablePattern

end RobotAnalysis
