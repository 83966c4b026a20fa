import RobotAnalysis.Text.Basic

/-!
# Tokens

A document is a run of words, the blanks between them and line breaks. Only two things are decided
here: a single space stays inside a cell, and any longer run of spaces and tabs, or a run with a tab
in it, separates cells. Every token is as long as its class allows, and the texts of the tokens
concatenate to the document.
-/
namespace RobotAnalysis

/-- What a token is. -/
inductive TokenKind
  /-- A run of characters that are neither blanks nor line breaks. -/
  | word
  /-- One space between other characters. -/
  | space
  /-- Two or more blanks, or a blank run with a tab. -/
  | separator
  /-- A line feed, with the carriage return before it if there is one. -/
  | newline
  /-- A carriage return that no line feed follows; it is read as a word. -/
  | stray
  deriving DecidableEq, Repr

/-- A piece of a document that is not divided further. -/
structure Token where
  kind : TokenKind
  text : Text
  deriving DecidableEq, Repr

namespace TokenKind

/-- Tokens that carry no cell content. -/
def isTrivia : TokenKind → Bool
  | .space | .separator | .newline => true
  | .word | .stray => false

end TokenKind

namespace Token

def isTrivia (t : Token) : Bool := t.kind.isTrivia

/-- The concatenated texts of tokens. -/
def textOf (ts : List Token) : Text := ts.flatMap Token.text

def sizeOf (ts : List Token) : Nat := (textOf ts).byteSize

/-- The characters of separators. -/
def isGap (c : Char) : Bool := c == ' ' || c == '\t'

/-- The characters of words. -/
def isWordChar (c : Char) : Bool := !isGap c && c != '\n' && c != '\r'

/-- The token that begins with the character `c`, and what follows it in `c :: t`. -/
def scan (c : Char) (t : Text) : Token × Text :=
  if c = '\n' then (⟨.newline, [c]⟩, t)
  else if c = '\r' then
    match t with
    | '\n' :: rest => (⟨.newline, ['\r', '\n']⟩, rest)
    | _ => (⟨.stray, ['\r']⟩, t)
  else if isGap c then
    let run := c :: t.takeWhile isGap
    (⟨if run = [' '] then .space else .separator, run⟩, t.dropWhile isGap)
  else (⟨.word, c :: t.takeWhile isWordChar⟩, t.dropWhile isWordChar)

/-- Scanning divides the text in two. -/
theorem text_append_scan (c : Char) (t : Text) :
    (scan c t).1.text ++ (scan c t).2 = c :: t := by
  unfold scan
  split
  · rfl
  · split
    · next h => subst h; split <;> rfl
    · split <;> simp [List.takeWhile_append_dropWhile]

theorem text_scan_ne_nil (c : Char) (t : Text) : (scan c t).1.text ≠ [] := by
  unfold scan
  split
  · simp
  · split
    · split <;> simp
    · split <;> simp

theorem length_scan_lt (c : Char) (t : Text) : (scan c t).2.length < t.length + 1 := by
  have whole := congrArg List.length (text_append_scan c t)
  have pos := List.length_pos_iff.2 (text_scan_ne_nil c t)
  simp only [List.length_append, List.length_cons] at whole
  omega

end Token

/-- The tokens of a document, in order. -/
def tokenize : Text → List Token
  | [] => []
  | c :: t =>
    let scanned := Token.scan c t
    scanned.1 :: tokenize scanned.2
termination_by t => t.length
decreasing_by exact Token.length_scan_lt c t

@[simp] theorem tokenize_nil : tokenize [] = [] := by
  rw [tokenize]

/-- Nothing is lost: the tokens of a text spell it. -/
theorem textOf_tokenize (t : Text) : Token.textOf (tokenize t) = t := by
  fun_induction tokenize t with
  | case1 => rfl
  | case2 c t scanned ih =>
    have whole := Token.text_append_scan c t
    simp only [Token.textOf, List.flatMap_cons] at ih ⊢
    rw [ih, whole]

namespace Token

/-- Tokens with the offset at which each begins, the first one at `offset`. -/
def locate (offset : Nat) : List Token → List (Nat × Token)
  | [] => []
  | t :: ts => (offset, t) :: locate (offset + t.text.byteSize) ts

end Token

end RobotAnalysis
