import RobotAnalysis.Toml.Number

/-!
# Quoted strings

The four forms of a string: between double quotes with escapes, between single quotes without, and
both over several lines between three quotes. Every reader here starts after the opening quotes and
returns the text with what follows the closing ones.
-/
namespace RobotAnalysis.Toml.Quoted

/-- Characters of strings and comments: a tab, and whatever is no control character. -/
def isPlain (c : Char) : Bool := c == '\t' || (decide (' ' ≤ c) && c != '\x7f')

/-- The character whose code point is spelled by some hexadecimal digits after `n`. -/
def codePoint? (n : Nat) : Text → Option Char
  | [] => if n.isValidChar then some (Char.ofNat n) else none
  | c :: t => (Number.digitValue? 16 c).bind fun d => codePoint? (n * 16 + d) t

/-- The character that the first `width` characters of a text give the code point of, and the
rest. -/
def coded? (width : Nat) (t : Text) : Option (Char × Text) :=
  if t.length < width then none else (codePoint? 0 (t.take width)).map fun c => (c, t.drop width)

/-- The characters that a single letter or mark after a backslash stands for. -/
def marks : List (Char × Char) :=
  [('b', '\x08'), ('t', '\t'), ('n', '\n'), ('f', '\x0c'), ('r', '\r'), ('e', '\x1b'), ('"', '"'),
    ('\\', '\\')]

/-- The letters after which a code point follows, with its number of digits. -/
def widths : List (Char × Nat) := [('x', 2), ('u', 4), ('U', 8)]

/-- The character that an escape stands for, and the text after the escape. -/
def escaped? : Text → Option (Char × Text)
  | [] => none
  | c :: t =>
    match marks.lookup c with
    | some d => some (d, t)
    | none => (widths.lookup c).bind fun width => coded? width t

theorem length_le_of_coded? {width : Nat} {t r : Text} {c : Char}
    (h : coded? width t = some (c, r)) : r.length ≤ t.length := by
  unfold coded? at h
  split at h
  · cases h
  · obtain ⟨d, _, he⟩ := Option.map_eq_some_iff.1 h
    cases he
    simp

theorem length_le_of_escaped? {t r : Text} {c : Char}
    (h : escaped? t = some (c, r)) : r.length ≤ t.length := by
  cases t with
  | nil => simp [escaped?] at h
  | cons d t =>
    simp only [escaped?] at h
    split at h
    · cases h; simp
    · obtain ⟨width, _, hc⟩ := Option.bind_eq_some_iff.1 h
      have := length_le_of_coded? hc
      simp only [List.length_cons]
      omega

/-- The rest of a string between double quotes. -/
def basic? : Text → Option (Text × Text)
  | [] => none
  | c :: t =>
    if c = '"' then some ([], t)
    else if c = '\\' then
      match _found : escaped? t with
      | some (d, r) => (basic? r).map fun (body, rest) => (d :: body, rest)
      | none => none
    else if isPlain c then (basic? t).map fun (body, rest) => (c :: body, rest)
    else none
termination_by t => t.length
decreasing_by
  · have := length_le_of_escaped? _found
    simp only [List.length_cons]
    omega
  · simp

/-- The rest of a string between single quotes. -/
def literal? : Text → Option (Text × Text)
  | [] => none
  | c :: t =>
    if c = '\'' then some ([], t)
    else if isPlain c then (literal? t).map fun (body, rest) => (c :: body, rest)
    else none

/-- The text after a line break at its start. -/
def afterBreak? : Text → Option Text
  | '\n' :: t => some t
  | '\r' :: '\n' :: t => some t
  | _ => none

/-- The text without blanks and line breaks at its start. -/
def skipLines : Text → Text
  | ' ' :: t => skipLines t
  | '\t' :: t => skipLines t
  | '\n' :: t => skipLines t
  | '\r' :: '\n' :: t => skipLines t
  | t => t

/-- The text after a backslash at the end of a line, which takes the line break and all blanks after
it away. -/
def afterContinuation? (t : Text) : Option Text :=
  let t := t.dropWhile fun c => c == ' ' || c == '\t'
  (afterBreak? t).map fun _ => skipLines t

theorem length_skipLines_le (t : Text) : (skipLines t).length ≤ t.length := by
  fun_induction skipLines t <;> simp_all <;> omega

theorem length_le_of_afterContinuation? {t r : Text}
    (h : afterContinuation? t = some r) : r.length ≤ t.length := by
  obtain ⟨_, _, rfl⟩ := Option.map_eq_some_iff.1 h
  exact Nat.le_trans (length_skipLines_le _) (List.dropWhile_sublist _).length_le

/-- Up to two quotes that stand before the closing ones, and the text after all of them; the text
starts after three quotes. -/
def closing (quote : Char) : Text → Text × Text
  | c :: d :: t =>
    if c = quote then if d = quote then ([c, d], t) else ([c], d :: t) else ([], c :: d :: t)
  | [c] => if c = quote then ([c], []) else ([], [c])
  | [] => ([], [])

/-- Whether three quotes stand at the start of a text. -/
def closes (quote : Char) (t : Text) : Bool := [quote, quote, quote].isPrefixOf t

/-- The rest of a string between three double quotes. -/
def multilineBasic? : Text → Option (Text × Text)
  | [] => none
  | c :: t =>
    if closes '"' (c :: t) then some (closing '"' (t.drop 2))
    else if c = '\\' then
      match _line : afterContinuation? t with
      | some r => multilineBasic? r
      | none =>
        match _found : escaped? t with
        | some (d, r) => (multilineBasic? r).map fun (body, rest) => (d :: body, rest)
        | none => none
    else if isPlain c || (afterBreak? (c :: t)).isSome then
      (multilineBasic? t).map fun (body, rest) => (c :: body, rest)
    else none
termination_by t => t.length
decreasing_by
  · have := length_le_of_afterContinuation? _line
    simp only [List.length_cons]
    omega
  · have := length_le_of_escaped? _found
    simp only [List.length_cons]
    omega
  · simp

/-- The rest of a string between three single quotes. -/
def multilineLiteral? : Text → Option (Text × Text)
  | [] => none
  | c :: t =>
    if closes '\'' (c :: t) then some (closing '\'' (t.drop 2))
    else if isPlain c || (afterBreak? (c :: t)).isSome then
      (multilineLiteral? t).map fun (body, rest) => (c :: body, rest)
    else none

/-- The text without the line break right after the opening quotes. -/
def withoutFirstBreak (t : Text) : Text := (afterBreak? t).getD t

/-- The string at the start of a text, opening quotes included, and what follows it. -/
def string? : Text → Option (Text × Text)
  | '"' :: '"' :: '"' :: t => multilineBasic? (withoutFirstBreak t)
  | '\'' :: '\'' :: '\'' :: t => multilineLiteral? (withoutFirstBreak t)
  | '"' :: t => basic? t
  | '\'' :: t => literal? t
  | _ => none

end RobotAnalysis.Toml.Quoted
