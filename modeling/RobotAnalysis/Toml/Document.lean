import RobotAnalysis.Toml.Moment
import RobotAnalysis.Toml.Quoted
import RobotAnalysis.Toml.Table

/-!
# Configuration files

Reads the text of a configuration file. A line is an entry, a header or empty, and may end with a
comment; lists and tables between braces may run over several lines. Values stand inside each other
at most `maxDepth` deep. Loops go on only with a shorter rest of the text, so reading always ends.
-/
namespace RobotAnalysis.Toml

namespace Scalar

/-- The words that are values. -/
def words : List (String × Scalar) :=
  [("true", .flag true), ("false", .flag false), ("inf", .nonfinite), ("+inf", .nonfinite),
    ("-inf", .nonfinite), ("nan", .nonfinite), ("+nan", .nonfinite), ("-nan", .nonfinite)]

/-- The value that an unquoted text writes. -/
def ofBare? (t : Text) : Option Scalar :=
  (words.lookup (String.ofList t)).or
    (((Number.integer? t).map integer).or
      (((Number.decimal? t).map decimal).or
        (if Moment.isMoment t then some moment else none)))

/-- Characters that end an unquoted value. -/
def endsBare (c : Char) : Bool :=
  [' ', '\t', '\r', '\n', ',', '[', ']', '{', '}', '#', '=', '"', '\''].contains c

/-- The unquoted text at the start of a text, and the rest. One space may join a date and a time. -/
def splitBare (t : Text) : Text × Text :=
  let bare := t.takeWhile fun c => !endsBare c
  let rest := t.dropWhile fun c => !endsBare c
  match rest with
  | ' ' :: c :: u =>
    if Moment.isDate bare && CharClass.isDigit c then
      (bare ++ ' ' :: (c :: u).takeWhile fun c => !endsBare c,
        (c :: u).dropWhile fun c => !endsBare c)
    else (bare, rest)
  | _ => (bare, rest)

/-- The value without parts at the start of a text, and the rest. -/
def read? (t : Text) : Option (Value × Text) :=
  match t with
  | '"' :: _ | '\'' :: _ => (Quoted.string? t).map fun (s, rest) => (.scalar (.text s), rest)
  | _ =>
    let (bare, rest) := splitBare t
    (ofBare? bare).map fun s => (.scalar s, rest)

end Scalar

namespace Grammar

/-- How deep lists and tables between braces may stand inside each other, and how many tables a key
may lead through. -/
def maxDepth : Nat := 80

/-- The text without spaces and tabs at its start. -/
def skipBlanks (t : Text) : Text := t.dropWhile fun c => c == ' ' || c == '\t'

/-- The text after the end of the line, before which blanks and a comment may stand. -/
def afterLine? (t : Text) : Option Text :=
  let rest :=
    match skipBlanks t with
    | '#' :: u => u.dropWhile Quoted.isPlain
    | u => u
  if rest.isEmpty then some [] else Quoted.afterBreak? rest

/-- The text without blanks, comments and line breaks at its start. -/
def skipFiller (t : Text) : Text :=
  match afterLine? t with
  | some rest => if rest.length < t.length then skipFiller rest else t
  | none => skipBlanks t
termination_by t.length

/-- Characters of keys without quotes. -/
def isKeyChar (c : Char) : Bool := c.isAlphanum || c == '_' || c == '-'

/-- The part of a key at the start of a text, and the rest. -/
def keyPart? (t : Text) : Option (Text × Text) :=
  match t with
  | '"' :: u => Quoted.basic? u
  | '\'' :: u => Quoted.literal? u
  | _ =>
    let name := t.takeWhile isKeyChar
    if name.isEmpty then none else some (name, t.dropWhile isKeyChar)

/-- The parts of a key at the start of a text, and the rest without blanks. -/
def keyParts? (t : Text) : Option (Key × Text) :=
  match keyPart? t with
  | none => none
  | some (part, rest) =>
    match skipBlanks rest with
    | '.' :: u =>
      let next := skipBlanks u
      if next.length < t.length then
        (keyParts? next).map fun (key, rest) => ({ key with path := part :: key.path }, rest)
      else none
    | u => some (⟨[], part⟩, u)
termination_by t.length

/-- The key at the start of a text, and the rest without blanks. -/
def key? (t : Text) : Option (Key × Text) :=
  (keyParts? t).filter fun (key, _) => decide (key.path.length < maxDepth)

/-- The text after a given first character. -/
def after? (c : Char) (t : Text) : Option Text := Moment.after? c t

/-- The entry at the start of a text whose value some reader reads, and the rest. -/
def assignment? (value : Text → Option (Value × Text)) (t : Text) : Option ((Key × Value) × Text) := do
  let (key, rest) ← key? t
  let rest ← after? '=' rest
  let (v, rest) ← value (skipBlanks rest)
  return ((key, v), rest)

/-- The items up to a closing character, with commas between them and perhaps one after them, and
the rest of the text. -/
def items? {α : Type} (item : Text → Option (α × Text)) (close : Char) (t : Text) :
    Option (List α × Text) :=
  let start := skipFiller t
  match after? close start with
  | some rest => some ([], rest)
  | none =>
    match item start with
    | none => none
    | some (a, rest) =>
      let rest := skipFiller rest
      match after? close rest, after? ',' rest with
      | some rest, _ => some ([a], rest)
      | none, some rest =>
        if rest.length < t.length then
          (items? item close rest).map fun (as, rest) => (a :: as, rest)
        else none
      | none, none => none
termination_by t.length

/-- The value at the start of a text, with at most `depth` lists and tables inside each other, and
the rest. -/
def value? : Nat → Text → Option (Value × Text)
  | 0, t => if t.head? == some '[' || t.head? == some '{' then none else Scalar.read? t
  | depth + 1, t =>
    match t with
    | '[' :: u => (items? (value? depth) ']' u).map fun (vs, rest) => (.list false vs, rest)
    | '{' :: u => do
      let (entries, rest) ← items? (assignment? (value? depth)) '}' u
      let table ← (Table.empty .braces).insertAll? entries
      return (.ofTable table, rest)
    | _ => Scalar.read? t

end Grammar

/-- A line that is not empty. -/
inductive Statement
  | entry (key : Key) (value : Value)
  /-- A header in brackets. -/
  | header (key : Key)
  /-- A header in double brackets. -/
  | elementHeader (key : Key)
  deriving Repr

namespace Statement

def isHeader : Statement → Bool
  | .entry _ _ => false
  | .header _ | .elementHeader _ => true

def assigned? : Statement → Option (Key × Value)
  | .entry key value => some (key, value)
  | .header _ | .elementHeader _ => none

/-- The statement at the start of a text, and the rest. -/
def read? (t : Text) : Option (Statement × Text) :=
  match t with
  | '[' :: '[' :: u => do
    let (key, rest) ← Grammar.key? (Grammar.skipBlanks u)
    let rest ← (Grammar.after? ']' rest).bind (Grammar.after? ']')
    return (.elementHeader key, rest)
  | '[' :: u => do
    let (key, rest) ← Grammar.key? (Grammar.skipBlanks u)
    let rest ← Grammar.after? ']' rest
    return (.header key, rest)
  | _ =>
    (Grammar.assignment? (Grammar.value? Grammar.maxDepth) t).map fun ((key, v), rest) =>
      (.entry key v, rest)

/-- The statements of a text. -/
def readAll? (t : Text) : Option (List Statement) :=
  if t.isEmpty then some []
  else
    match Grammar.afterLine? t with
    | some rest => if rest.length < t.length then readAll? rest else none
    | none =>
      match read? (Grammar.skipBlanks t) with
      | none => none
      | some (s, rest) =>
        match Grammar.afterLine? rest with
        | none => none
        | some rest =>
          if rest.length < t.length then (readAll? rest).map (s :: ·) else none
termination_by t.length

/-- Adds a header with the entries below it to a table. -/
def addTo? (t : Table) (header : Statement) (below : List Statement) : Option Table :=
  let entries := below.filterMap assigned?
  match header with
  | .header key => t.addTable? key entries
  | .elementHeader key => t.addElement? key entries
  | .entry key v => t.insert? key v

/-- The table that statements fill. -/
def table? (statements : List Statement) : Option Table := do
  let (before, groups) := Sequence.groupAt isHeader statements
  let root ← (Table.empty .header).insertAll? (before.filterMap assigned?)
  groups.foldlM (fun t g => addTo? t g.1 g.2) root

end Statement

/-- The mark of the encoding that may stand before a text. -/
def byteOrderMark : Char := Char.ofNat 0xFEFF

/-- The table that a text describes, nothing where it breaks a rule. -/
def read? (t : Text) : Option Table :=
  let t := if t.head? == some byteOrderMark then t.drop 1 else t
  (Statement.readAll? t).bind Statement.table?

end RobotAnalysis.Toml
