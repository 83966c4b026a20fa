import RobotAnalysis.Toml.Number

/-!
# Tables

A configuration file is a table of values, filled by entries and headers. How a table came about
decides what may still be added to it: a header may claim a table that longer headers only implied,
a dotted key may extend only what no header has claimed, and a table between braces is complete. No
key is ever given a value twice.
-/
namespace RobotAnalysis.Toml

/-- A value without parts. -/
inductive Scalar
  | text (t : Text)
  | flag (b : Bool)
  | integer (n : Int)
  | decimal (d : Decimal)
  /-- An infinity, or what is not a number. -/
  | nonfinite
  /-- A date, a time or both. -/
  | moment
  deriving DecidableEq, Repr

/-- How a table came about. -/
inductive Origin
  /-- By its own header, or as the table of the whole file. -/
  | header
  /-- By the header of a table inside it. -/
  | implied
  /-- By a dotted key. -/
  | dotted
  /-- Between braces. -/
  | braces
  deriving DecidableEq, Repr

/-- A value of a configuration file. -/
inductive Value
  | scalar (s : Scalar)
  /-- A list. Headers in double brackets may add to a list that they have begun. -/
  | list (isOpen : Bool) (items : List Value)
  | table (origin : Origin) (entries : List (Text × Value))
  deriving Repr

/-- A key with the keys of the tables around it, which dots separate. -/
structure Key where
  path : List Text
  name : Text
  deriving DecidableEq, Repr

/-- A table with its entries. -/
structure Table where
  origin : Origin
  entries : List (Text × Value)
  deriving Repr

namespace Scalar

/-- Whether a program can read the value: integers fit in 128 bits, and decimal fractions are finite
floating-point numbers. -/
def isReadable : Scalar → Bool
  | .integer n => Number.isWord128 n
  | .decimal d => d.isDouble
  | .text _ | .flag _ | .nonfinite | .moment => true

end Scalar

namespace Value

mutual

/-- Whether a program can read the value and all its parts. -/
def isReadable : Value → Bool
  | .scalar s => s.isReadable
  | .list _ items => areReadable items
  | .table _ entries => entriesAreReadable entries

/-- Whether a program can read all of some values. -/
def areReadable : List Value → Bool
  | [] => true
  | v :: vs => v.isReadable && areReadable vs

/-- Whether a program can read the values of all of some entries. -/
def entriesAreReadable : List (Text × Value) → Bool
  | [] => true
  | (_, v) :: es => v.isReadable && entriesAreReadable es

end

def ofTable (t : Table) : Value := .table t.origin t.entries

/-- The table into which a path leads at some value, and the value after a change of that table.
Dotted keys lead only into tables without a header of their own; both kinds of path lead into the
last table of an open list. -/
def opened? (byDots : Bool) : Value → Option (Table × (Table → Value))
  | .scalar _ => none
  | .table origin entries =>
    if origin = .braces ∨ (byDots = true ∧ origin = .header) then none
    else some (⟨origin, entries⟩, ofTable)
  | .list isOpen items =>
    match items.getLast? with
    | some (.table origin entries) =>
      if isOpen then
        some (⟨origin, entries⟩, fun t => .list true (items.dropLast ++ [ofTable t]))
      else none
    | _ => none

end Value

namespace Table

def empty (origin : Origin) : Table := ⟨origin, []⟩

def get? (t : Table) (key : Text) : Option Value := t.entries.lookup key

/-- The table with a value for a key, in the place of any other. -/
def put (t : Table) (key : Text) (v : Value) : Table :=
  if (t.get? key).isSome then
    { t with entries := t.entries.map fun e => if e.1 = key then (key, v) else e }
  else { t with entries := t.entries ++ [(key, v)] }

theorem lookup_map_replace {entries : List (Text × Value)} {key other : Text} {v : Value} :
    (entries.map fun e => if e.1 = key then (key, v) else e).lookup other =
      if other = key ∧ (entries.lookup key).isSome then some v else entries.lookup other := by
  induction entries with
  | nil => simp
  | cons e entries ih =>
    by_cases hk : e.1 = key <;> by_cases ho : other = key <;> grind

/-- A key has the value last put, and other keys keep theirs. -/
theorem get?_put (t : Table) (key other : Text) (v : Value) :
    (t.put key v).get? other = if other = key then some v else t.get? other := by
  by_cases found : (t.get? key).isSome = true
  · have inside : (t.entries.lookup key).isSome = true := found
    rw [put, if_pos found]
    simp only [get?, lookup_map_replace, inside, and_true]
  · have absent : t.entries.lookup key = none := Option.not_isSome_iff_eq_none.1 found
    rw [put, if_neg found]
    simp only [get?, List.lookup_append]
    by_cases ho : other = key <;> grind

/-- Changes the table at the end of a path. Tables that do not exist yet come about on the way. -/
def changeAt? (byDots : Bool) (change : Table → Option Table) : List Text → Table → Option Table
  | [], t => change t
  | key :: path, t =>
    match t.get? key with
    | none =>
      let inner := empty (if byDots then .dotted else .implied)
      (changeAt? byDots change path inner).map fun inner => t.put key (.ofTable inner)
    | some v =>
      (v.opened? byDots).bind fun (inner, close) =>
        (changeAt? byDots change path inner).map fun inner => t.put key (close inner)

/-- Adds an entry to a table. The table that a dotted key leads to must have come about by dotted
keys, and one that an undotted key is added to must not. -/
def insert? (t : Table) (key : Key) (v : Value) : Option Table :=
  changeAt? true
    (fun parent =>
      if (parent.origin == .dotted) == key.path.isEmpty then none
      else if (parent.get? key.name).isSome then none
      else some (parent.put key.name v))
    key.path t

/-- Adds entries to a table in their order. -/
def insertAll? (t : Table) (entries : List (Key × Value)) : Option Table :=
  entries.foldlM (fun t e => t.insert? e.1 e.2) t

/-- Adds the table of a header with its entries. It takes over what other headers implied. -/
def addTable? (t : Table) (key : Key) (entries : List (Key × Value)) : Option Table :=
  changeAt? false
    (fun parent =>
      let begun :=
        match parent.get? key.name with
        | none => some (empty .header)
        | some (.table .implied found) => some ⟨.header, found⟩
        | some _ => none
      (begun.bind fun b => b.insertAll? entries).map fun full => parent.put key.name (.ofTable full))
    key.path t

/-- Adds a table with its entries to the list of a header in double brackets. -/
def addElement? (t : Table) (key : Key) (entries : List (Key × Value)) : Option Table :=
  changeAt? false
    (fun parent =>
      let begun :=
        match parent.get? key.name with
        | none => some []
        | some (.list true items) => some items
        | some _ => none
      begun.bind fun items =>
        ((empty .header).insertAll? entries).map fun full =>
          parent.put key.name (.list true (items ++ [.ofTable full])))
    key.path t

end Table

end RobotAnalysis.Toml
