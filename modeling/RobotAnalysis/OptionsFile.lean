import RobotAnalysis.Options
import RobotAnalysis.Toml.Document

/-!
# Options files

A project sets its options in the table `options` of a configuration file. What the file says about
other things does not matter, as long as it can be read. Instead of a table the options may be a
list of their values in order, and a date is a table that sets nothing.
-/
namespace RobotAnalysis.Options

open Toml (Value)

/-- The names of options files, in the order in which they are looked for. -/
def fileNames : List Text := ["robot-analysis.toml", ".robot-analysis.toml"].map String.toList

/-- A choice as a value. -/
def flag? : Value → Option Bool
  | .scalar (.flag b) => some b
  | _ => none

/-- Sets one option; other keys must have values that can be read. -/
def set? (o : Options) (key : Text) (v : Value) : Option Options :=
  if key = "capitalize_keywords".toList then
    (flag? v).map fun b => { o with capitalizeKeywords := b }
  else if key = "allow_transitive_imports".toList then
    (flag? v).map fun b => { o with allowTransitiveImports := b }
  else if v.isReadable then some o
  else none

/-- The options that a value sets. -/
def ofValue? : Value → Option Options
  | .table _ entries => entries.foldlM (fun o e => o.set? e.1 e.2) {}
  | .list _ items =>
    match items with
    | [] => some {}
    | [v] => (flag? v).map fun b => { capitalizeKeywords := b }
    | v :: w :: _ => do return ⟨← flag? v, ← flag? w⟩
  | .scalar .moment => some {}
  | .scalar _ => none

/-- The options that the text of a configuration file sets, nothing where the file or an option
cannot be read. -/
def ofToml? (text : Text) : Option Options := do
  let table ← Toml.read? text
  let own := "options".toList
  if Value.entriesAreReadable (table.entries.filter fun e => e.1 != own) then
    match table.get? own with
    | some v => ofValue? v
    | none => some {}
  else none

end RobotAnalysis.Options
