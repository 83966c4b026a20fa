import RobotAnalysis.Text.Quoted

/-!
# Records as text

How a structured value is shown on one line: a word, a quoted text, a value wrapped in a named
constructor, or a named record with its fields in order.
-/
namespace RobotAnalysis.Text

/-- What is shown of a value. -/
inductive Record
  /-- A word or number, shown as it is. -/
  | word (t : Text)
  /-- A text between quotes. -/
  | quotation (t : Text)
  /-- A constructor with one argument, as in `FileId(2)`. -/
  | wrapped (name : Text) (value : Record)
  /-- A record, as in `File { file: FileId(2) }`. -/
  | fields (name : Text) (values : List (Text × Record))
  deriving Repr

namespace Record

mutual

/-- The text of a value. -/
def text : Record → Text
  | .word t => t
  | .quotation t => quoted t
  | .wrapped name value => name ++ '(' :: value.text ++ [')']
  | .fields name values => name ++ ' ' :: '{' :: textOfFields values ++ [' ', '}']

/-- The texts of fields, commas between them. -/
def textOfFields : List (Text × Record) → Text
  | [] => []
  | [(name, value)] => ' ' :: name ++ ':' :: ' ' :: value.text
  | (name, value) :: values =>
    ' ' :: name ++ ':' :: ' ' :: value.text ++ ',' :: textOfFields values

end

end Record

end RobotAnalysis.Text
