import Stencil.Json.Value

/-!
# Shapes of documents

What a reader expects of a document: any value at all, a value to be read over, or a value of a
given build. A record is a table with known fields, each optional; other fields are read over. It
may also be written as a list of its first fields in their declared order.
-/

namespace Stencil.Json

/-- An expected build. -/
inductive Shape where
  | any
  | skipped
  | text
  | flag
  | integer
  | optional (inner : Shape)
  | list (item : Shape)
  | table (value : Shape)
  | record (name : String) (fields : List (String × Shape))

namespace Shape

/-- How a message names what is expected. -/
def describe : Shape → String
  | .any => "any valid JSON value"
  | .skipped => "anything"
  | .text => "a string"
  | .flag => "a boolean"
  | .integer => "i64"
  | .optional inner => inner.describe
  | .list _ => "a sequence"
  | .table _ => "a map"
  | .record name _ => "struct " ++ name

/-- The shape that a value other than null must have. -/
def required : Shape → Shape
  | .optional inner => inner.required
  | s => s

end Shape

end Stencil.Json
