import Stencil.Json.Number
import Stencil.Table

/-!
# Documents

A document is a value: null, a boolean, a number, a text, a list of values or a table of values.
The fields of a table are kept in ascending order of their names, each name once.
-/

namespace Stencil.Json

/-- A document. -/
inductive Value where
  | null
  | bool (b : Bool)
  | number (n : Number)
  | text (s : String)
  | list (items : List Value)
  | table (fields : List (String × Value))

/-- The fields of a table. -/
abbrev Fields := Table Value

end Stencil.Json
