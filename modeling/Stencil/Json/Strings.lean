import Stencil.Json.Value
import Stencil.Texts

/-!
# The strings of a document

Visiting every text of a document in order: items of a list from first to last, fields of a table in
the order of their names. The visit replaces texts; names, numbers and the build of the document
stay.
-/

namespace Stencil.Json.Value

mutual

/-- Visits every text of a document with an effect. -/
def mapTexts {m : Type → Type} [Monad m] (visit : String → m String) : Value → m Value
  | .text s => do return .text (← visit s)
  | .list items => do return .list (← mapTextsItems visit items)
  | .table fields => do return .table (← mapTextsFields visit fields)
  | .null => return .null
  | .bool b => return .bool b
  | .number n => return .number n

/-- Visits every text of the items of a list. -/
def mapTextsItems {m : Type → Type} [Monad m] (visit : String → m String) :
    List Value → m (List Value)
  | [] => return []
  | v :: rest => do
    let v ← mapTexts visit v
    return v :: (← mapTextsItems visit rest)

/-- Visits every text of the fields of a table. -/
def mapTextsFields {m : Type → Type} [Monad m] (visit : String → m String) :
    List (String × Value) → m (List (String × Value))
  | [] => return []
  | (name, v) :: rest => do
    let v ← mapTexts visit v
    return (name, v) :: (← mapTextsFields visit rest)

end

instance : Texts Value where
  mapTexts visit v := v.mapTexts visit

end Stencil.Json.Value
