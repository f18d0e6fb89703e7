import Stencil.Json.Value

/-!
# Pruning

Pruning keeps what a document actually sets: `true`, numbers and texts that are not empty. Null,
`false`, empty texts and every container that is left with nothing disappear.
-/

namespace Stencil.Json.Value

mutual

/-- A document without its empty parts, or `none` if nothing is left. -/
def prune : Value → Option Value
  | .null => none
  | .bool b => if b then some (.bool true) else none
  | .number n => some (.number n)
  | .text s => if s.isEmpty then none else some (.text s)
  | .list items =>
    match pruneItems items with
    | [] => none
    | kept => some (.list kept)
  | .table fields =>
    match pruneFields fields with
    | [] => none
    | kept => some (.table kept)

/-- What is left of the items of a list. -/
def pruneItems : List Value → List Value
  | [] => []
  | v :: rest =>
    match v.prune with
    | none => pruneItems rest
    | some v => v :: pruneItems rest

/-- What is left of the fields of a table. -/
def pruneFields : List (String × Value) → List (String × Value)
  | [] => []
  | (name, v) :: rest =>
    match v.prune with
    | none => pruneFields rest
    | some v => (name, v) :: pruneFields rest

end

end Stencil.Json.Value
