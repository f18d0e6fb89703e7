import Stencil.Json.Shape
import Stencil.Yaml.Layout
import Stencil.Yaml.Node

/-!
# Reading YAML documents

A YAML text is read for the shape that is expected of it. A text may be any scalar, whatever it
looks like; a boolean has to be written plainly; and where a list, a table or a record is expected,
nothing at all is an empty one. Fields that a record does not know are read over, and of two entries
of a table the later one counts, while a record may hold each of its fields once.
-/

namespace Stencil.Yaml

open Json (Shape Value)

/-- The tag of booleans. -/
def flagTag : String := "tag:yaml.org,2002:bool"

/-- The boolean that a word spells. -/
def flag? (word : String) : Option Bool :=
  if ["true", "True", "TRUE"].contains word then some true
  else if ["false", "False", "FALSE"].contains word then some false
  else none

/-- Whether a scalar may be a boolean: if it is plain, or a literal block that is tagged as one. -/
def mayBeFlag (style : Style) (tag : Option String) : Bool :=
  style == .plain || (style == .literal && tag == some flagTag)

/-- What nothing at all is where a shape is expected. -/
def absent? : Shape → Option Value
  | .list _ => some (.list [])
  | .table _ => some (.table [])
  | .record .. => some (.table [])
  | .skipped => some .null
  | _ => none

namespace Document

/-- The node that an alias stands for, or else the node itself. -/
def resolve (d : Document) : Node → Option Node
  | .alias number => d.anchored number
  | n => some n

/-- The text of a scalar. -/
def text? (d : Document) (n : Node) : Option String :=
  match d.resolve n with
  | some (.scalar _ _ text) => some text
  | _ => none

mutual

/-- The value of a node where a shape is expected. -/
def value? (d : Document) : Shape → Node → Option Value
  | .skipped, _ => some .null
  | .text, n => (d.text? n).map .text
  | .flag, n =>
    match d.resolve n with
    | some (.scalar style tag text) =>
      if mayBeFlag style tag then (flag? text).map .bool else none
    | _ => none
  | .list item, n =>
    match d.resolve n with
    | some (.list items) => (items.mapM (d.value? item)).map .list
    | some (.scalar .plain _ "") => some (.list [])
    | _ => none
  | .table value, n =>
    match d.resolve n with
    | some (.table entries) =>
      (entries.foldlM
        (fun (t : Table Value) (e : Node × Node) => do
          return t.insert (← d.text? e.1) (← d.value? value e.2)) []).map .table
    | some (.scalar .plain _ "") => some (.table [])
    | _ => none
  | .record _ fields, n =>
    match d.resolve n with
    | some (.table entries) =>
      (entries.foldlM (fun (t : Table Value) (e : Node × Node) => do
          d.addField? fields (← d.text? e.1) e.2 t) []).map .table
    | some (.scalar .plain _ "") => some (.table [])
    | _ => none
  | _, _ => none

/-- A record with the value of one more field, if it is one of the known ones. -/
def addField? (d : Document) :
    List (String × Shape) → String → Node → Table Value → Option (Table Value)
  | [], _, _, t => some t
  | (known, shape) :: rest, name, n, t =>
    if known == name then
      if (t.get? name).isSome then none else (d.value? shape n).map fun v => t.insert name v
    else d.addField? rest name n t

end

end Document

/-- Reads a document of some shape. -/
def read (shape : Shape) (text : String) : Option Value := do
  let cs := text.toList
  if cs.all isAllowed then
    let d ← Document.ofTokens? (← Token.scan (unifyBreaks cs))
    match d.root with
    | none => absent? shape
    | some root => d.value? shape root
  else none

end Stencil.Yaml
