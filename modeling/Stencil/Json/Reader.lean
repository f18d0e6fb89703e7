import Stencil.Json.Shape
import Stencil.Json.Token

/-!
# Reading documents

A document is read by a machine that takes one token at a time. It keeps a stack of the containers
that are open and knows what may come next; when a value is complete it goes into the container on
top. The first token that does not fit ends the reading with a fault.

Containers nest at most 127 deep, except inside values that are read over.
-/

namespace Stencil.Json

/-- A container that is open, with what it holds so far. Lists keep their newest item first; tables
remember the name that the value under way will have, records only when they know it. -/
inductive Frame where
  | list (item : Shape) (items : List Value)
  | table (value : Shape) (fields : Fields) (name : String)
  | record (known : List (String × Shape)) (found : Fields) (name : Option String)
  | row (left : List (String × Shape)) (found : Fields) (name : String)
  | skippedList
  | skippedTable

/-- What may come next. `first` is right after an opening bracket, `next` after a complete item and
`again` after a comma. -/
inductive Stage where
  | value (shape : Shape)
  | first (frame : Frame)
  | next (frame : Frame)
  | again (frame : Frame)
  | colon (shape : Shape)
  | repeated (name : String)
  | whole (value : Value)

/-- A reading under way: what may come next, and the open containers around it. -/
structure Reader where
  stage : Stage
  stack : List Frame

namespace Frame

/-- The container with one more value. -/
def add (value : Value) : Frame → Frame
  | .list item items => .list item (value :: items)
  | .table shape fields name => .table shape (Table.insert name value fields) name
  | .record known found (some name) => .record known (Table.insert name value found) (some name)
  | .record known found none => .record known found none
  | .row left found name => .row left (Table.insert name value found) name
  | .skippedList => .skippedList
  | .skippedTable => .skippedTable

/-- The value of a container that is complete. -/
def close : Frame → Value
  | .list _ items => .list items.reverse
  | .table _ fields _ => .table fields
  | .record _ found _ => .table found
  | .row _ found _ => .table found
  | .skippedList => .null
  | .skippedTable => .null

/-- Whether the container is written in square brackets. -/
def isList : Frame → Bool
  | .list .. => true
  | .row .. => true
  | .skippedList => true
  | _ => false

/-- Whether the container is read over. -/
def isSkipped : Frame → Bool
  | .skippedList => true
  | .skippedTable => true
  | _ => false

/-- Whether the container is a record in a row whose fields are all there. -/
def isFull : Frame → Bool
  | .row [] _ _ => true
  | _ => false

end Frame

namespace Reader

/-- How deep containers may nest. -/
def depthLimit : Nat := 127

/-- A fault at the first octet of a token. -/
def failOn {α : Type} (cause : Cause) (t : Token) : Except Fault α :=
  .error ⟨cause, t.peek⟩

/-- A value is complete. -/
def complete (value : Value) : List Frame → Reader
  | [] => ⟨.whole value, []⟩
  | frame :: rest => ⟨.next (frame.add value), rest⟩

/-- A container opens. -/
def enter (frame : Frame) (t : Token) (stack : List Frame) : Except Fault Reader :=
  if !frame.isSkipped && depthLimit ≤ stack.length then failOn .tooDeep t
  else .ok ⟨.first frame, stack⟩

/-- Whether an integer fits into 64 bits with a sign. -/
def fits (n : Int) : Bool := -Number.leastSize ≤ n && n < Number.leastSize

/-- A scalar where a value of some shape is due. -/
def accept (shape : Shape) (s : Scalar) (t : Token) (stack : List Frame) : Except Fault Reader :=
  let wrong := .error ⟨.wrongKind s.found shape.describe, t.stop⟩
  match shape, s with
  | .skipped, _ => .ok (complete .null stack)
  | .any, .null => .ok (complete .null stack)
  | .any, .bool b => .ok (complete (.bool b) stack)
  | .any, .number n => .ok (complete (.number n) stack)
  | .any, .text s => .ok (complete (.text s) stack)
  | .optional _, .null => .ok (complete .null stack)
  | .optional inner, s => accept inner s t stack
  | .text, .text s => .ok (complete (.text s) stack)
  | .flag, .bool b => .ok (complete (.bool b) stack)
  | .integer, .number (.int n) =>
    if fits n then .ok (complete (.number (.int n)) stack)
    else .error ⟨.outOfRange s.found shape.describe, t.stop⟩
  | _, _ => wrong

/-- An opening square bracket where a value of some shape is due. -/
def openList (shape : Shape) (t : Token) (stack : List Frame) : Except Fault Reader :=
  match shape.required with
  | .any => enter (.list .any []) t stack
  | .skipped => enter .skippedList t stack
  | .list item => enter (.list item []) t stack
  | .record _ fields => enter (.row fields [] "") t stack
  | s => .error ⟨.wrongKind .list s.describe, t.start⟩

/-- An opening curly bracket where a value of some shape is due. -/
def openTable (shape : Shape) (t : Token) (stack : List Frame) : Except Fault Reader :=
  match shape.required with
  | .any => enter (.table .any [] "") t stack
  | .skipped => enter .skippedTable t stack
  | .table value => enter (.table value [] "") t stack
  | .record _ fields => enter (.record fields [] none) t stack
  | s => .error ⟨.wrongKind .table s.describe, t.start⟩

/-- The token where a value of some shape is due. -/
def startValue (shape : Shape) (t : Token) (stack : List Frame) : Except Fault Reader :=
  match t.kind with
  | .ending => failOn .endInValue t
  | .scalar s => accept shape s t stack
  | .worthless _ fault =>
    match shape with
    | .skipped => .ok (complete .null stack)
    | _ => .error fault
  | .broken _ strict lenient =>
    match shape with
    | .skipped => .error lenient
    | _ => .error strict
  | .openList => openList shape t stack
  | .openTable => openTable shape t stack
  | _ => failOn .noValue t

/-- The next item of a list. -/
def startItem (frame : Frame) (t : Token) (stack : List Frame) : Except Fault Reader :=
  match frame with
  | .list item items => startValue item t (.list item items :: stack)
  | .row ((name, shape) :: left) found _ => startValue shape t (.row left found name :: stack)
  | frame => startValue .skipped t (frame :: stack)

/-- A name in a table. -/
def startField (frame : Frame) (name : String) (stack : List Frame) : Reader :=
  match frame with
  | .table shape fields _ => ⟨.colon shape, .table shape fields name :: stack⟩
  | .record known found _ =>
    match Table.get? name known with
    | none => ⟨.colon .skipped, .record known found none :: stack⟩
    | some shape =>
      if (Table.get? name found).isSome then ⟨.repeated name, stack⟩
      else ⟨.colon shape, .record known found (some name) :: stack⟩
  | frame => ⟨.colon .skipped, frame :: stack⟩

/-- The token where a name is due; `missing` is the fault for an early end. -/
def fieldName (frame : Frame) (missing : Cause) (t : Token) (stack : List Frame) :
    Except Fault Reader :=
  match t.kind with
  | .ending => failOn missing t
  | .scalar (.text name) => .ok (startField frame name stack)
  | .worthless true fault =>
    if frame.isSkipped then .ok (startField frame "" stack) else .error fault
  | .broken true strict lenient => if frame.isSkipped then .error lenient else .error strict
  | _ => failOn .keyNotText t

/-- The token right after an opening bracket. -/
def stepFirst (frame : Frame) (t : Token) (stack : List Frame) : Except Fault Reader :=
  if frame.isList then
    match t.kind with
    | .closeList => .ok (complete frame.close stack)
    | .ending => failOn .endInList t
    | _ => startItem frame t stack
  else
    match t.kind with
    | .closeTable => .ok (complete frame.close stack)
    | _ => fieldName frame .endInTable t stack

/-- The token after a complete item. -/
def stepNext (frame : Frame) (t : Token) (stack : List Frame) : Except Fault Reader :=
  if frame.isList then
    match t.kind with
    | .closeList => .ok (complete frame.close stack)
    | .comma => .ok ⟨.again frame, stack⟩
    | .ending => failOn .endInList t
    | _ => failOn (if frame.isFull then .trailingText else .noListEnd) t
  else
    match t.kind with
    | .closeTable => .ok (complete frame.close stack)
    | .comma => .ok ⟨.again frame, stack⟩
    | .ending => failOn .endInTable t
    | _ => failOn .noTableEnd t

/-- The token after a comma. -/
def stepAgain (frame : Frame) (t : Token) (stack : List Frame) : Except Fault Reader :=
  if frame.isSkipped then
    if frame.isList then startItem frame t stack else fieldName frame .endInTable t stack
  else if frame.isList then
    match t.kind with
    | .closeList => failOn .trailingComma t
    | _ => if frame.isFull then failOn .trailingText t else startItem frame t stack
  else
    match t.kind with
    | .closeTable => failOn .trailingComma t
    | _ => fieldName frame .endInValue t stack

/-- One token before the end of the document. -/
def step (r : Reader) (t : Token) : Except Fault Reader :=
  match r.stage with
  | .value shape => startValue shape t r.stack
  | .first frame => stepFirst frame t r.stack
  | .next frame => stepNext frame t r.stack
  | .again frame => stepAgain frame t r.stack
  | .colon shape =>
    match t.kind with
    | .colon => .ok ⟨.value shape, r.stack⟩
    | .ending => failOn .endInTable t
    | _ => failOn .noColon t
  | .repeated name =>
    match t.kind with
    | .closeTable => .error ⟨.repeatedField name, t.stop⟩
    | _ => .error ⟨.repeatedField name, t.start⟩
  | .whole _ => failOn .trailingText t

/-- The value of a document from its tokens. -/
def run (r : Reader) : List Token → Except Fault Value
  | [] => .error ⟨.endInValue, .start⟩
  | t :: rest =>
    match r.stage, t.kind with
    | .whole value, .ending => .ok value
    | _, _ =>
      match r.step t with
      | .error fault => .error fault
      | .ok r => run r rest

end Reader

/-- Reads a document of some shape. -/
def read (shape : Shape) (text : String) : Except Fault Value :=
  Reader.run ⟨.value shape, []⟩ (Token.scan text)

end Stencil.Json
