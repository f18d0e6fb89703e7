import Stencil.Json.Value
import Stencil.Text.Quoted

/-!
# Writing documents

Documents are written in one of two layouts: compact, without any blanks, and pretty, with every
item on a line of its own, two spaces of indentation a level and one after each colon. Empty
containers are closed at once in both.
-/

namespace Stencil.Json

/-- One character of a string in a document. -/
def escapeText (c : Char) : List Char :=
  if c == '"' then ['\\', '"']
  else if c == '\\' then ['\\', '\\']
  else if c == '\x08' then ['\\', 'b']
  else if c == '\x0c' then ['\\', 'f']
  else if c == '\n' then ['\\', 'n']
  else if c == '\r' then ['\\', 'r']
  else if c == '\t' then ['\\', 't']
  else if c.toNat < 0x10 then ['\\', 'u', '0', '0', '0'] ++ Text.hexDigits c.toNat
  else if c.toNat < 0x20 then ['\\', 'u', '0', '0'] ++ Text.hexDigits c.toNat
  else [c]

/-- A string in a document. -/
def writeText (s : String) : List Char :=
  '"' :: s.toList.flatMap escapeText ++ ['"']

namespace Value

mutual

/-- A document without blanks. -/
def writeCompact : Value → List Char
  | .null => ['n', 'u', 'l', 'l']
  | .bool true => ['t', 'r', 'u', 'e']
  | .bool false => ['f', 'a', 'l', 's', 'e']
  | .number n => n.text
  | .text s => writeText s
  | .list items => '[' :: writeItemsCompact items ++ [']']
  | .table fields => '{' :: writeFieldsCompact fields ++ ['}']

/-- The items of a list without blanks. -/
def writeItemsCompact : List Value → List Char
  | [] => []
  | [v] => v.writeCompact
  | v :: rest => v.writeCompact ++ ',' :: writeItemsCompact rest

/-- The fields of a table without blanks. -/
def writeFieldsCompact : List (String × Value) → List Char
  | [] => []
  | [(name, v)] => writeText name ++ ':' :: v.writeCompact
  | (name, v) :: rest =>
    writeText name ++ ':' :: v.writeCompact ++ ',' :: writeFieldsCompact rest

end

/-- A new line with some levels of indentation. -/
def newLine (level : Nat) : List Char :=
  '\n' :: List.replicate (2 * level) ' '

mutual

/-- A document with an item a line, inside `level` containers. -/
def writePretty (level : Nat) : Value → List Char
  | .null => ['n', 'u', 'l', 'l']
  | .bool true => ['t', 'r', 'u', 'e']
  | .bool false => ['f', 'a', 'l', 's', 'e']
  | .number n => n.text
  | .text s => writeText s
  | .list [] => ['[', ']']
  | .list items => '[' :: writeItemsPretty (level + 1) items ++ newLine level ++ [']']
  | .table [] => ['{', '}']
  | .table fields => '{' :: writeFieldsPretty (level + 1) fields ++ newLine level ++ ['}']

/-- The items of a list, each after a new line. -/
def writeItemsPretty (level : Nat) : List Value → List Char
  | [] => []
  | [v] => newLine level ++ v.writePretty level
  | v :: rest => newLine level ++ v.writePretty level ++ ',' :: writeItemsPretty level rest

/-- The fields of a table, each after a new line. -/
def writeFieldsPretty (level : Nat) : List (String × Value) → List Char
  | [] => []
  | [(name, v)] => newLine level ++ writeText name ++ ':' :: ' ' :: v.writePretty level
  | (name, v) :: rest =>
    newLine level ++ writeText name ++ ':' :: ' ' :: v.writePretty level ++
      ',' :: writeFieldsPretty level rest

end

/-- The text of a document without blanks. -/
def compact (v : Value) : String := String.ofList v.writeCompact

/-- The text of a document with an item a line. -/
def pretty (v : Value) : String := String.ofList (v.writePretty 0)

end Value

end Stencil.Json
