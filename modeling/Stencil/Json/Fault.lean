import Stencil.Json.Number
import Stencil.Text.Quoted
import Stencil.Text.Utf8

/-!
# Places and faults

Where a document goes wrong and why. Lines count from one; a column is the number of octets between
the start of the line and the place, so the first octet of a line ends at column one.
-/

namespace Stencil.Json

/-- A place in a text. -/
structure Position where
  line : Nat
  column : Nat
  deriving DecidableEq

namespace Position

/-- The place before the first octet. -/
def start : Position := ⟨1, 0⟩

/-- The place after one more octet. -/
def pastOctet (p : Position) (b : UInt8) : Position :=
  if b == 10 then ⟨p.line + 1, 0⟩ else ⟨p.line, p.column + 1⟩

/-- The place after one more character. -/
def past (p : Position) (c : Char) : Position :=
  if c == '\n' then ⟨p.line + 1, 0⟩ else ⟨p.line, p.column + c.utf8Size⟩

/-- The place after some characters. -/
def pastAll (p : Position) (cs : List Char) : Position :=
  cs.foldl past p

/-- The place a few octets into a text, or at its end if it is shorter. -/
def pastOctets (p : Position) (cs : List Char) (count : Nat) : Position :=
  ((Text.Utf8.encode (cs.take count)).take count).foldl pastOctet p

end Position

/-- A value that a document holds where another kind is due. -/
inductive Found where
  | null
  | bool (b : Bool)
  | number (n : Number)
  | text (s : String)
  | list
  | table

namespace Found

/-- How a message names the value. -/
def describe : Found → String
  | .null => "null"
  | .bool b => s!"boolean \x60{b}\x60"
  | .number (.int n) => s!"integer \x60{n}\x60"
  | .number (.real x) => "floating point \x60" ++ String.ofList (Number.real x).text ++ "\x60"
  | .text s => "string " ++ Text.quote s
  | .list => "sequence"
  | .table => "map"

end Found

/-- Why a document cannot be read. -/
inductive Cause where
  | endInList
  | endInTable
  | endInText
  | endInValue
  | noColon
  | noListEnd
  | noTableEnd
  | noWord
  | noValue
  | badEscape
  | badNumber
  | hugeNumber
  | controlCharacter
  | keyNotText
  | loneSurrogate
  | brokenPair
  | trailingComma
  | trailingText
  | tooDeep
  | wrongKind (found : Found) (expected : String)
  | outOfRange (found : Found) (expected : String)
  | repeatedField (name : String)

namespace Cause

/-- The text of a cause. -/
def message : Cause → String
  | .endInList => "EOF while parsing a list"
  | .endInTable => "EOF while parsing an object"
  | .endInText => "EOF while parsing a string"
  | .endInValue => "EOF while parsing a value"
  | .noColon => "expected \x60:\x60"
  | .noListEnd => "expected \x60,\x60 or \x60]\x60"
  | .noTableEnd => "expected \x60,\x60 or \x60\x7d\x60"
  | .noWord => "expected ident"
  | .noValue => "expected value"
  | .badEscape => "invalid escape"
  | .badNumber => "invalid number"
  | .hugeNumber => "number out of range"
  | .controlCharacter =>
    "control character (\\u0000-\\u001F) found while parsing a string"
  | .keyNotText => "key must be a string"
  | .loneSurrogate => "lone leading surrogate in hex escape"
  | .brokenPair => "unexpected end of hex escape"
  | .trailingComma => "trailing comma"
  | .trailingText => "trailing characters"
  | .tooDeep => "recursion limit exceeded"
  | .wrongKind found expected => s!"invalid type: {found.describe}, expected {expected}"
  | .outOfRange found expected => s!"invalid value: {found.describe}, expected {expected}"
  | .repeatedField name => s!"duplicate field \x60{name}\x60"

end Cause

/-- A cause and its place. -/
structure Fault where
  cause : Cause
  position : Position

/-- The text of a fault. -/
def Fault.message (f : Fault) : String :=
  s!"{f.cause.message} at line {f.position.line} column {f.position.column}"

end Stencil.Json
