import Stencil.Text.Hex
import Stencil.Text.Utf8

/-!
# Percent encoding

In an address, an octet may be written as a percent sign and two hexadecimal digits. Each part of an
address has its own set of characters that must be written so; controls and everything beyond ASCII
are in all of them.
-/

namespace Stencil.Url

/-- A hexadecimal digit in upper case. -/
def upperDigit (n : Nat) : Char :=
  if n < 10 then Char.ofNat (0x30 + n) else Char.ofNat (0x41 + n - 10)

/-- An octet as a percent sign and two digits. -/
def percentOctet (b : UInt8) : List Char :=
  ['%', upperDigit (b.toNat / 16), upperDigit (b.toNat % 16)]

/-- Whether a character is in every set. -/
def isForeign (c : Char) : Bool := c.toNat < 0x20 || 0x7F ≤ c.toNat

/-- The set of paths without segments: nothing more. -/
def noMore (_ : Char) : Bool := false

/-- The set of fragments. -/
def inFragment (c : Char) : Bool := [' ', '"', '<', '>', '\x60'].contains c

/-- The set of queries. -/
def inQuery (c : Char) : Bool := [' ', '"', '#', '<', '>'].contains c

/-- The set of queries under a special scheme. -/
def inSpecialQuery (c : Char) : Bool := inQuery c || c == '\''

/-- The set of paths. -/
def inPath (c : Char) : Bool := inFragment c || ['#', '?', '\x7b', '\x7d'].contains c

/-- The set of a single segment of a path, which may hold no separator. -/
def inSegment (c : Char) : Bool := inPath c || ['/', '%'].contains c

/-- The set of a single segment under a special scheme, where a backslash separates too. -/
def inSpecialSegment (c : Char) : Bool := inSegment c || c == '\\'

/-- The set of names and passwords. -/
def inUserinfo (c : Char) : Bool :=
  inPath c || ['/', ':', ';', '=', '@', '[', '\\', ']', '^', '|'].contains c

/-- A text with the characters of a set written as percent signs and digits. -/
def percentEncode (inSet : Char → Bool) (cs : List Char) : List Char :=
  cs.flatMap fun c =>
    if isForeign c || inSet c then (String.utf8EncodeChar c).flatMap percentOctet else [c]

/-- The octets of a text with percent signs and digits read. -/
def percentDecode : List UInt8 → List UInt8
  | 0x25 :: a :: b :: rest =>
    match Text.hexValue? (Char.ofNat a.toNat), Text.hexValue? (Char.ofNat b.toNat) with
    | some high, some low => UInt8.ofNat (high * 16 + low) :: percentDecode rest
    | _, _ => 0x25 :: percentDecode (a :: b :: rest)
  | b :: rest => b :: percentDecode rest
  | [] => []

end Stencil.Url
