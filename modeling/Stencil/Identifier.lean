import Stencil.Digest.Sha1
import Stencil.Text.Hex
import Stencil.Text.Utf8

/-!
# Identifiers

Name-based identifiers of 128 bits: the identifier of a name in a space is the front of the digest
of the space and the name, marked as version 5. Random ones are marked as version 4. A `Namespace`
is the space that one configuration derives all its identifiers from.
-/

namespace Stencil

/-- An identifier, as its sixteen octets. -/
structure Identifier where
  octets : List UInt8
  deriving DecidableEq

namespace Identifier

/-- Marks the version and the variant of an identifier. -/
def mark (version : UInt8) (octets : List UInt8) : List UInt8 :=
  octets.mapIdx fun i b =>
    if i == 6 then (b &&& 0x0F) ||| (version * 0x10)
    else if i == 8 then (b &&& 0x3F) ||| 0x80
    else b

/-- The identifier of a name in a space. -/
def ofName (space : Identifier) (name : String) : Identifier :=
  ⟨mark 5 ((Digest.sha1 (space.octets ++ Text.Utf8.encode name.toList)).take 16)⟩

/-- The identifier of sixteen random octets. -/
def ofRandom (octets : List UInt8) : Identifier := ⟨mark 4 octets⟩

/-- The written form: 32 hexadecimal digits in groups of 8, 4, 4, 4 and 12. -/
def text (x : Identifier) : String :=
  let digits := x.octets.flatMap Text.hexPair
  let group (start size : Nat) := (digits.drop start).take size
  String.ofList (group 0 8 ++ '-' :: group 8 4 ++ '-' :: group 12 4 ++ '-' :: group 16 4 ++
    '-' :: group 20 12)

/-- The octets that pairs of hexadecimal digits spell. -/
def ofHex? : List Char → Option (List UInt8)
  | [] => some []
  | a :: b :: rest => do
    let high ← Text.hexValue? a
    let low ← Text.hexValue? b
    return UInt8.ofNat (high * 16 + low) :: (← ofHex? rest)
  | [_] => none

/-- The identifier that a text spells, with its hyphens or without any. -/
def ofText? (s : String) : Option Identifier := do
  let cs := s.toList
  let plain := cs.filter (· != '-')
  let octets ← ofHex? plain
  let x : Identifier := ⟨octets⟩
  if octets.length == 16 && (cs.length == 32 || (cs.map fun c => c == '-') ==
      (x.text.toList.map fun c => c == '-')) then some x
  else none

end Identifier

/-- A space of identifiers that belongs to one configuration. -/
structure Namespace where
  id : Identifier
  deriving DecidableEq

namespace Namespace

/-- The space that the space of every configuration is derived from. -/
def root : Identifier :=
  ⟨[0x0c, 0xa2, 0x46, 0x21, 0xd0, 0x49, 0x44, 0x55, 0x84, 0xcf, 0x4c, 0x3f, 0x7c, 0x38, 0x75,
    0xdf]⟩

/-- The space of a seed. -/
def ofSeed (seed : String) : Namespace := ⟨.ofName root seed⟩

/-- The identifier of some parts, one name inside the other, so that the way a text is cut into
parts matters. -/
def hash (ns : Namespace) (parts : List String) : Identifier :=
  parts.foldl .ofName ns.id

/-- The identifier that uploads are filed under. -/
def uploadPrefix (ns : Namespace) : Identifier := ns.hash ["upload"]

/-- The identifier of parts that come in two groups. -/
theorem hash_append (ns : Namespace) (xs ys : List String) :
    ns.hash (xs ++ ys) = Namespace.hash ⟨ns.hash xs⟩ ys := by
  simp [hash]

end Namespace

end Stencil
