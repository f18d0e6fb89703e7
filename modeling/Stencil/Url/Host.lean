import Stencil.Url.Address
import Stencil.Url.Domain
import Stencil.Url.Percent

/-!
# Hosts

The host of an address is a name, or a number of 32 or 128 bits. Under a special scheme a name is a
domain name; under any other it is kept as it is written.
-/

namespace Stencil.Url

/-- What is wrong with an address. -/
inductive Fault where
  | relative
  | emptyHost
  | invalidPort
  | invalidIpv4
  | invalidIpv6
  | invalidName
  | invalidCharacter
  deriving DecidableEq

/-- The text of a fault. -/
def Fault.message : Fault → String
  | .relative => "relative URL without a base"
  | .emptyHost => "empty host"
  | .invalidPort => "invalid port number"
  | .invalidIpv4 => "invalid IPv4 address"
  | .invalidIpv6 => "invalid IPv6 address"
  | .invalidName => "invalid international domain name"
  | .invalidCharacter => "invalid domain character"

/-- A host. -/
inductive Host where
  | name (cs : List Char)
  | ipv4 (n : Nat)
  | ipv6 (pieces : List Nat)
  deriving DecidableEq

namespace Host

/-- The text of a host. -/
def text : Host → List Char
  | .name cs => cs
  | .ipv4 n => ipv4Text n
  | .ipv6 pieces => '[' :: ipv6Text pieces ++ [']']

/-- A host in brackets. -/
def ofBrackets (cs : List Char) : Except Fault Host :=
  if cs.getLast? == some ']' then
    match ipv6? (cs.drop 1).dropLast with
    | none => .error .invalidIpv6
    | some pieces => .ok (.ipv6 pieces)
  else .error .invalidIpv6

/-- A host under a special scheme. -/
def ofSpecial (cs : List Char) : Except Fault Host :=
  if cs.head? == some '[' then ofBrackets cs
  else
    match (Text.Utf8.decode (percentDecode (Text.Utf8.encode cs))).bind Domain.toAscii? with
    | none => .error .invalidName
    | some [] => .error .emptyHost
    | some (c :: rest) =>
      if endsInNumber (c :: rest) then
        match ipv4? (c :: rest) with
        | none => .error .invalidIpv4
        | some n => .ok (.ipv4 n)
      else .ok (.name (c :: rest))

/-- Whether a character may not stand in a host under any other scheme. -/
def isSeparator (c : Char) : Bool :=
  ['\x00', '\t', '\n', '\r', ' ', '#', '/', ':', '<', '>', '?', '@', '[', '\\', ']', '^',
    '|'].contains c

/-- A host under a scheme that is not special. -/
def ofOther (cs : List Char) : Except Fault Host :=
  if cs.head? == some '[' then ofBrackets cs
  else if cs.any isSeparator then .error .invalidCharacter
  else .ok (.name (percentEncode noMore cs))

end Host

end Stencil.Url
