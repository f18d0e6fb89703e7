import Stencil.Url.Host

/-!
# Addresses

An address has a scheme, perhaps an authority with a host, a path, and perhaps a query and a
fragment. All parts are kept as they are written, with percent signs where they are due. The path is
a list of segments, each of which a slash stands before, unless the address has neither an authority
nor a slash after its scheme.
-/

namespace Stencil

namespace Url

/-- Who is asked: a name and password as they are written, a host and a port. -/
structure Authority where
  userinfo : List Char
  host : Host
  port : Option Nat
  deriving DecidableEq

/-- The path of an address. -/
inductive Path where
  | plain (cs : List Char)
  | segments (parts : List (List Char))
  deriving DecidableEq

/-- The text of a path. -/
def Path.text : Path → List Char
  | .plain cs => cs
  | .segments parts => parts.flatMap ('/' :: ·)

/-- The text of an authority. -/
def Authority.text (a : Authority) : List Char :=
  a.userinfo ++ (if a.userinfo.isEmpty then [] else ['@']) ++ a.host.text ++
    match a.port with
    | none => []
    | some port => ':' :: Nat.toDigits 10 port

/-- What follows a mark, if there is anything. -/
def marked (mark : Char) : Option (List Char) → List Char
  | none => []
  | some cs => mark :: cs

end Url

/-- An address. -/
structure Url where
  scheme : List Char
  authority : Option Url.Authority
  path : Url.Path
  query : Option (List Char)
  fragment : Option (List Char)
  deriving DecidableEq

namespace Url

/-- The text of an address. Where a path without an authority starts with two slashes, `/.` keeps
what follows from being read as one. -/
def chars (u : Url) : List Char :=
  let path := u.path.text
  let front :=
    match u.authority with
    | some a => ['/', '/'] ++ a.text
    | none => if path.take 2 == ['/', '/'] then ['/', '.'] else []
  u.scheme ++ ':' :: front ++ path ++ marked '?' u.query ++ marked '#' u.fragment

/-- The text of an address. -/
def text (u : Url) : String := String.ofList u.chars

end Url

end Stencil
