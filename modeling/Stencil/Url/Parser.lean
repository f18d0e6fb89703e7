import Stencil.Text.Blank
import Stencil.Text.Casing
import Stencil.Url.FilePath

/-!
# Reading addresses

An address is read without another one that it could be relative to. Controls and blanks around it
and every tab and line end are left out. Under a special scheme a host is due, backslashes are
slashes, and any number of slashes may stand before the host; `file` is special, but its host may be
missing.
-/

namespace Stencil.Url

/-- The special schemes other than `file`, and their ports. -/
def specialPorts : List (List Char × Nat) :=
  [("http".toList, 80), ("https".toList, 443), ("ws".toList, 80), ("wss".toList, 443),
    ("ftp".toList, 21)]

/-- The scheme of local files. -/
def fileScheme : List Char := "file".toList

/-- The port of a scheme. -/
def defaultPort? (scheme : List Char) : Option Nat :=
  (specialPorts.find? (·.1 == scheme)).map (·.2)

/-- Whether a scheme is special. -/
def isSpecial (scheme : List Char) : Bool :=
  scheme == fileScheme || (defaultPort? scheme).isSome

/-- An address without the controls and blanks around it. -/
def trim (cs : List Char) : List Char :=
  let blank := fun c : Char => c.toNat ≤ 0x20
  Text.trimEnd blank (Text.trimStart blank cs)

/-- A text without tabs and line ends. -/
def clean (cs : List Char) : List Char := cs.filter (!isLeftOut ·)

/-- Whether a character may stand in a scheme. -/
def isSchemeChar (c : Char) : Bool :=
  c.isAlphanum || c == '+' || c == '-' || c == '.'

/-- The scheme of an address in lower case, and what follows its colon. -/
def scheme? (cs : List Char) : Option (List Char × List Char) :=
  match cs with
  | [] => none
  | c :: _ =>
    if c.isAlpha then
      match cs.dropWhile isSchemeChar with
      | ':' :: rest => some (Text.lower (cs.takeWhile isSchemeChar), rest)
      | _ => none
    else none

/-! ## Authorities -/

/-- Whether a character ends an authority. -/
def endsAuthority (special : Bool) (c : Char) : Bool :=
  c == '/' || c == '?' || c == '#' || (special && c == '\\')

/-- The text before the last `@`, if there is one, and the text after it. -/
def splitAt? (cs : List Char) : Option (List Char) × List Char :=
  let host := (cs.reverse.takeWhile (· != '@')).reverse
  if host.length == cs.length then (none, cs)
  else (some (cs.take (cs.length - host.length - 1)), host)

/-- A name and password in their written form: the password only if there is one. -/
def userinfo (cs : List Char) : List Char :=
  let name := percentEncode inUserinfo (cs.takeWhile (· != ':'))
  match cs.dropWhile (· != ':') with
  | _ :: c :: rest => name ++ ':' :: percentEncode inUserinfo (c :: rest)
  | _ => name

/-- The text of a host up to its port, and what follows it. Colons in brackets are the host's. -/
def splitHost (bracketed : Bool) : List Char → List Char × List Char
  | [] => ([], [])
  | c :: rest =>
    if c == ':' && !bracketed then ([], c :: rest)
    else
      let inside := if c == '[' then true else if c == ']' then false else bracketed
      let r := splitHost inside rest
      (c :: r.1, r.2)

/-- The greatest port. -/
def greatestPort : Nat := 65535

/-- A port after its colon, and what follows it. The port of the scheme is not kept. -/
def readPort (scheme cs : List Char) : Except Fault (Option Nat × List Char) :=
  let digits := cs.takeWhile isDigit
  let rest := cs.dropWhile isDigit
  let port := (numberIn 10 digits).getD 0
  let ends :=
    match rest with
    | [] => true
    | c :: _ => endsAuthority true c
  if !ends || port > greatestPort then .error .invalidPort
  else if digits.isEmpty || defaultPort? scheme == some port then .ok (none, rest)
  else .ok (some port, rest)

/-- The authority that a text starts with, and what follows it. -/
def readAuthority (scheme cs : List Char) : Except Fault (Authority × List Char) := do
  let special := isSpecial scheme
  let region := cs.takeWhile (!endsAuthority special ·)
  let after := cs.dropWhile (!endsAuthority special ·)
  let (info?, hostport) := splitAt? region
  let info := userinfo (info?.getD [])
  if info? == some [] && hostport.isEmpty && !after.isEmpty then throw .emptyHost
  let (hostText, rest) := splitHost false hostport
  if special && hostText.isEmpty then throw .emptyHost
  let host ← if special then Host.ofSpecial hostText else Host.ofOther hostText
  if hostText.isEmpty && (!rest.isEmpty || !info.isEmpty) then throw .emptyHost
  match rest with
  | [] => return (⟨info, host, none⟩, after)
  | _ :: digits =>
    let (port, left) ← readPort scheme (digits ++ after)
    return (⟨info, host, port⟩, left)

/-! ## Paths, queries and fragments -/

/-- Whether a character ends a path. -/
def endsPath (c : Char) : Bool := c == '?' || c == '#'

/-- The pieces of a path between its slashes. -/
def splitSegments (special : Bool) (cs : List Char) : List (List Char) :=
  Text.split '/' (if special then cs.map fun c => if c == '\\' then '/' else c else cs)

/-- The segments of a path with or without its first slash. -/
def readSegments (special : Bool) (cs : List Char) : List (List Char) :=
  let body :=
    match cs with
    | [] => []
    | c :: rest => if c == '/' || (special && c == '\\') then rest else c :: rest
  place [] ((splitSegments special body).map (percentEncode inPath))

/-- The query and the fragment in what follows a path. -/
def readTail (special : Bool) (cs : List Char) : Option (List Char) × Option (List Char) :=
  let set := if special then inSpecialQuery else inQuery
  let fragment? :=
    match cs.dropWhile (· != '#') with
    | [] => none
    | _ :: rest => some (percentEncode inFragment rest)
  match cs with
  | '?' :: rest => (some (percentEncode set (rest.takeWhile (· != '#'))), fragment?)
  | _ => (none, fragment?)

/-- An address whose scheme and authority have been read. -/
def withTail (scheme : List Char) (authority : Option Authority) (path : Path) (cs : List Char) :
    Url :=
  let tail := readTail (isSpecial scheme) cs
  ⟨scheme, authority, path, tail.1, tail.2⟩

/-- What follows the slashes before an authority. -/
def readAfterSlashes (scheme cs : List Char) : Except Fault Url :=
  match readAuthority scheme cs with
  | .error fault => .error fault
  | .ok (authority, rest) =>
    let region := rest.takeWhile (!endsPath ·)
    let special := isSpecial scheme
    let segments := if !special && region.isEmpty then [] else readSegments special region
    .ok (withTail scheme (some authority) (.segments segments) (rest.dropWhile (!endsPath ·)))

/-! ## Files -/

/-- The authority of a file without a host. -/
def noHost : Authority := ⟨[], .name [], none⟩

/-- The host of a file. -/
def fileHost (cs : List Char) : Except Fault Authority :=
  if cs.isEmpty then .ok noHost
  else
    match Host.ofSpecial cs with
    | .error fault => .error fault
    | .ok host => .ok (if host == .name "localhost".toList then noHost else ⟨[], host, none⟩)

/-- A file of which the host has been read. With a drive it has no host. -/
def fileUrl (authority : Authority) (cs : List Char) : Url :=
  let path := FilePath.ofPieces (splitSegments true (cs.takeWhile (!endsPath ·)))
  withTail fileScheme (some (if path.hasDrive then noHost else authority)) (.segments path.segments)
    (clean (cs.dropWhile (!endsPath ·)))

/-- Whether a character is a slash under a special scheme. -/
def isSlash (c : Char) : Bool := c == '/' || c == '\\'

/-- A text after the slash that it starts with, if it does. -/
def afterSlash? (cs : List Char) : Option (List Char) :=
  match cs.dropWhile isLeftOut with
  | c :: rest => if isSlash c then some rest else none
  | [] => none

/-- A file after two slashes. The slash after a host belongs to no segment; without a host, it has an
empty segment before it. -/
def readFileHost (cs : List Char) : Except Fault Url :=
  let region := cs.takeWhile fun c => !isSlash c && !endsPath c
  if isDrive (clean region) then .ok (fileUrl noHost cs)
  else
    match fileHost (clean region) with
    | .error fault => .error fault
    | .ok authority =>
      let rest := cs.drop region.length
      .ok (fileUrl authority (if authority == noHost then rest else (afterSlash? rest).getD rest))

/-- A file after the colon of its scheme. Tabs and line ends are still in the text. -/
def readFile (cs : List Char) : Except Fault Url :=
  match afterSlash? cs with
  | none => .ok (fileUrl noHost cs)
  | some rest =>
    match afterSlash? rest with
    | none => .ok (fileUrl noHost rest)
    | some rest => readFileHost rest

/-! ## Addresses -/

/-- An address under a scheme that is not special. -/
def readOther (scheme cs : List Char) : Except Fault Url :=
  let region := cs.takeWhile (!endsPath ·)
  let rest := cs.dropWhile (!endsPath ·)
  match cs with
  | '/' :: '/' :: after => readAfterSlashes scheme after
  | '/' :: _ => .ok (withTail scheme none (.segments (readSegments false region)) rest)
  | _ => .ok (withTail scheme none (.plain (percentEncode noMore region)) rest)

/-- The address that a text spells. -/
def parse (text : String) : Except Fault Url :=
  let cs := trim text.toList
  match scheme? (clean cs) with
  | none => .error .relative
  | some (scheme, rest) =>
    if scheme == fileScheme then readFile ((cs.dropWhile (· != ':')).drop 1)
    else if isSpecial scheme then readAfterSlashes scheme (rest.dropWhile isSlash)
    else readOther scheme rest

end Stencil.Url
