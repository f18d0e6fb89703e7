import Stencil.Text.Split
import Stencil.Text.Utf8

/-!
# Files

The files below a working directory, as octets under places, and what can go wrong with them. A path
is walked one name at a time: every name but the last must be that of a directory, `.` and empty
names stay where they are, and `..` goes up. What lies outside has no names that are known.
-/

namespace Stencil

/-- What can go wrong with a file. -/
inductive Fault where
  | absent
  | notDirectory
  | isDirectory
  | nameTooLong
  | nulInName
  | notUtf8
  | other (text : String)
  deriving DecidableEq

/-- The text of a fault. -/
def Fault.message : Fault → String
  | .absent => "No such file or directory (os error 2)"
  | .notDirectory => "Not a directory (os error 20)"
  | .isDirectory => "Is a directory (os error 21)"
  | .nameTooLong => "File name too long (os error 36)"
  | .nulInName => "file name contained an unexpected NUL byte"
  | .notUtf8 => "stream did not contain valid UTF-8"
  | .other text => text

/-- The text that octets spell. -/
def decodeText (octets : List UInt8) : Except Fault String :=
  match Text.Utf8.decode octets with
  | none => .error .notUtf8
  | some cs => .ok (String.ofList cs)

/-- What stands at a place. -/
inductive Entry where
  | file (octets : List UInt8)
  | directory
  deriving DecidableEq

/-- The names that lead from the working directory to a place below it. -/
abbrev Place := List String

/-- Where a walk has come to. -/
inductive Spot where
  | below (place : Place)
  | outside
  deriving DecidableEq

/-- The entries below a working directory; each place holds one entry at most. -/
abbrev Files := List (Place × Entry)

namespace Files

/-- The most octets that a name may have. -/
def longestName : Nat := 255

/-- The most octets that a path may have. -/
def longestPath : Nat := 4095

/-- What stands at a place. What holds another entry is a directory. -/
def entry? (files : Files) (place : Place) : Option Entry :=
  match files.find? (·.1 == place) with
  | some e => some e.2
  | none =>
    if place.isEmpty || files.any (fun e => place.isPrefixOf e.1) then some .directory else none

/-- Goes one name further. -/
def step (files : Files) (spot : Spot) (name : String) : Except Fault Spot :=
  let stays := name == "" || name == "."
  let isLong := name.utf8ByteSize > longestName
  match spot with
  | .outside =>
    if stays || name == ".." then .ok .outside
    else if isLong then .error .nameTooLong
    else .error .absent
  | .below place =>
    match files.entry? place with
    | none => .error .absent
    | some (.file _) => .error .notDirectory
    | some .directory =>
      if stays then .ok (.below place)
      else if name == ".." then
        if place.isEmpty then .ok .outside else .ok (.below place.dropLast)
      else if isLong then .error .nameTooLong
      else .ok (.below (place ++ [name]))

/-- Walks a path. Nothing need stand where it ends. -/
def walk (files : Files) (path : String) : Except Fault Spot :=
  if path.toList.contains '\x00' then .error .nulInName
  else if path.isEmpty then .error .absent
  else if path.utf8ByteSize > longestPath then .error .nameTooLong
  else
    let start := if path.toList.head? == some '/' then Spot.outside else .below []
    (Text.splitString '/' path).foldlM files.step start

/-- Whether anything stands at a path. -/
def isPresent (files : Files) (path : String) : Bool :=
  match files.walk path with
  | .error _ => false
  | .ok .outside => true
  | .ok (.below place) => (files.entry? place).isSome

/-- The octets of the file at a path. -/
def read (files : Files) (path : String) : Except Fault (List UInt8) :=
  match files.walk path with
  | .error fault => .error fault
  | .ok .outside => .error .isDirectory
  | .ok (.below place) =>
    match files.entry? place with
    | none => .error .absent
    | some .directory => .error .isDirectory
    | some (.file octets) => .ok octets

/-- Puts an entry at a place. -/
def put (files : Files) (place : Place) (entry : Entry) : Files :=
  files.filter (·.1 != place) ++ [(place, entry)]

/-- A path without the slashes at its end. -/
def withoutSlashes (path : String) : String :=
  String.ofList (path.toList.reverse.dropWhile (· == '/')).reverse

/-- Writes the file at a path, whose directory must stand. A path that ends with a slash can only be
that of a directory. -/
def write (files : Files) (path : String) (octets : List UInt8) : Except Fault Files :=
  match files.walk (if path.toList.all (· == '/') then path else withoutSlashes path) with
  | .error fault => .error fault
  | .ok .outside => .error .isDirectory
  | .ok (.below place) =>
    if path.toList.getLast? == some '/' || files.entry? place == some .directory then
      .error .isDirectory
    else .ok (files.put place (.file octets))

end Files

end Stencil
