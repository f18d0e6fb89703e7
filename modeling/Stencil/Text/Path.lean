import Stencil.Text.Split

/-!
# Names and endings of paths

The name of a path is its last part that is neither empty nor `.`, unless that is `..`. The ending
of a name is what follows its last dot; a dot at the front of a name does not count.
-/

namespace Stencil.Text.Path

/-- The parts of a path before its name, and its name. -/
def splitName? (path : String) : Option (List String × String) :=
  let parts := (splitString '/' path).reverse.dropWhile fun part => part == "" || part == "."
  match parts with
  | [] => none
  | name :: before => if name == ".." then none else some (before.reverse, name)

/-- A name before its last dot, and what follows the dot. -/
def splitEnding (name : String) : String × Option String :=
  match (split '.' name.toList).reverse with
  | ending :: piece :: pieces =>
    let stem := ['.'].intercalate (piece :: pieces).reverse
    if stem.isEmpty then (name, none) else (String.ofList stem, some (String.ofList ending))
  | _ => (name, none)

/-- The ending of a path. -/
def ending? (path : String) : Option String :=
  (splitName? path).bind fun p => (splitEnding p.2).2

/-- A path with another ending. As much as the old ending has is first cut off the end of the whole
path, slashes included; where that leaves no name, as `..json` leaves `..`, nothing is added. -/
def withEnding (path ending : String) : String :=
  let old := (ending? path).getD ""
  let short := String.ofList (path.toList.take (path.length - old.length))
  match splitName? short with
  | none => short
  | some (before, name) =>
    "/".intercalate (before ++ [(splitEnding name).1 ++ "." ++ ending])

end Stencil.Text.Path
