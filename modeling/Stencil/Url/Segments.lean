import Stencil.Url.Basic

/-!
# Segments of paths

A segment `.` stands for the directory that it is in, and `..` for the one above it, also where
their dots are written with percent signs. A segment that looks like the letter of a drive is never
left.
-/

namespace Stencil.Url

/-- Whether a segment stands for its own directory. -/
def isDot (segment : List Char) : Bool :=
  segment == ['.'] || segment == ['%', '2', 'e'] || segment == ['%', '2', 'E']

/-- Whether a segment stands for the directory above. -/
def isDoubleDot (segment : List Char) : Bool :=
  [1, 3].any fun n =>
    isDot (segment.take n) && isDot (segment.drop n)

/-- Whether a segment looks like the letter of a drive. -/
def isDrive : List Char → Bool
  | [c, d] => c.isAlpha && (d == ':' || d == '|')
  | _ => false

/-- The segments of the directory above. -/
def above (segments : List (List Char)) : List (List Char) :=
  match segments.getLast? with
  | none => []
  | some last => if isDrive last then segments else segments.dropLast

/-- Goes on from some segments to one more. -/
def enter (before : List (List Char)) (segment : List Char) : List (List Char) :=
  if isDoubleDot segment then above before
  else if isDot segment then before
  else before ++ [segment]

/-- What a path ends with after its last segment: an empty one if that stands for a directory. -/
def closing (last : Option (List Char)) : List (List Char) :=
  match last with
  | some segment => if isDot segment || isDoubleDot segment then [[]] else []
  | none => []

/-- Puts segments after others. -/
def place (before segments : List (List Char)) : List (List Char) :=
  (segments ++ closing segments.getLast?).foldl enter before

/-- Whether a character is left out wherever it stands in an address. -/
def isLeftOut (c : Char) : Bool := c == '\t' || c == '\n' || c == '\r'

/-- The segments of a path, with a final empty one taken away. -/
def popEmpty (segments : List (List Char)) : List (List Char) :=
  if segments.length > 1 && segments.getLast? == some [] then segments.dropLast else segments

/-- The segments of a path with one more text as its last segment. The texts `.` and `..` are passed
over. -/
def pushSegment (segments : List (List Char)) (text : String) : List (List Char) :=
  if text == "." || text == ".." then segments
  else
    let before := if segments == [[]] then [] else segments
    place before [percentEncode inSpecialSegment (text.toList.filter (!isLeftOut ·))]

end Stencil.Url
