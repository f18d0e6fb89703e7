import Stencil.Url.Segments

/-!
# Paths of files

The path of a file may start with a drive, a letter that is written with a colon in the end. Only the
piece that comes first can be a drive, and a file on a drive has no host. Empty segments in front are
dropped.
-/

namespace Stencil.Url

/-- A piece of a path as a segment. -/
def written (piece : List Char) : List Char :=
  percentEncode inPath (piece.filter (!isLeftOut ·))

/-- A drive that a tab or a line end parts from the rest of its piece, and that rest. -/
def cutDrive? (piece : List Char) : Option (List Char × List Char) :=
  match piece.dropWhile isLeftOut with
  | [] => none
  | letter :: rest =>
    match rest.dropWhile isLeftOut with
    | ':' :: mark :: more =>
      if letter.isAlpha && isLeftOut mark && !(written more).isEmpty then
        some ([letter, ':'], written more)
      else none
    | _ => none

/-- The path of a file up to a piece: its segments, and whether a drive came first. -/
structure FilePath where
  segments : List (List Char)
  hasDrive : Bool

namespace FilePath

/-- Goes on to one more piece. What a tab parts is kept as it is, and does not count as a drive. -/
def enter (path : FilePath) (piece : List Char) : FilePath :=
  let segment := written piece
  if path.segments.isEmpty then
    match cutDrive? piece with
    | some (drive, rest) => { path with segments := [drive, rest] }
    | none =>
      if isDrive segment then ⟨[segment.take 1 ++ [':']], true⟩
      else { path with segments := Url.enter [] segment }
  else { path with segments := Url.enter path.segments segment }

/-- The path that is made of some pieces. -/
def ofPieces (pieces : List (List Char)) : FilePath :=
  let path := (pieces ++ closing (pieces.getLast?.map written)).foldl enter ⟨[], false⟩
  match path.segments.dropWhile (·.isEmpty) with
  | [] => { path with segments := [[]] }
  | segments => { path with segments }

end FilePath

end Stencil.Url
