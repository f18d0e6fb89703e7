import Stencil.Text.Hex
import Stencil.Text.Split

/-!
# Numeric hosts

A host whose last part is a number is an address of 32 bits. Its parts may be written in base ten,
eight (after `0`) or sixteen (after `0x`), and the last one fills all octets that are left. A host
in brackets is an address of 128 bits: eight pieces in base sixteen, of which one run of zeros may
be left out, and the last two may be written as four octets in base ten.
-/

namespace Stencil.Url

/-! ## Addresses of 32 bits -/

/-- Whether a character is a digit of base ten. -/
def isDigit (c : Char) : Bool := '0' ≤ c && c ≤ '9'

/-- The number that digits spell in a base. -/
def numberIn (base : Nat) (cs : List Char) : Option Nat :=
  cs.foldlM
    (fun n c =>
      match Text.hexValue? c with
      | some d => if d < base then some (n * base + d) else none
      | none => none) 0

/-- A part of an address. The number may be too large for any place. -/
def part? : List Char → Option Nat
  | [] => none
  | '0' :: 'x' :: rest => numberIn 16 rest
  | '0' :: 'X' :: rest => numberIn 16 rest
  | '0' :: c :: rest => numberIn 8 (c :: rest)
  | cs => numberIn 10 cs

/-- The parts of a host, without an empty one at its end. -/
def hostParts (cs : List Char) : List (List Char) :=
  let parts := Text.split '.' cs
  if parts.length > 1 && parts.getLast? == some [] then parts.dropLast else parts

/-- Whether the last part of a host is a number. -/
def endsInNumber (cs : List Char) : Bool :=
  match (hostParts cs).getLast? with
  | none => false
  | some last => (!last.isEmpty && last.all isDigit) || (part? last).isSome

/-- The address of a host whose last part is a number. -/
def ipv4? (cs : List Char) : Option Nat :=
  match (hostParts cs).mapM part? with
  | none => none
  | some numbers =>
    let front := numbers.dropLast
    let last := numbers.getLastD 0
    if numbers.length > 4 || front.any (· > 255) || last ≥ Nat.pow 256 (4 - front.length) then none
    else some ((front.mapIdx fun i n => n * Nat.pow 256 (3 - i)).foldl (· + ·) last)

/-- The text of an address of 32 bits. -/
def ipv4Text (n : Nat) : List Char :=
  ['.'].intercalate
    ([n / Nat.pow 256 3 % 256, n / Nat.pow 256 2 % 256, n / 256 % 256, n % 256].map
      (Nat.toDigits 10))

/-! ## Addresses of 128 bits -/

/-- An octet in base ten, without zeros in front. -/
def octet? (cs : List Char) : Option Nat :=
  if cs.isEmpty || !cs.all isDigit || (cs.length > 1 && cs.head? == some '0') then none
  else (numberIn 10 cs).filter (· ≤ 255)

/-- The two pieces that four octets make. -/
def octetPieces? (cs : List Char) : Option (List Nat) :=
  match (Text.split '.' cs).mapM octet? with
  | some [a, b, c, d] => some [a * 256 + b, c * 256 + d]
  | _ => none

/-- Pieces of an address, and how many of them stand before the run of zeros that was left out. -/
structure Pieces where
  pieces : List Nat
  gap : Option Nat

/-- Whether a character is a digit of base sixteen. -/
def isHexDigit (c : Char) : Bool := (Text.hexValue? c).isSome

/-- The pieces of a text after those that were read. -/
def readPieces (seen : Pieces) (cs : List Char) : Option Pieces :=
  match _hc : cs with
  | [] => some seen
  | ':' :: rest =>
    if seen.pieces.length ≥ 8 || seen.gap.isSome then none
    else readPieces ⟨seen.pieces ++ [0], some (seen.pieces.length + 1)⟩ rest
  | c :: tail =>
    if seen.pieces.length ≥ 8 then none
    else
      let digits := ((c :: tail).take 4).takeWhile isHexDigit
      let piece := (numberIn 16 digits).getD 0
      match _hr : (c :: tail).drop digits.length with
      | [] => some ⟨seen.pieces ++ [piece], seen.gap⟩
      | '.' :: _ =>
        if digits.isEmpty || seen.pieces.length > 6 then none
        else (octetPieces? (c :: tail)).map fun two => ⟨seen.pieces ++ two, seen.gap⟩
      | ':' :: rest =>
        if rest.isEmpty then none else readPieces ⟨seen.pieces ++ [piece], seen.gap⟩ rest
      | _ => none
termination_by cs.length
decreasing_by
  · simp
  · have := congrArg List.length _hr
    simp at this ⊢
    omega

/-- The eight pieces of an address in brackets. -/
def ipv6? (cs : List Char) : Option (List Nat) :=
  let start :=
    match cs with
    | [] => none
    | [_] => none
    | ':' :: c :: rest => if c == ':' then readPieces ⟨[0], some 1⟩ rest else none
    | cs => readPieces ⟨[], none⟩ cs
  match start with
  | none => none
  | some ⟨pieces, none⟩ => if pieces.length == 8 then some pieces else none
  | some ⟨pieces, some gap⟩ =>
    some (pieces.take gap ++ List.replicate (8 - pieces.length) 0 ++ pieces.drop gap)

/-- The length of the run of zeros that pieces start with. -/
def zeros (pieces : List Nat) : Nat := (pieces.takeWhile (· == 0)).length

/-- The first of the longest runs of zeros, as its start and its length. -/
def longestRun (pieces : List Nat) : Nat × Nat :=
  (List.range pieces.length).foldl
    (fun best i => if zeros (pieces.drop i) > best.2 then (i, zeros (pieces.drop i)) else best)
    (0, 0)

/-- The text of pieces with colons between them. -/
def piecesText (pieces : List Nat) : List Char :=
  [':'].intercalate (pieces.map (Nat.toDigits 16))

/-- The text of an address of 128 bits. A run of at least two zeros is left out. -/
def ipv6Text (pieces : List Nat) : List Char :=
  let run := longestRun pieces
  if run.2 < 2 then piecesText pieces
  else
    piecesText (pieces.take run.1) ++ [':', ':'] ++ piecesText (pieces.drop (run.1 + run.2))

end Stencil.Url
