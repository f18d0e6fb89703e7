import Stencil.Decimal.Shortest

/-!
# Numbers of a document

A document keeps integers from -2^63 up to 2^64 - 1 exactly and every other number, the negative
zero among them, as a double.

A double is written with the fewest digits that read back: in positional notation with at least one
digit on either side of the point from 0.00001 up to 10^16, otherwise with one digit before the
point and a signed exponent.
-/

namespace Stencil.Json

open Stencil.Decimal

/-- A number of a document. -/
inductive Number where
  | int (value : Int)
  | real (value : Binary64)
  deriving DecidableEq

namespace Number

/-- The size of the least integer that is kept exactly. -/
def leastSize : Nat := Nat.pow 2 63

/-- The largest integer that is kept exactly. -/
def greatestInt : Nat := Nat.pow 2 64 - 1

/-- The negative zero. -/
def negativeZero : Number := .real ⟨true, Magnitude.zero⟩

/-- The integer of a sign and digits, exact where it fits. -/
def ofInteger (negative : Bool) (magnitude : Nat) : Option Number :=
  if !negative then some (.int magnitude)
  else if magnitude == 0 then some negativeZero
  else if magnitude ≤ leastSize then some (.int (-magnitude))
  else (Magnitude.nearest magnitude 1).map fun m => .real ⟨true, m⟩

/-- Digits with the point after the first `whole` of them; zeros fill the gaps. -/
def positional (digits : List Char) (whole : Int) : List Char :=
  if whole ≤ 0 then
    ['0', '.'] ++ List.replicate (-whole).toNat '0' ++ digits
  else if digits.length ≤ whole.toNat then
    digits ++ List.replicate (whole.toNat - digits.length) '0' ++ ['.', '0']
  else digits.take whole.toNat ++ ['.'] ++ digits.drop whole.toNat

/-- Digits with the point after the first one, and the power of ten of that one. -/
def scientific (digits : List Char) (power : Int) : List Char :=
  let sign := if power < 0 then '-' else '+'
  let point := if digits.length ≤ 1 then [] else '.' :: digits.drop 1
  digits.take 1 ++ point ++ ['e', sign] ++ Nat.toDigits 10 power.natAbs

/-- The text of a magnitude. -/
def magnitudeText (m : Magnitude) : List Char :=
  let d := m.shortest.strip 400
  let digits := Nat.toDigits 10 d.digits
  let power := d.exponent + digits.length - 1
  if m.mantissa == 0 then ['0', '.', '0']
  else if -5 ≤ power && power < 16 then positional digits (power + 1)
  else scientific digits power

/-- The text of a number. -/
def text : Number → List Char
  | .int n => (if n < 0 then ['-'] else []) ++ Nat.toDigits 10 n.natAbs
  | .real x => (if x.negative then ['-'] else []) ++ magnitudeText x.magnitude

end Number

end Stencil.Json
