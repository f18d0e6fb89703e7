/-!
# Double-precision numbers

Finite doubles as what they are: a sign, a mantissa below 2^53 and a power of two. All arithmetic is
exact arithmetic on natural numbers followed by one rounding to the nearest double, halves to the
even mantissa.

`ofDecimal` reads a significand with a power of ten the way documents are read: the significand is
rounded first, then multiplied or divided by the rounded power, in steps of at most 10^308, with one
rounding a step. It is therefore exact for short decimals and may be off by a unit in the last place
for long ones.
-/

namespace Stencil.Decimal

/-- The magnitude of a finite double, `mantissa * 2 ^ exponent`. -/
structure Magnitude where
  mantissa : Nat
  exponent : Int
  deriving DecidableEq

/-- A finite double. -/
structure Binary64 where
  negative : Bool
  magnitude : Magnitude
  deriving DecidableEq

/-- What mantissas stay below. -/
def mantissaBound : Nat := Nat.pow 2 53

/-- The exponent of the smallest doubles. -/
def leastExponent : Int := -1074

/-- The exponent of the largest doubles. -/
def greatestExponent : Int := 971

/-- The quotient rounded to the nearest natural number, halves to the even one. -/
def roundDiv (num den : Nat) : Nat :=
  let q := num / den
  let r := num % den
  if 2 * r > den || (2 * r == den && q % 2 == 1) then q + 1 else q

/-- `num / den` divided by a power of two, as a quotient of natural numbers. -/
def scaleDown (num den : Nat) (e : Int) : Nat × Nat :=
  if 0 ≤ e then (num, den * Nat.pow 2 e.toNat) else (num * Nat.pow 2 (-e).toNat, den)

namespace Magnitude

/-- Nothing. -/
def zero : Magnitude := ⟨0, leastExponent⟩

/-- The double nearest to a quotient, or `none` if it is beyond the largest one. -/
def nearest (num den : Nat) : Option Magnitude :=
  if num == 0 then some zero
  else
    let guess := (num.log2 : Int) - den.log2 - 53
    let (n, d) := scaleDown num den guess
    let e := max leastExponent (if n / d < mantissaBound then guess else guess + 1)
    let (n, d) := scaleDown num den e
    let m := roundDiv n d
    let (m, e) := if m == mantissaBound then (mantissaBound / 2, e + 1) else (m, e)
    if greatestExponent < e then none else some ⟨m, e⟩

/-- A magnitude as a quotient of natural numbers. -/
def ratio (x : Magnitude) : Nat × Nat :=
  if 0 ≤ x.exponent then (x.mantissa * Nat.pow 2 x.exponent.toNat, 1)
  else (x.mantissa, Nat.pow 2 (-x.exponent).toNat)

/-- The rounded product. -/
def mul (x y : Magnitude) : Option Magnitude :=
  nearest (x.ratio.1 * y.ratio.1) (x.ratio.2 * y.ratio.2)

/-- The rounded quotient. -/
def div (x y : Magnitude) : Option Magnitude :=
  nearest (x.ratio.1 * y.ratio.2) (x.ratio.2 * y.ratio.1)

/-- The double nearest to a power of ten. -/
def tenTo (k : Nat) : Option Magnitude :=
  nearest (Nat.pow 10 k) 1

/-- Divides by 10^308 a number of times, or until nothing is left. -/
def lower (x : Magnitude) : (steps : Nat) → Option Magnitude
  | 0 => some x
  | steps + 1 =>
    if x.mantissa == 0 then some x
    else do lower (← x.div (← tenTo 308)) steps

/-- A significand times a power of ten, or `none` if that is beyond the largest double. -/
def ofDecimal (significand : Nat) (exponent : Int) : Option Magnitude := do
  let x ← nearest significand 1
  if x.mantissa == 0 then some zero
  else if 308 < exponent then none
  else if 0 ≤ exponent then x.mul (← tenTo exponent.toNat)
  else
    let steps := ((-exponent).toNat - 1) / 308
    let y ← x.lower steps
    if y.mantissa == 0 then some zero
    else y.div (← tenTo ((-exponent).toNat - 308 * steps))

end Magnitude

end Stencil.Decimal
