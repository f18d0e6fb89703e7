import Stencil.Decimal.Binary64

/-!
# Shortest decimals

The decimal that stands for a double in text has the fewest digits among those that read back as the
same double, and among these it is the nearest one. A decimal reads back as a double when it lies in
the interval of numbers that round to it, whose ends belong to it exactly when the mantissa is even.

For every digit count from 1 to 17 the two neighbours of the value on the grid of decimals with that
many digits are tested; the first count with a hit wins. If any decimal of a grid lies in the
interval, so does one of these two, and 17 digits always suffice.
-/

namespace Stencil.Decimal

/-- A decimal `digits * 10 ^ exponent`. -/
structure Numeral where
  digits : Nat
  exponent : Int
  deriving DecidableEq

namespace Magnitude

/-- Compares `d * 10 ^ k` with `x * 2 ^ e`, exactly. -/
def compareDecimal (d : Nat) (k : Int) (x : Nat) (e : Int) : Ordering :=
  compare (d * Nat.pow 10 k.toNat * Nat.pow 2 (-e).toNat)
    (x * Nat.pow 2 e.toNat * Nat.pow 10 (-k).toNat)

/-- Whether `d * 10 ^ k` rounds to this magnitude. -/
def accepts (m : Magnitude) (d : Nat) (k : Int) : Bool :=
  let low := if m.mantissa == mantissaBound / 2 && m.exponent != leastExponent then
      4 * m.mantissa - 1
    else 4 * m.mantissa - 2
  let high := 4 * m.mantissa + 2
  let overLow := compareDecimal d k low (m.exponent - 2)
  let overHigh := compareDecimal d k high (m.exponent - 2)
  if m.mantissa % 2 == 0 then overLow != .lt && overHigh != .gt
  else overLow == .gt && overHigh == .lt

/-- The power of ten of the first digit of a magnitude above zero. -/
def leadingPower (m : Magnitude) : Int :=
  let (num, den) := m.ratio
  ((Nat.toDigits 10 (num * Nat.pow 10 400 / den)).length : Int) - 401

/-- Which of two neighbouring grid points lies nearer; halfway, the even one. -/
def nearer (m : Magnitude) (d : Nat) (k : Int) : Nat :=
  match compareDecimal (2 * d + 1) k (2 * m.mantissa) m.exponent with
  | .gt => d
  | .lt => d + 1
  | .eq => if d % 2 == 0 then d else d + 1

/-- The decimal with `count` digits that reads back as this magnitude, the nearest one. -/
def onGrid (m : Magnitude) (count : Nat) : Option Numeral :=
  let k := m.leadingPower - count + 1
  let (num, den) := m.ratio
  let d := num * Nat.pow 10 (-k).toNat / (den * Nat.pow 10 k.toNat)
  let best := m.nearer d k
  if m.accepts best k then some ⟨best, k⟩
  else if m.accepts d k then some ⟨d, k⟩
  else if m.accepts (d + 1) k then some ⟨d + 1, k⟩
  else none

/-- The shortest decimal of a magnitude. -/
def shortest (m : Magnitude) : Numeral :=
  if m.mantissa == 0 then ⟨0, 0⟩
  else ((List.range 17).findSome? fun n => m.onGrid (n + 1)).getD ⟨0, 0⟩

end Magnitude

/-- Removes the zeros at the end of the digits; at most `fuel` of them. -/
def Numeral.strip (d : Numeral) : (fuel : Nat) → Numeral
  | 0 => d
  | fuel + 1 =>
    if d.digits % 10 == 0 && d.digits != 0 then strip ⟨d.digits / 10, d.exponent + 1⟩ fuel else d

end Stencil.Decimal
