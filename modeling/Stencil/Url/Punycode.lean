import Stencil.Text.Utf8

/-!
# Punycode

A label of a host that holds more than ASCII is written with letters, digits and hyphens only: its
ASCII characters first, then for every other one how far the writer went to insert it, as a number
of variable length in base 36. The digit that ends a number depends on a bias, which follows the
sizes of the numbers written so far.
-/

namespace Stencil.Url.Punycode

/-- The character of a digit in base 36. -/
def digitChar (d : Nat) : Char :=
  if d < 26 then Char.ofNat (0x61 + d) else Char.ofNat (0x30 + d - 26)

/-- The value of a digit in base 36. -/
def digitValue? (c : Char) : Option Nat :=
  if 'a' ≤ c && c ≤ 'z' then some (c.toNat - 0x61)
  else if 'A' ≤ c && c ≤ 'Z' then some (c.toNat - 0x41)
  else if '0' ≤ c && c ≤ '9' then some (c.toNat - 0x30 + 26)
  else none

/-- The least value with which the digit at a position does not end a number. -/
def threshold (position bias : Nat) : Nat :=
  if position ≤ bias then 1 else if bias + 26 ≤ position then 26 else position - bias

/-- Thresholds are positive. -/
theorem threshold_pos (position bias : Nat) : 1 ≤ threshold position bias := by
  unfold threshold
  split
  · omega
  · split <;> omega

/-- Halves a distance down to what the bias formula takes, counting by 36. -/
def settleBias (delta count : Nat) : Nat :=
  if 455 < delta then settleBias (delta / 35) (count + 36) else count + 36 * delta / (delta + 38)
termination_by delta
decreasing_by omega

/-- The bias after a distance was written, with `points` characters in place. -/
def adapt (delta points : Nat) (first : Bool) : Nat :=
  let d := if first then delta / 700 else delta / 2
  settleBias (d + d / points) 0

/-- A number in base 36 from a position on. -/
def writeNumber (bias position n : Nat) : List Char :=
  let t := threshold position bias
  if n < t then [digitChar n]
  else digitChar (t + (n - t) % (36 - t)) :: writeNumber bias (position + 36) ((n - t) / (36 - t))
termination_by n
decreasing_by
  have := threshold_pos position bias
  have := Nat.div_le_self (n - threshold position bias) (36 - threshold position bias)
  omega

/-- What a writer knows: the distance since the last insertion, the bias, and how many characters
are in place. -/
structure Writer where
  output : List Char
  delta : Nat
  bias : Nat
  placed : Nat

/-- Passes one character while those with the code point `point` are inserted. -/
def Writer.pass (basics point : Nat) (w : Writer) (c : Char) : Writer :=
  if c.toNat < point then { w with delta := w.delta + 1 }
  else if c.toNat == point then
    ⟨w.output ++ writeNumber w.bias 36 w.delta, 0,
      adapt w.delta (w.placed + 1) (w.placed == basics), w.placed + 1⟩
  else w

/-- Inserts the characters of ascending code points, starting from `low`. -/
def insertPoints (label : List Char) (basics : Nat) : List Nat → Nat → Writer → Writer
  | [], _, w => w
  | point :: rest, low, w =>
    let w := { w with delta := w.delta + (point - low) * (w.placed + 1) }
    let w := label.foldl (Writer.pass basics point) w
    insertPoints label basics rest (point + 1) { w with delta := w.delta + 1 }

/-- Whether a character is in ASCII. -/
def isBasic (c : Char) : Bool := c.toNat < 0x80

/-- A label in ASCII. -/
def encode (label : List Char) : List Char :=
  let basic := label.filter isBasic
  let points := ((label.filter (!isBasic ·)).map Char.toNat).mergeSort (· ≤ ·)
  let w := insertPoints label basic.length points.eraseReps 128 ⟨[], 0, 72, basic.length⟩
  basic ++ (if basic.isEmpty then [] else ['-']) ++ w.output

/-- What all numbers and weights in a label must stay below. -/
def bound : Nat := 4294967296

/-- A number in base 36 from a position on, added to `sum` with a weight, and what follows it. -/
def readNumber (bias : Nat) : (position weight sum : Nat) → List Char → Option (Nat × List Char)
  | _, _, _, [] => none
  | position, weight, sum, c :: rest =>
    match digitValue? c with
    | none => none
    | some d =>
      let t := threshold position bias
      let sum := sum + d * weight
      if sum ≥ bound then none
      else if d < t then some (sum, rest)
      else if weight * (36 - t) ≥ bound then none
      else readNumber bias (position + 36) (weight * (36 - t)) sum rest

/-- Reading a number takes something off the text. -/
theorem length_readNumber_lt {bias position weight sum n : Nat} {cs rest : List Char}
    (h : readNumber bias position weight sum cs = some (n, rest)) : rest.length < cs.length := by
  induction cs generalizing position weight sum with
  | nil => simp [readNumber] at h
  | cons c cs ih =>
    simp only [readNumber] at h
    split at h
    · cases h
    · split at h
      · cases h
      · split at h
        · cases h
          simp
        · split at h
          · cases h
          · have := ih h
            simp
            omega

/-- Inserts characters into a label until the numbers end. -/
def insertNumbers (bias point at_ : Nat) (label cs : List Char) : Option (List Char) :=
  match cs with
  | [] => some label
  | c :: tail =>
    match _h : readNumber bias 36 1 at_ (c :: tail) with
    | none => none
    | some (n, rest) =>
      let points := label.length + 1
      let point' := point + n / points
      if point'.isValidChar then
        insertNumbers (adapt (n - at_) points (at_ == 0)) point' (n % points + 1)
          (label.take (n % points) ++ Char.ofNat point' :: label.drop (n % points)) rest
      else none
termination_by cs.length
decreasing_by
  have := length_readNumber_lt _h
  simpa using this

/-- The label that a text in ASCII stands for. A hyphen parts the ASCII characters from the numbers
only where there are such characters. -/
def decode? (cs : List Char) : Option (List Char) :=
  let tail := (cs.reverse.takeWhile (· != '-')).reverse
  let front := cs.take (cs.length - tail.length)
  if front.length == 1 then none else insertNumbers 72 128 0 front.dropLast tail

end Stencil.Url.Punycode
