import Stencil.Text.CombiningClass
import Stencil.Url.Domain.Composite

/-!
# The normal form of names

The same letter can be written as one character or as a base and marks, and the marks in more than
one order. In the normal form every character is taken apart, the marks after a base are sorted by
their classes, and then each base is joined with every mark that makes a composite with it, unless a
mark of the same class stands between them. Korean syllables are taken apart and joined by a rule.
-/

namespace Stencil.Url.Domain

/-! ## Korean syllables -/

/-- The code point of the first syllable. -/
def firstSyllable : Nat := 0xAC00

/-- The code point of the first letter that starts a syllable. -/
def firstLead : Nat := 0x1100

/-- The code point of the first vowel. -/
def firstVowel : Nat := 0x1161

/-- The code point of the first letter that ends a syllable. -/
def firstTail : Nat := 0x11A8

/-- How many letters start a syllable. -/
def leadCount : Nat := 19

/-- How many vowels there are. -/
def vowelCount : Nat := 21

/-- How many endings a syllable can have, that of no letter included. -/
def tailCount : Nat := 28

/-- The place of a number among the `count` numbers from `first` on. -/
def placeFrom? (first count n : Nat) : Option Nat :=
  if first ≤ n && n < first + count then some (n - first) else none

/-- The letters of a Korean syllable. -/
def syllableLetters? (c : Char) : Option (List Char) :=
  (placeFrom? firstSyllable (leadCount * vowelCount * tailCount) c.toNat).map fun n =>
    let lead := Char.ofNat (firstLead + n / (vowelCount * tailCount))
    let vowel := Char.ofNat (firstVowel + n / tailCount % vowelCount)
    let tail := n % tailCount
    if tail == 0 then [lead, vowel] else [lead, vowel, Char.ofNat (firstTail + tail - 1)]

/-- The syllable of a letter that starts one and a vowel, or of a syllable and a letter that ends
it. -/
def joinSyllable? (a b : Char) : Option Char :=
  match placeFrom? firstLead leadCount a.toNat, placeFrom? firstVowel vowelCount b.toNat with
  | some lead, some vowel =>
    some (Char.ofNat (firstSyllable + (lead * vowelCount + vowel) * tailCount))
  | _, _ =>
    match placeFrom? firstSyllable (leadCount * vowelCount * tailCount) a.toNat,
      placeFrom? firstTail (tailCount - 1) b.toNat with
    | some syllable, some tail =>
      if syllable % tailCount == 0 then some (Char.ofNat (a.toNat + tail + 1)) else none
    | _, _ => none

/-! ## Taking apart -/

/-- A character taken apart. As each composite stands before its base, one walk down the list is
enough. -/
def takeApart : List Composite → Char → List Char
  | [], c => [c]
  | e :: rest, c =>
    if c == e.whole then takeApart rest e.base ++ [e.mark] else takeApart rest c

/-- The characters that a character is made of. -/
def parts (c : Char) : List Char := (syllableLetters? c).getD (takeApart composites c)

/-- Puts a character at the end of a reversed text, before the marks of greater classes there. -/
def arrange : List Char → Char → List Char
  | [], c => [c]
  | last :: before, c =>
    let n := Text.combiningClass c
    if n != 0 && n < Text.combiningClass last then last :: arrange before c else c :: last :: before

/-! ## Joining -/

/-- The composite of two characters. -/
def join? (base mark : Char) : Option Char :=
  match joinSyllable? base mark with
  | some c => some c
  | none => (composites.find? fun e => e.base == base && e.mark == mark).map (·.whole)

/-- Joins a base with the marks after it. The marks that have stayed are reversed. -/
def joinFrom (base : Char) (stayed : List Char) : List Char → List Char
  | [] => base :: stayed.reverse
  | c :: rest =>
    let n := Text.combiningClass c
    let isFree := (stayed.head?.map fun mark => decide (Text.combiningClass mark < n)).getD true
    match if isFree then join? base c else none with
    | some whole => joinFrom whole stayed rest
    | none =>
      if n == 0 then base :: stayed.reverse ++ joinFrom c [] rest
      else joinFrom base (c :: stayed) rest

/-- Joins what can be joined in a text. Marks in front have no base. -/
def joinAll : List Char → List Char
  | [] => []
  | c :: rest => if Text.combiningClass c == 0 then joinFrom c [] rest else c :: joinAll rest

/-- The normal form of a text. -/
def normalForm (cs : List Char) : List Char :=
  joinAll ((cs.flatMap parts).foldl arrange []).reverse

end Stencil.Url.Domain
