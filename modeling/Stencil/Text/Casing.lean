/-!
# ASCII letter case

Names of settings and of file endings are compared without regard to the case of the letters `A`
to `Z`; every other character stands for itself.
-/

namespace Stencil.Text

/-- The lower-case form of an ASCII letter, every other character unchanged. -/
def foldCase (c : Char) : Char :=
  if 'A' ≤ c && c ≤ 'Z' then Char.ofNat (c.toNat + 32) else c

/-- A text with its ASCII letters in lower case. -/
def lower (s : List Char) : List Char :=
  s.map foldCase

/-- Whether two texts differ at most in the case of their ASCII letters. -/
def sameLetters (s t : String) : Bool :=
  lower s.toList == lower t.toList

end Stencil.Text
