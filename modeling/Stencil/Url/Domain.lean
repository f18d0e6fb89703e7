import Stencil.Url.Domain.Direction
import Stencil.Url.Domain.Joining
import Stencil.Url.Domain.NormalForm
import Stencil.Url.Punycode

/-!
# Domain names

The characters of a name stand for others: capitals for small letters, for instance. The name is
brought to its normal form and cut at its periods into labels. A label beyond ASCII is written in
Punycode after `xn--`, and one that is already written so must be in the form that it would get. No
character may be left that separates parts of an address.
-/

namespace Stencil.Url.Domain

/-- A label as it is read, and as it is written in ASCII. -/
structure Label where
  plain : List Char
  ascii : List Char

namespace Label

/-- What labels in Punycode start with. -/
def punycodeMark : List Char := ['x', 'n', '-', '-']

/-- The most characters that a label beyond ASCII may have. -/
def longest : Nat := 1000

/-- The most characters that may follow the mark of a label in Punycode. -/
def longestCode : Nat := 2000

/-- Whether a character may not stand in a name. -/
def isForbidden (c : Char) : Bool :=
  c.toNat ≤ 0x20 || c.toNat == 0x7F ||
    ['%', '#', '/', ':', '<', '>', '?', '@', '[', '\\', ']', '^', '|'].contains c

/-- Whether a label beyond ASCII starts with no mark, has its joiners where they belong and is not
too long. -/
def isWellMade (label : List Char) : Bool :=
  !(label.head?.map Text.isMark).getD false && hasGoodJoiners [] label &&
    (label.all Punycode.isBasic || label.length ≤ longest)

/-- Whether a text is a label in its final form. -/
def isSettled (label : List Char) : Bool :=
  (mapText label).map normalForm == some label && !label.any (fun c => isForbidden c || c == '.')

/-- A label in Punycode, from what follows the mark. -/
def ofCode? (code : List Char) : Option Label :=
  if code.getLast?.getD '-' == '-' || code.length > longestCode then none
  else
    match Punycode.decode? code with
    | none => none
    | some plain =>
      if isSettled plain && isWellMade plain then some ⟨plain, punycodeMark ++ code⟩ else none

/-- The label that a text in normal form spells. -/
def ofText? (text : List Char) : Option Label :=
  let isCode := punycodeMark.isPrefixOf text
  if text.any isForbidden then none
  else if text.all Punycode.isBasic then
    if isCode then ofCode? (text.drop punycodeMark.length) else some ⟨text, text⟩
  else if isCode || !isWellMade text then none
  else some ⟨text, punycodeMark ++ Punycode.encode text⟩

end Label

/-- A name in ASCII. -/
def toAscii? (name : List Char) : Option (List Char) :=
  match (mapText name).bind fun text => (Text.split '.' (normalForm text)).mapM Label.ofText? with
  | none => none
  | some labels =>
    if labels.any (runsLeftward ·.plain) && !labels.all (isReadable ·.plain) then none
    else some (['.'].intercalate (labels.map (·.ascii)))

end Stencil.Url.Domain
