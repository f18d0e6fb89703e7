import Stencil.Json.Comments
import Stencil.Json.Token
import Stencil.Proofs.Text.Numeral

/-!
# How documents are written

A document is written as a sequence of symbols: brackets, colons, commas and literals. Numbers and
strings are written as the grammar of documents has them; a number may be beyond what is kept, and a
string may hold half of a surrogate pair. `Spaced` says which texts spell a sequence of symbols,
with gaps around them.

In a strict text the gaps are blanks. A lenient one has comments in them too, and may have a comma
after the last item of a container, a symbol of its own here.
-/

namespace Stencil.Json

/-! ## Literals -/

/-- Digits, at least one. -/
def Digits (ds : List Char) : Prop := ds ≠ [] ∧ ∀ c ∈ ds, c.isDigit = true

/-- There is a first digit. -/
theorem Digits.exists_cons {ds : List Char} (h : Digits ds) :
    ∃ c tail, ds = c :: tail ∧ c.isDigit = true ∧ ∀ d ∈ tail, d.isDigit = true := by
  obtain ⟨c, tail, rfl⟩ := List.exists_cons_of_ne_nil h.1
  exact ⟨c, tail, rfl, List.forall_mem_cons.1 h.2⟩

/-- A sign, or none. -/
def Sign (sign : List Char) : Prop := sign = [] ∨ sign = ['+'] ∨ sign = ['-']

/-- A number as it is written: digits without a leading zero, digits after the point, and a letter,
a sign and digits for a power of ten. -/
structure WrittenNumber where
  negative : Bool
  whole : List Char
  fraction : Option (List Char)
  power : Option (Char × List Char × List Char)
  whole_digits : Digits whole
  whole_leads : whole.head? = some '0' → whole = ['0']
  fraction_digits : ∀ ds ∈ fraction, Digits ds
  power_letter : ∀ p ∈ power, p.1 = 'e' ∨ p.1 = 'E'
  power_sign : ∀ p ∈ power, Sign p.2.1
  power_digits : ∀ p ∈ power, Digits p.2.2

namespace WrittenNumber

/-- The power of ten. -/
def powerChars (n : WrittenNumber) : List Char :=
  match n.power with
  | none => []
  | some (letter, sign, ds) => letter :: (sign ++ ds)

/-- What follows the whole digits. -/
def afterWhole (n : WrittenNumber) : List Char :=
  match n.fraction with
  | none => n.powerChars
  | some ds => '.' :: (ds ++ n.powerChars)

/-- The characters of a number. -/
def chars (n : WrittenNumber) : List Char :=
  if n.negative then '-' :: (n.whole ++ n.afterWhole) else n.whole ++ n.afterWhole

end WrittenNumber

/-- The letters of escapes, with the characters that they stand for. -/
def escapeLetters : List (Char × Char) :=
  [('"', '"'), ('\\', '\\'), ('/', '/'), ('b', '\x08'), ('f', '\x0c'), ('n', '\n'), ('r', '\r'),
    ('t', '\t')]

/-- A character that stands for itself in a string. -/
def Plain (c : Char) : Prop := c ≠ '"' ∧ c ≠ '\\' ∧ 0x20 ≤ c.toNat

instance (c : Char) : Decidable (Plain c) := inferInstanceAs (Decidable (_ ∧ _))

/-- The four hexadecimal digits of a code unit. -/
def CodeUnit (digits : List Char) (n : Nat) : Prop :=
  digits.length = 4 ∧ Text.Numeral 16 digits n

/-- A part of a string: a character as it is, an escape with a letter, or one with the digits of a
code unit. -/
inductive Piece where
  | plain (c : Char) (h : Plain c)
  | escape (letter value : Char) (h : (letter, value) ∈ escapeLetters)
  | unit (digits : List Char) (n : Nat) (h : CodeUnit digits n)

namespace Piece

/-- The characters of a part of a string. -/
def chars : Piece → List Char
  | plain c _ => [c]
  | escape letter _ _ => ['\\', letter]
  | unit digits _ _ => '\\' :: 'u' :: digits

end Piece

/-- The characters of the parts of a string. -/
def quotedChars (pieces : List Piece) : List Char := pieces.flatMap Piece.chars

/-- No code unit of a string is half of a surrogate pair without the other half. -/
inductive Paired : List Piece → Prop
  | nil : Paired []
  | plain {c h rest} : Paired rest → Paired (.plain c h :: rest)
  | escape {letter value h rest} : Paired rest → Paired (.escape letter value h :: rest)
  | unit {digits n h rest} : n < 0xD800 ∨ 0xE000 ≤ n → Paired rest →
      Paired (.unit digits n h :: rest)
  | pair {digits n h digits' m h' rest} : 0xD800 ≤ n ∧ n < 0xDC00 → 0xDC00 ≤ m ∧ m < 0xE000 →
      Paired rest → Paired (.unit digits n h :: .unit digits' m h' :: rest)

/-- A value without parts, as it is written. -/
inductive Literal where
  | null
  | bool (b : Bool)
  | number (n : WrittenNumber)
  | string (pieces : List Piece)

namespace Literal

/-- The characters of a literal. -/
def chars : Literal → List Char
  | null => ['n', 'u', 'l', 'l']
  | bool true => ['t', 'r', 'u', 'e']
  | bool false => ['f', 'a', 'l', 's', 'e']
  | number n => n.chars
  | string pieces => '"' :: (quotedChars pieces ++ ['"'])

end Literal

/-! ## Symbols -/

/-- What a document is written with. An `extra` comma stands after the last item of a container. -/
inductive Symbol where
  | openTable
  | closeTable
  | openList
  | closeList
  | colon
  | comma
  | extra
  | literal (l : Literal)

namespace Symbol

/-- The characters of a symbol. -/
def chars : Symbol → List Char
  | openTable => ['{']
  | closeTable => ['}']
  | openList => ['[']
  | closeList => [']']
  | colon => [':']
  | comma => [',']
  | extra => [',']
  | literal l => l.chars

/-- Whether the symbol is a closing bracket. -/
def closes : Symbol → Bool
  | closeTable => true
  | closeList => true
  | _ => false

/-- Whether the symbol is a literal. -/
def isLiteral : Symbol → Bool
  | literal _ => true
  | _ => false

/-- Whether a strict document may have the symbol. -/
def isStrict : Symbol → Bool
  | extra => false
  | _ => true

/-- What may follow the symbol: after a comma an item, after an extra one a closing bracket, and
after a literal no other one. -/
def Admits : Symbol → Option Symbol → Prop
  | comma, next => ∃ s ∈ next, s.closes = false
  | extra, next => ∃ s ∈ next, s.closes = true
  | literal _, next => ∀ s ∈ next, s.isLiteral = false
  | _, _ => True

end Symbol

/-- Every symbol is followed by one that it admits. -/
def Fitting : List Symbol → Prop
  | [] => True
  | s :: rest => s.Admits rest.head? ∧ Fitting rest

/-! ## Documents -/

/-- A document as it is written. A container tells whether a comma follows its last item. -/
inductive Tree where
  | literal (l : Literal)
  | list (items : List Tree) (extra : Bool)
  | table (fields : List (List Piece × Tree)) (extra : Bool)

namespace Tree

/-- The comma after the last of some items, if there is one and it is to be written. -/
def extraSymbols (lenient extra isEmpty : Bool) : List Symbol :=
  if lenient && extra && !isEmpty then [.extra] else []

mutual

/-- The symbols of a document; a strict one has no extra commas. -/
def symbols (lenient : Bool) : Tree → List Symbol
  | literal l => [.literal l]
  | list items extra =>
    .openList :: itemSymbols lenient items ++ extraSymbols lenient extra items.isEmpty ++
      [.closeList]
  | table fields extra =>
    .openTable :: fieldSymbols lenient fields ++ extraSymbols lenient extra fields.isEmpty ++
      [.closeTable]

/-- The symbols of the items of a list. -/
def itemSymbols (lenient : Bool) : List Tree → List Symbol
  | [] => []
  | d :: rest => d.symbols lenient ++ moreItems lenient rest

/-- The symbols of the items of a list after the first. -/
def moreItems (lenient : Bool) : List Tree → List Symbol
  | [] => []
  | d :: rest => .comma :: d.symbols lenient ++ moreItems lenient rest

/-- The symbols of the fields of a table. -/
def fieldSymbols (lenient : Bool) : List (List Piece × Tree) → List Symbol
  | [] => []
  | (name, d) :: rest =>
    .literal (.string name) :: .colon :: d.symbols lenient ++ moreFields lenient rest

/-- The symbols of the fields of a table after the first. -/
def moreFields (lenient : Bool) : List (List Piece × Tree) → List Symbol
  | [] => []
  | (name, d) :: rest =>
    .comma :: .literal (.string name) :: .colon :: d.symbols lenient ++ moreFields lenient rest

end

end Tree

/-! ## Texts -/

/-- Blanks between symbols. -/
def Blank (cs : List Char) : Prop := ∀ c ∈ cs, Token.isBlank c = true

/-- Blanks and comments between symbols. A block comment is closed; a line comment is ended by the
end of its line, or by that of the text. -/
inductive Gap : (atEnd : Bool) → List Char → Prop
  | nil {atEnd} : Gap atEnd []
  | blank {atEnd c g} : Token.isBlank c = true → Gap atEnd g → Gap atEnd (c :: g)
  | line {atEnd body g} : '\n' ∉ body → Gap atEnd g → Gap atEnd ('/' :: '/' :: body ++ '\n' :: g)
  | lastLine {body} : '\n' ∉ body → Gap true ('/' :: '/' :: body)
  | block {atEnd body g} : ¬ ['*', '/'] <:+: body → Gap atEnd g →
      Gap atEnd ('/' :: '*' :: body ++ '*' :: '/' :: g)

/-- A text that spells symbols, with gaps before, between and after them. -/
inductive Spaced (gap : (atEnd : Bool) → List Char → Prop) : List Symbol → List Char → Prop
  | nil {g} : gap true g → Spaced gap [] g
  | cons {g s rest cs} : gap false g → Spaced gap rest cs →
      Spaced gap (s :: rest) (g ++ s.chars ++ cs)

/-- A strict text of a document. -/
def Tree.Strict (d : Tree) (text : String) : Prop :=
  Spaced (fun _ => Blank) (d.symbols false) text.toList

/-- A text of a document with comments and extra commas. -/
def Tree.Lenient (d : Tree) (text : String) : Prop :=
  Spaced Gap (d.symbols true) text.toList

end Stencil.Json
