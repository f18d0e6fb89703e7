import Stencil.Json.Fault

/-!
# Words, numbers and strings

The parts of a document that span several characters. Each is read at the front of the remaining
text, which shrinks; a reader that fails says how many octets behind the remaining text the place of
the fault lies.

Numbers and strings have two readers. The strict one yields the value. The lenient one reads over a
part whose value nobody wants: it accepts numbers of any size and escapes that name half of a
surrogate pair, since only the value would be out of range.
-/

namespace Stencil.Json.Lexeme

/-- A failed reading: the cause, the text left at the fault, and how many octets further it lies. -/
structure Failure where
  cause : Cause
  rest : List Char
  beyond : Nat

/-- What reading at the front of a text yields: a value and the text after it. -/
abbrev Reading (α : Type) := Except Failure (α × List Char)

/-- A fault before the next character. -/
def failAt {α : Type} (cause : Cause) (rest : List Char) : Reading α :=
  .error ⟨cause, rest, 0⟩

/-- A fault at the first octet of the next character. -/
def failOn {α : Type} (cause : Cause) (rest : List Char) : Reading α :=
  .error ⟨cause, rest, 1⟩

/-! ## Words -/

/-- The rest of a word whose first letter has been seen. -/
def word : (letters : List Char) → List Char → Reading Unit
  | [], rest => .ok ((), rest)
  | _ :: _, [] => failAt .endInValue []
  | l :: letters, c :: rest => if c == l then word letters rest else failOn .noWord (c :: rest)

/-! ## Numbers -/

/-- The digits at the front of a text. -/
def digits (cs : List Char) : List Char := cs.takeWhile Char.isDigit

/-- What follows the digits at the front of a text. -/
def afterDigits (cs : List Char) : List Char := cs.dropWhile Char.isDigit

/-- The value of a digit. -/
def digitValue (c : Char) : Nat := c.toNat - '0'.toNat

/-- Adds digits to a number until it would no longer fit; also counts the digits left over. -/
def accumulate (value : Nat) : List Char → Nat × Nat
  | [] => (value, 0)
  | d :: ds =>
    let next := value * 10 + digitValue d
    if next ≤ Number.greatestInt then accumulate next ds else (value, ds.length + 1)

/-- The double of a sign, a significand and a power of ten. -/
def real (negative : Bool) (significand : Nat) (power : Int) (rest : List Char) : Reading Number :=
  match Decimal.Magnitude.ofDecimal significand power with
  | some m => .ok (.real ⟨negative, m⟩, rest)
  | none => failAt .hugeNumber rest

/-- The largest power of ten that can be written. -/
def greatestPower : Nat := Nat.pow 2 31 - 1

/-- Where the digits of a power of ten stop fitting: the text from the digit that is too much. -/
def overflowing (power : Nat) : List Char → Option (List Char)
  | [] => none
  | c :: rest =>
    if c.isDigit then
      let next := power * 10 + digitValue c
      if next ≤ greatestPower then overflowing next rest else some rest
    else none

/-- A text without the sign at its front. -/
def signless : List Char → List Char
  | '+' :: rest => rest
  | '-' :: rest => rest
  | cs => cs

/-- The power of ten after the `e`; the sign is optional, a digit is not. -/
def power (negative : Bool) (significand : Nat) (shift : Int) (cs : List Char) :
    Reading Number :=
  let down := cs.head? == some '-'
  match signless cs with
  | [] => failAt .endInValue []
  | c :: rest =>
    if !c.isDigit then failOn .badNumber (c :: rest)
    else
      match overflowing (digitValue c) rest with
      | some excess =>
        if significand != 0 && !down then failAt .hugeNumber excess
        else .ok (.real ⟨negative, Decimal.Magnitude.zero⟩, afterDigits rest)
      | none =>
        let n := (digits (c :: rest)).foldl (fun n d => n * 10 + digitValue d) 0
        real negative significand (if down then shift - n else shift + n) (afterDigits rest)

/-- What may follow the digits of a number with a point or too many digits: its power of ten. -/
def afterFraction (negative : Bool) (significand : Nat) (shift : Int) : List Char → Reading Number
  | 'e' :: rest => power negative significand shift rest
  | 'E' :: rest => power negative significand shift rest
  | rest => real negative significand shift rest

/-- The digits after the point. -/
def fraction (negative : Bool) (significand : Nat) (shift : Int) (cs : List Char) :
    Reading Number :=
  if (digits cs).isEmpty then
    if cs.isEmpty then failAt .endInValue [] else failOn .badNumber cs
  else
    let (total, left) := accumulate significand (digits cs)
    afterFraction negative total (shift - ((digits cs).length - left : Nat)) (afterDigits cs)

/-- The rest of a number after its whole digits, of which the last `dropped` did not fit. -/
def afterWhole (negative : Bool) (significand dropped : Nat) : List Char → Reading Number
  | '.' :: rest => fraction negative significand dropped rest
  | 'e' :: rest => power negative significand dropped rest
  | 'E' :: rest => power negative significand dropped rest
  | rest =>
    if dropped == 0 then
      match Number.ofInteger negative significand with
      | some n => .ok (n, rest)
      | none => failAt .hugeNumber rest
    else real negative significand dropped rest

/-- A number after its optional minus sign. -/
def number (negative : Bool) : List Char → Reading Number
  | [] => failAt .endInValue []
  | c :: rest =>
    if c == '0' then
      match rest with
      | d :: _ => if d.isDigit then failOn .badNumber rest else afterWhole negative 0 0 rest
      | [] => afterWhole negative 0 0 []
    else if c.isDigit then
      let (significand, dropped) := accumulate 0 (digits (c :: rest))
      afterWhole negative significand dropped (afterDigits rest)
    else failOn .badNumber (c :: rest)

/-- Reads over a power of ten after the `e`. -/
def skipPower (cs : List Char) : Reading Unit :=
  match signless cs with
  | [] => failAt .badNumber []
  | c :: rest => if c.isDigit then .ok ((), afterDigits rest) else failOn .badNumber (c :: rest)

/-- Reads over what may follow the digits of a number. -/
def skipAfterFraction : List Char → Reading Unit
  | 'e' :: rest => skipPower rest
  | 'E' :: rest => skipPower rest
  | rest => .ok ((), rest)

/-- Reads over what may follow the whole digits of a number. -/
def skipAfterWhole : List Char → Reading Unit
  | '.' :: rest =>
    if (digits rest).isEmpty then failOn .badNumber rest else skipAfterFraction (afterDigits rest)
  | rest => skipAfterFraction rest

/-- Reads over a number after its optional minus sign. -/
def skipNumber : List Char → Reading Unit
  | [] => failAt .badNumber []
  | c :: rest =>
    if c == '0' then
      match rest with
      | d :: _ => if d.isDigit then failOn .badNumber rest else skipAfterWhole rest
      | [] => .ok ((), [])
    else if c.isDigit then skipAfterWhole (afterDigits rest)
    else failOn .badNumber (c :: rest)

/-! ## Strings -/

/-- The value of four hexadecimal digits. -/
def unit? (cs : List Char) : Option Nat :=
  if cs.length == 4 then Text.hexNumber? cs else none

/-- The four hexadecimal digits of an escape. -/
def codeUnit (cs : List Char) : Reading Nat :=
  match unit? (cs.take 4) with
  | some n => .ok (n, cs.drop 4)
  | none =>
    if (Text.Utf8.encode (cs.take 4)).length < 4 then failAt .endInText []
    else .error ⟨.badEscape, cs, 4⟩

/-- A code unit of the first half of a surrogate pair. -/
def isLeading (n : Nat) : Bool := 0xD800 ≤ n && n < 0xDC00

/-- A code unit of the second half of a surrogate pair. -/
def isTrailing (n : Nat) : Bool := 0xDC00 ≤ n && n < 0xE000

/-- The second half of a surrogate pair, and the character of the pair. -/
def secondHalf (first : Nat) (cs : List Char) : Reading Char :=
  match cs with
  | [] => failAt .endInText []
  | '\\' :: cs =>
    match cs with
    | [] => failAt .endInText []
    | 'u' :: cs =>
      match codeUnit cs with
      | .error f => .error f
      | .ok (second, rest) =>
        if isTrailing second then
          .ok (Char.ofNat ((first - 0xD800) * 1024 + (second - 0xDC00) + 0x10000), rest)
        else failAt .loneSurrogate rest
    | _ => failOn .brokenPair cs
  | _ => failOn .brokenPair cs

/-- The character that a letter after a backslash stands for. -/
def simpleEscape? : Char → Option Char
  | '"' => some '"'
  | '\\' => some '\\'
  | '/' => some '/'
  | 'b' => some '\x08'
  | 'f' => some '\x0c'
  | 'n' => some '\n'
  | 'r' => some '\r'
  | 't' => some '\t'
  | _ => none

/-- An escape after its backslash. -/
def escape (cs : List Char) : Reading Char :=
  match cs with
  | [] => failAt .endInText []
  | c :: rest =>
    match simpleEscape? c with
    | some value => .ok (value, rest)
    | none =>
      if c == 'u' then
        match codeUnit rest with
        | .error f => .error f
        | .ok (n, rest) =>
          if isTrailing n then failAt .loneSurrogate rest
          else if isLeading n then secondHalf n rest
          else .ok (Char.ofNat n, rest)
      else failOn .badEscape cs

/-- Reads over an escape after its backslash. -/
def skipEscape (cs : List Char) : Reading Unit :=
  match cs with
  | [] => failAt .endInText []
  | c :: rest =>
    if (simpleEscape? c).isSome then .ok ((), rest)
    else if c == 'u' then
      match codeUnit rest with
      | .error f => .error f
      | .ok (_, rest) => .ok ((), rest)
    else failOn .badEscape cs

/-! ## No reading lengthens the text -/

/-- A reading leaves at most the text it was given. -/
def Shrinks {α : Type} (cs : List Char) (r : Reading α) : Prop :=
  ∀ v rest, r = .ok (v, rest) → rest.length ≤ cs.length

/-- A failed reading goes on with nothing. -/
theorem shrinks_fail {α : Type} (cs : List Char) (f : Failure) :
    Shrinks cs (.error f : Reading α) := by
  intro v rest h
  cases h

/-- A reading shrinks a text if what it leaves is no longer. -/
theorem shrinks_ok {α : Type} {cs rest : List Char} (v : α) (h : rest.length ≤ cs.length) :
    Shrinks cs (.ok (v, rest) : Reading α) := by
  intro v rest h'
  cases h'
  exact h

theorem length_afterDigits_le (cs : List Char) : (afterDigits cs).length ≤ cs.length :=
  (List.dropWhile_sublist _).length_le

/-- Reading a code unit shrinks the text. -/
theorem shrinks_codeUnit (cs : List Char) : Shrinks cs (codeUnit cs) := by
  unfold codeUnit
  split
  · exact shrinks_ok _ (by simp)
  · split <;> exact shrinks_fail _ _

/-- Reading the second half of a surrogate pair shrinks the text. -/
theorem shrinks_secondHalf (first : Nat) (cs : List Char) : Shrinks cs (secondHalf first cs) := by
  unfold secondHalf
  split
  · exact shrinks_fail _ _
  · split
    · exact shrinks_fail _ _
    · split
      · exact shrinks_fail _ _
      · rename_i hu
        have := shrinks_codeUnit _ _ _ hu
        split
        · exact shrinks_ok _ (by simp; omega)
        · exact shrinks_fail _ _
    · exact shrinks_fail _ _
  · exact shrinks_fail _ _

/-- Reading an escape shrinks the text. -/
theorem shrinks_escape (cs : List Char) : Shrinks cs (escape cs) := by
  unfold escape
  split
  · exact shrinks_fail _ _
  · split
    · exact shrinks_ok _ (by simp)
    · split
      · split
        · exact shrinks_fail _ _
        · rename_i hu
          have hr := shrinks_codeUnit _ _ _ hu
          split
          · exact shrinks_fail _ _
          · split
            · intro v rest h
              have := shrinks_secondHalf _ _ v rest h
              simp
              omega
            · exact shrinks_ok _ (by simp; omega)
      · exact shrinks_fail _ _

/-- Reading over an escape shrinks the text. -/
theorem shrinks_skipEscape (cs : List Char) : Shrinks cs (skipEscape cs) := by
  unfold skipEscape
  split
  · exact shrinks_fail _ _
  · split
    · exact shrinks_ok _ (by simp)
    · split
      · split
        · exact shrinks_fail _ _
        · rename_i hu
          have := shrinks_codeUnit _ _ _ hu
          exact shrinks_ok _ (by simp; omega)
      · exact shrinks_fail _ _

/-! ## Whole strings -/

/-- A string after its opening quote. -/
def text (cs : List Char) : Reading (List Char) :=
  match cs with
  | [] => failAt .endInText []
  | c :: rest =>
    if c == '"' then .ok ([], rest)
    else if c == '\\' then
      match _h : escape rest with
      | .error f => .error f
      | .ok (value, rest) => (text rest).map fun r => (value :: r.1, r.2)
    else if c.toNat < 0x20 then failOn .controlCharacter cs
    else (text rest).map fun r => (c :: r.1, r.2)
termination_by cs.length
decreasing_by
  · have := shrinks_escape _ _ _ _h
    simp
    omega
  · simp

/-- Reads over a string after its opening quote. -/
def skipText (cs : List Char) : Reading Unit :=
  match cs with
  | [] => failAt .endInText []
  | c :: rest =>
    if c == '"' then .ok ((), rest)
    else if c == '\\' then
      match _h : skipEscape rest with
      | .error f => .error f
      | .ok (_, rest) => skipText rest
    else if c.toNat < 0x20 then failAt .controlCharacter cs
    else skipText rest
termination_by cs.length
decreasing_by
  · have := shrinks_skipEscape _ _ _ _h
    simp
    omega
  · simp

/-- Reading the rest of a word shrinks the text. -/
theorem shrinks_word (letters cs : List Char) : Shrinks cs (word letters cs) := by
  fun_induction word letters cs with
  | case1 rest => exact shrinks_ok _ (Nat.le_refl _)
  | case2 => exact shrinks_fail _ _
  | case3 l letters c rest _ ih =>
    intro v rest' h
    have := ih v rest' h
    simp
    omega
  | case4 => exact shrinks_fail _ _

/-- A text without its sign is no longer than with it. -/
theorem length_signless_le (cs : List Char) : (signless cs).length ≤ cs.length := by
  unfold signless
  split <;> simp

/-- Reading over a power of ten shrinks the text. -/
theorem shrinks_skipPower (cs : List Char) : Shrinks cs (skipPower cs) := by
  have hs := length_signless_le cs
  unfold skipPower
  split
  · exact shrinks_fail _ _
  · rename_i c rest heq
    split
    · have := length_afterDigits_le rest
      rw [heq] at hs
      exact shrinks_ok _ (by simp at hs; omega)
    · exact shrinks_fail _ _

/-- Reading over what follows the digits of a number shrinks the text. -/
theorem shrinks_skipAfterFraction (cs : List Char) : Shrinks cs (skipAfterFraction cs) := by
  unfold skipAfterFraction
  split
  · intro v rest h
    have := shrinks_skipPower _ v rest h
    simp
    omega
  · intro v rest h
    have := shrinks_skipPower _ v rest h
    simp
    omega
  · exact shrinks_ok _ (Nat.le_refl _)

/-- Reading over what follows the whole digits of a number shrinks the text. -/
theorem shrinks_skipAfterWhole (cs : List Char) : Shrinks cs (skipAfterWhole cs) := by
  unfold skipAfterWhole
  split
  · rename_i rest
    split
    · exact shrinks_fail _ _
    · intro v rest' h
      have := shrinks_skipAfterFraction _ v rest' h
      have := length_afterDigits_le rest
      simp
      omega
  · exact shrinks_skipAfterFraction _

/-- A number has at least one digit. -/
theorem length_skipNumber_lt {cs rest : List Char} (h : skipNumber cs = .ok ((), rest)) :
    rest.length < cs.length := by
  unfold skipNumber at h
  split at h
  · cases h
  · split at h
    · split at h
      · split at h
        · cases h
        · have := shrinks_skipAfterWhole _ _ _ h
          simp at this ⊢
          omega
      · cases h
        simp
    · split at h
      · rename_i rest' _ _
        have := shrinks_skipAfterWhole _ _ _ h
        have := length_afterDigits_le rest'
        simp
        omega
      · cases h

/-- Reading over a string shrinks the text. -/
theorem shrinks_skipText (cs : List Char) : Shrinks cs (skipText cs) := by
  fun_induction skipText cs with
  | case1 => exact shrinks_fail _ _
  | case2 => exact shrinks_ok _ (by simp)
  | case3 => exact shrinks_fail _ _
  | case4 c rest _ _ u rest' h ih =>
    intro v rest'' h'
    have := shrinks_skipEscape _ _ _ h
    have := ih v rest'' h'
    simp
    omega
  | case5 => exact shrinks_fail _ _
  | case6 c rest _ _ _ ih =>
    intro v rest' h
    have := ih v rest' h
    simp
    omega

end Stencil.Json.Lexeme
