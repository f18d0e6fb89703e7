import Stencil.Template.Error
import Stencil.Text.Utf8

/-!
# String literals

The text between double quotes in a placeholder. Escapes either stand for a character or for a
single octet, so that a character may be spelled by several of them; what a literal spells is a
sequence of octets, which must be the UTF-8 form of a text. A literal ends on the line where it
starts.
-/

namespace Stencil.Template.Literal

/-- The octet that a letter after a backslash stands for. -/
def simpleEscape? : Char → Option UInt8
  | '\\' => some 0x5C
  | '"' => some 0x22
  | 'n' => some 0x0A
  | 't' => some 0x09
  | 'r' => some 0x0D
  | 'a' => some 0x07
  | 'b' => some 0x08
  | 'f' => some 0x0C
  | 'v' => some 0x0B
  | _ => none

/-- A digit of base eight. -/
def isOctal (c : Char) : Bool := '0' ≤ c && c ≤ '7'

/-- The number that digits of base eight spell. -/
def octalNumber (cs : List Char) : Nat :=
  cs.foldl (fun n c => n * 8 + (c.toNat - '0'.toNat)) 0

/-- The next `width` characters if all of them are digits of a base. -/
def takeDigits? (isDigit : Char → Bool) (width : Nat) (cs : List Char) : Option (List Char) :=
  let ds := cs.take width
  if ds.length == width && ds.all isDigit then some ds else none

/-- The octets of the character with a code point, if there is one. -/
def scalarOctets? (n : Nat) : Option (List UInt8) :=
  if n.isValidChar then some (String.utf8EncodeChar (Char.ofNat n)) else none

/-- The octets of an escape by a number: `digits` of them follow its letter. -/
def numeric (letter : Char) (isDigit : Char → Bool) (width : Nat)
    (octets? : List Char → Option (List UInt8)) (cs : List Char) :
    Except SyntaxFault (List UInt8 × List Char) :=
  match takeDigits? isDigit width cs with
  | none => .error (.badEscape letter [])
  | some ds =>
    match octets? ds with
    | none => .error (.badEscape letter ds)
    | some octets => .ok (octets, cs.drop width)

/-- Whether a character is a hexadecimal digit. -/
def isHex (c : Char) : Bool := (Text.hexValue? c).isSome

/-- An escape after its backslash: its octets and the text after it. -/
def escape (cs : List Char) : Except SyntaxFault (List UInt8 × List Char) :=
  match cs with
  | [] => .error .unterminatedText
  | c :: rest =>
    match simpleEscape? c with
    | some octet => .ok ([octet], rest)
    | none =>
      if c == 'x' then
        numeric c isHex 2 (fun ds => (Text.hexNumber? ds).map fun n => [UInt8.ofNat n]) rest
      else if isOctal c then
        numeric c isOctal 2
          (fun ds =>
            let n := octalNumber (c :: ds)
            if n < 256 then some [UInt8.ofNat n] else none) rest
      else if c == 'u' then
        numeric c isHex 4 (fun ds => (Text.hexNumber? ds).bind scalarOctets?) rest
      else if c == 'U' then
        numeric c isHex 8 (fun ds => (Text.hexNumber? ds).bind scalarOctets?) rest
      else .error (.unknownEscape c)

/-- Reading a number shrinks the text. -/
theorem length_numeric_le {letter : Char} {isDigit : Char → Bool} {width : Nat}
    {octets? : List Char → Option (List UInt8)} {cs rest : List Char} {octets : List UInt8}
    (h : numeric letter isDigit width octets? cs = .ok (octets, rest)) :
    rest.length ≤ cs.length := by
  unfold numeric at h
  split at h
  · cases h
  · split at h <;> cases h
    simp

/-- An escape uses up at least the letter after its backslash. -/
theorem length_escape_lt {cs rest : List Char} {octets : List UInt8}
    (h : escape cs = .ok (octets, rest)) : rest.length < cs.length := by
  unfold escape at h
  split at h
  · cases h
  · split at h
    · cases h
      simp
    · simp only [List.length_cons]
      repeat' split at h
      iterate 4 exact Nat.lt_succ_of_le (length_numeric_le h)
      cases h

/-- The octets that a literal spells after its opening quote, and the text after it. -/
def octets (cs : List Char) : Except SyntaxFault (List UInt8 × List Char) :=
  match cs with
  | [] => .error .unterminatedText
  | c :: rest =>
    if c == '"' then .ok ([], rest)
    else if c == '\n' then .error .unterminatedText
    else if c == '\\' then
      match _h : escape rest with
      | .error fault => .error fault
      | .ok (bs, after) => (octets after).map fun r => (bs ++ r.1, r.2)
    else (octets rest).map fun r => (String.utf8EncodeChar c ++ r.1, r.2)
termination_by cs.length
decreasing_by
  · have := length_escape_lt _h
    simp
    omega
  · simp

/-- The text of a literal after its opening quote, and the text after it. -/
def read (cs : List Char) : Except SyntaxFault (String × List Char) :=
  match octets cs with
  | .error fault => .error fault
  | .ok (bs, rest) =>
    match Text.Utf8.decode bs with
    | none => .error .notUtf8
    | some value => .ok (String.ofList value, rest)

/-- Reading octets shrinks the text. -/
theorem length_octets_le {cs rest : List Char} {bs : List UInt8}
    (h : octets cs = .ok (bs, rest)) : rest.length ≤ cs.length := by
  fun_induction octets cs generalizing bs rest with
  | case1 => cases h
  | case2 =>
    cases h
    simp
  | case3 => cases h
  | case4 => cases h
  | case5 c tail _ _ _ bs' after he ih =>
    obtain ⟨_, ho, ⟨⟩⟩ := map_eq_ok_iff.1 h
    have := ih ho
    have := length_escape_lt he
    simp
    omega
  | case6 c tail _ _ _ ih =>
    obtain ⟨_, ho, ⟨⟩⟩ := map_eq_ok_iff.1 h
    have := ih ho
    simp
    omega

/-- Reading a literal does not lengthen the text. -/
theorem length_read_le {cs rest : List Char} {value : String}
    (h : read cs = .ok (value, rest)) : rest.length ≤ cs.length := by
  unfold read at h
  split at h
  · cases h
  · rename_i ho
    split at h <;> cases h
    exact length_octets_le ho

end Stencil.Template.Literal
