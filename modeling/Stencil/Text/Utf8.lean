/-!
# Octets of a text

Texts are sequences of characters; files, streams and digests are sequences of octets. `encode`
writes each character in its shortest form, and `decode` accepts exactly what `encode` writes: no
overlong forms, no surrogates, nothing beyond U+10FFFF.
-/

namespace Stencil.Text.Utf8

/-- The octets of a text. -/
def encode (s : List Char) : List UInt8 :=
  s.flatMap String.utf8EncodeChar

/-- The payload of a trailing octet. -/
def tail? (b : UInt8) : Option Nat :=
  if 0x80 ≤ b && b < 0xC0 then some (b.toNat % 64) else none

/-- A character that needs at least the code point `least`. -/
def scalar? (least n : Nat) : Option Char :=
  if h : n.isValidChar then if least ≤ n then some (Char.ofNatAux n h) else none else none

/-- The first character of a sequence of octets, and the octets after it. -/
def first? : List UInt8 → Option (Char × List UInt8)
  | [] => none
  | a :: rest =>
    if a < 0x80 then (scalar? 0 a.toNat).map (·, rest)
    else if 0xC0 ≤ a && a < 0xE0 then
      match rest with
      | b :: rest => do
        let x ← tail? b
        (scalar? 0x80 (a.toNat % 32 * 64 + x)).map (·, rest)
      | _ => none
    else if 0xE0 ≤ a && a < 0xF0 then
      match rest with
      | b :: c :: rest => do
        let x ← tail? b
        let y ← tail? c
        (scalar? 0x800 (a.toNat % 16 * 4096 + x * 64 + y)).map (·, rest)
      | _ => none
    else if 0xF0 ≤ a && a < 0xF8 then
      match rest with
      | b :: c :: d :: rest => do
        let x ← tail? b
        let y ← tail? c
        let z ← tail? d
        (scalar? 0x10000 (a.toNat % 8 * 262144 + x * 4096 + y * 64 + z)).map (·, rest)
      | _ => none
    else none

/-- Reading a character uses up at least one octet. -/
theorem length_of_first? {bytes rest : List UInt8} {c : Char} (h : first? bytes = some (c, rest)) :
    rest.length < bytes.length := by
  unfold first? at h
  split at h
  · cases h
  · repeat' split at h
    all_goals
      simp only [Option.bind_eq_bind, Option.bind_eq_some_iff, Option.map_eq_some_iff,
        Prod.mk.injEq, reduceCtorEq] at h
    · obtain ⟨_, _, _, rfl⟩ := h
      simp only [List.length_cons]
      omega
    · obtain ⟨_, _, _, _, _, rfl⟩ := h
      simp only [List.length_cons]
      omega
    · obtain ⟨_, _, _, _, _, _, _, rfl⟩ := h
      simp only [List.length_cons]
      omega
    · obtain ⟨_, _, _, _, _, _, _, _, _, rfl⟩ := h
      simp only [List.length_cons]
      omega

/-- The text that a sequence of octets spells, if it spells one. -/
def decode (bytes : List UInt8) : Option (List Char) :=
  match bytes with
  | [] => some []
  | a :: tail =>
    match _h : first? (a :: tail) with
    | none => none
    | some (c, rest) => (decode rest).map (c :: ·)
termination_by bytes.length
decreasing_by exact length_of_first? _h

end Stencil.Text.Utf8
