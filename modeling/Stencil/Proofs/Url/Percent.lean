import Mathlib.Tactic.Common
import Stencil.Proofs.Text.Numeral
import Stencil.Proofs.Text.Utf8
import Stencil.Url.Percent

/-!
# Percent encoding and back

A text written with percent signs can be read back, so that no two texts are written alike, and none
of its characters that must be written so is left.
-/

namespace Stencil.Url

open Text

/-! ## Decoding -/

/-- An octet that is no percent sign stands for itself. -/
theorem percentDecode_cons_of_ne {b : UInt8} (h : b ≠ 0x25) (rest : List UInt8) :
    percentDecode (b :: rest) = b :: percentDecode rest := by
  rw [percentDecode]
  rintro a c tail hb
  exact absurd hb h

/-- Without percent signs there is nothing to decode. -/
theorem percentDecode_encode {cs : List Char} (h : '%' ∉ cs) :
    percentDecode (Utf8.encode cs) = Utf8.encode cs := by
  have hnone : (0x25 : UInt8) ∉ Utf8.encode cs := by
    intro hmem
    obtain ⟨c, hc, hoctet⟩ := List.mem_flatMap.1 hmem
    obtain rfl : c = '%' := Char.toNat_inj.1 (Utf8.eq_of_mem_encodeChar hoctet (by decide))
    exact h hc
  generalize Utf8.encode cs = octets at hnone
  induction octets with
  | nil => rw [percentDecode]
  | cons b octets ih =>
    rw [List.mem_cons, not_or] at hnone
    rw [percentDecode_cons_of_ne (Ne.symm hnone.1), ih hnone.2]

/-- A percent sign before less than two digits stands for itself. -/
theorem percentDecode_percent {a b : UInt8} (rest : List UInt8)
    (h : hexValue? (Char.ofNat a.toNat) = none ∨ hexValue? (Char.ofNat b.toNat) = none) :
    percentDecode (0x25 :: a :: b :: rest) = 0x25 :: percentDecode (a :: b :: rest) := by
  rw [percentDecode]
  rcases h with h | h
  · rw [h]
  · rw [h]
    cases hexValue? (Char.ofNat a.toNat) <;> rfl

/-- No percent sign reaches beyond a period. -/
theorem percentDecode_append_period (octets rest : List UInt8) :
    percentDecode (octets ++ 0x2E :: rest) =
      percentDecode octets ++ 0x2E :: percentDecode rest := by
  have hperiod : hexValue? (Char.ofNat (0x2E : UInt8).toNat) = none := by decide
  have hrest : percentDecode (0x2E :: rest) = 0x2E :: percentDecode rest :=
    percentDecode_cons_of_ne (by decide) rest
  fun_induction percentDecode octets with
  | case1 a b tail high low hlow hhigh ih =>
    rw [List.cons_append, List.cons_append, List.cons_append, percentDecode, hhigh, hlow, ih]
    rfl
  | case2 a b tail hnone ih =>
    rw [List.cons_append, List.cons_append, List.cons_append, percentDecode_percent]
    · exact congrArg (0x25 :: ·) ih
    · cases ha : hexValue? (Char.ofNat a.toNat) with
      | none => exact .inl rfl
      | some high =>
        cases hb : hexValue? (Char.ofNat b.toNat) with
        | none => exact .inr rfl
        | some low => exact (hnone high low ha hb).elim
  | case3 b tail hshort ih =>
    have hcons : percentDecode (b :: (tail ++ 0x2E :: rest)) =
        b :: percentDecode (tail ++ 0x2E :: rest) := by
      by_cases hb : b = 0x25
      · subst hb
        -- The period is one of the two octets that would have to be digits.
        match tail, rest with
        | [], [] => rfl
        | [], _ :: _ => exact percentDecode_percent _ (.inl hperiod)
        | [_], _ => exact percentDecode_percent _ (.inr hperiod)
        | a :: c :: tail, _ => exact (hshort a c tail rfl rfl).elim
      · exact percentDecode_cons_of_ne hb _
    rw [List.cons_append, hcons, ih]
    rfl
  | case4 => exact hrest

theorem hexValue?_upperDigit : ∀ n < 16, hexValue? (upperDigit n) = some n := by decide

/-- A digit is one octet. -/
theorem encodeChar_upperDigit :
    ∀ n < 16, String.utf8EncodeChar (upperDigit n) = [UInt8.ofNat (upperDigit n).toNat] := by
  decide

/-- The digits of an octet after a percent sign are read as that octet. -/
theorem percentDecode_percentOctet (b : UInt8) (rest : List UInt8) :
    percentDecode (Utf8.encode (percentOctet b) ++ rest) = b :: percentDecode rest := by
  have hb := b.toNat_lt
  have hsmall : ∀ n < 16, Char.ofNat (UInt8.ofNat (upperDigit n).toNat).toNat = upperDigit n := by
    decide
  have hoctets : Utf8.encode (percentOctet b) =
      [0x25, UInt8.ofNat (upperDigit (b.toNat / 16)).toNat,
        UInt8.ofNat (upperDigit (b.toNat % 16)).toNat] := by
    rw [percentOctet, Utf8.encode, List.flatMap_cons, List.flatMap_cons, List.flatMap_cons,
      encodeChar_upperDigit _ (by omega), encodeChar_upperDigit _ (by omega)]
    rfl
  rw [hoctets, List.cons_append, List.cons_append, List.cons_append, List.nil_append,
    percentDecode, hsmall _ (by omega), hsmall _ (by omega), hexValue?_upperDigit _ (by omega),
    hexValue?_upperDigit _ (by omega)]
  have hvalue : b.toNat / 16 * 16 + b.toNat % 16 = b.toNat := by omega
  simp only [hvalue, UInt8.ofNat_toNat]

/-- Octets that are all written with digits are read as they are. -/
theorem percentDecode_octets (bs rest : List UInt8) :
    percentDecode (Utf8.encode (bs.flatMap percentOctet) ++ rest) = bs ++ percentDecode rest := by
  induction bs with
  | nil => rfl
  | cons b bs ih =>
    rw [List.flatMap_cons, Utf8.encode_append, List.append_assoc, percentDecode_percentOctet, ih]
    rfl

/-- Where the percent sign itself is encoded, decoding gives the octets of the text back. -/
theorem percentDecode_percentEncode {inSet : Char → Bool} (h : inSet '%' = true) (cs : List Char) :
    percentDecode (Utf8.encode (percentEncode inSet cs)) = Utf8.encode cs := by
  induction cs with
  | nil => rw [percentEncode, List.flatMap_nil, Utf8.encode, List.flatMap_nil, percentDecode]
  | cons c cs ih =>
    have hcons : percentEncode inSet (c :: cs) = (if isForeign c || inSet c then
        (String.utf8EncodeChar c).flatMap percentOctet else [c]) ++ percentEncode inSet cs := rfl
    have hencode : Utf8.encode (c :: cs) = String.utf8EncodeChar c ++ Utf8.encode cs := rfl
    rw [hcons, Utf8.encode_append, hencode]
    split
    · rw [percentDecode_octets, ih]
    · rename_i hc
      simp only [isForeign, Bool.or_eq_true, decide_eq_true_eq, not_or, Bool.not_eq_true] at hc
      -- What is kept as it is is not the percent sign, which would be taken for an encoding.
      have hne : UInt8.ofNat c.toNat ≠ 0x25 := by
        intro hb
        have hn := congrArg UInt8.toNat hb
        rw [UInt8.toNat_ofNat', Nat.mod_eq_of_lt (by omega)] at hn
        obtain rfl : c = '%' := Char.toNat_inj.1 hn
        rw [h] at hc
        exact absurd hc.2 (by decide)
      have hone : Utf8.encode [c] = [UInt8.ofNat c.toNat] := by
        rw [Utf8.encode, List.flatMap_cons, Utf8.encodeChar_one (by omega)]
        rfl
      rw [hone, List.singleton_append, percentDecode_cons_of_ne hne, ih,
        Utf8.encodeChar_one (by omega)]
      rfl

/-- No two texts are written alike. -/
theorem percentEncode_injective {inSet : Char → Bool} (h : inSet '%' = true) :
    Function.Injective (percentEncode inSet) := by
  intro cs ds he
  apply Utf8.encode_injective
  rw [← percentDecode_percentEncode h cs, he, percentDecode_percentEncode h]

/-! ## What is left -/

/-- Of the characters of a set, only those that write octets remain. -/
theorem not_mem_percentEncode {inSet : Char → Bool} {c : Char} (h : inSet c = true)
    (hpercent : c ≠ '%') (hdigit : ∀ n < 16, upperDigit n ≠ c) (cs : List Char) :
    c ∉ percentEncode inSet cs := by
  intro hm
  obtain ⟨d, _, hd⟩ := List.mem_flatMap.1 hm
  split at hd
  · obtain ⟨b, _, hb⟩ := List.mem_flatMap.1 hd
    have hlt := b.toNat_lt
    simp only [percentOctet, List.mem_cons, List.not_mem_nil, or_false] at hb
    rcases hb with rfl | rfl | rfl
    · exact hpercent rfl
    · exact hdigit _ (by omega) rfl
    · exact hdigit _ (by omega) rfl
  · rename_i hn
    obtain rfl := List.mem_singleton.1 hd
    rw [h, Bool.or_true] at hn
    exact hn rfl

/-- Only the empty text is encoded as nothing. -/
theorem percentEncode_eq_nil_iff {inSet : Char → Bool} (h : inSet '%' = true) {cs : List Char} :
    percentEncode inSet cs = [] ↔ cs = [] :=
  (percentEncode_injective h).eq_iff' rfl

end Stencil.Url
