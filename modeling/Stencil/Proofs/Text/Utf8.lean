import Mathlib.Data.List.Induction
import Stencil.Text.Utf8

/-!
# Texts as octets

Octets read as a text exactly if they are the UTF-8 form of that text, so no two texts have the
same form.
-/

namespace Stencil.Text.Utf8

/-! ## Trailing octets and code points -/

/-- A continuing octet has six bits after its mark. -/
theorem tail?_eq_some_iff {b : UInt8} {x : Nat} :
    tail? b = some x ↔ x < 64 ∧ b = UInt8.ofNat (x + 0x80) := by
  have hlow : (0x80 : UInt8).toNat = 0x80 := rfl
  have hhigh : (0xC0 : UInt8).toNat = 0xC0 := rfl
  simp only [tail?, Bool.and_eq_true, decide_eq_true_eq, UInt8.le_iff_toNat_le,
    UInt8.lt_iff_toNat_lt, hlow, hhigh, Option.ite_none_right_eq_some, Option.some.injEq,
    ← UInt8.toNat_inj, UInt8.toNat_ofNat']
  omega

/-- A number is that of a character if there is one, and if it is not written longer than need
be. -/
theorem scalar?_eq_some_iff {least n : Nat} {c : Char} :
    scalar? least n = some c ↔ c.toNat = n ∧ least ≤ n := by
  unfold scalar?
  by_cases hv : n.isValidChar
  · rw [dif_pos hv, Option.ite_none_right_eq_some, Option.some.injEq, and_comm]
    refine and_congr_left fun _ => ⟨?_, ?_⟩
    · rintro rfl
      rfl
    · rintro rfl
      rfl
  · rw [dif_neg hv]
    refine iff_of_false nofun ?_
    rintro ⟨rfl, _⟩
    exact hv c.valid

/-! ## The octets of a character -/

section

variable {c : Char}

/-- A character below hexadecimal 80 is one octet. -/
theorem encodeChar_one (h : c.toNat < 0x80) :
    String.utf8EncodeChar c = [UInt8.ofNat c.toNat] :=
  if_pos (Nat.le_of_lt_succ h)

/-- A character below hexadecimal 800 is two octets. -/
theorem encodeChar_two (h : 0x80 ≤ c.toNat) (h' : c.toNat < 0x800) :
    String.utf8EncodeChar c =
      [UInt8.ofNat (c.toNat / 64 % 32 + 0xC0), UInt8.ofNat (c.toNat % 64 + 0x80)] := by
  have hv : c.val.toNat = c.toNat := rfl
  simp only [String.utf8EncodeChar, hv]
  rw [if_neg (by omega), if_pos (by omega)]

/-- A character below hexadecimal 10000 is three octets. -/
theorem encodeChar_three (h : 0x800 ≤ c.toNat) (h' : c.toNat < 0x10000) :
    String.utf8EncodeChar c =
      [UInt8.ofNat (c.toNat / 4096 % 16 + 0xE0), UInt8.ofNat (c.toNat / 64 % 64 + 0x80),
        UInt8.ofNat (c.toNat % 64 + 0x80)] := by
  have hv : c.val.toNat = c.toNat := rfl
  simp only [String.utf8EncodeChar, hv]
  rw [if_neg (by omega), if_neg (by omega), if_pos (by omega)]

/-- Any other character is four octets. -/
theorem encodeChar_four (h : 0x10000 ≤ c.toNat) :
    String.utf8EncodeChar c =
      [UInt8.ofNat (c.toNat / 262144 % 8 + 0xF0), UInt8.ofNat (c.toNat / 4096 % 64 + 0x80),
        UInt8.ofNat (c.toNat / 64 % 64 + 0x80), UInt8.ofNat (c.toNat % 64 + 0x80)] := by
  have hv : c.val.toNat = c.toNat := rfl
  simp only [String.utf8EncodeChar, hv]
  rw [if_neg (by omega), if_neg (by omega), if_neg (by omega)]

/-- A character beyond the basic ones has no basic octet. -/
theorem le_toNat_of_mem_encodeChar {b : UInt8} (hc : 0x80 ≤ c.toNat)
    (h : b ∈ String.utf8EncodeChar c) : 0x80 ≤ b.toNat := by
  have hoctet {n : Nat} (hn : n < 0x80) : 0x80 ≤ (UInt8.ofNat (n + 0x80)).toNat := by
    rw [UInt8.toNat_ofNat', Nat.mod_eq_of_lt (by omega)]
    omega
  have htail (n : Nat) := hoctet (n := n % 64) (by omega)
  -- The first octet is marked by the number of octets, all others as trailing ones.
  rcases Nat.lt_or_ge c.toNat 0x800 with h₂ | h₂
  · have hlead := hoctet (n := c.toNat / 64 % 32 + 0x40) (by omega)
    rw [encodeChar_two hc h₂] at h
    simp only [List.mem_cons, List.not_mem_nil, or_false] at h
    rcases h with rfl | rfl
    · exact hlead
    · exact htail _
  rcases Nat.lt_or_ge c.toNat 0x10000 with h₃ | h₃
  · have hlead := hoctet (n := c.toNat / 4096 % 16 + 0x60) (by omega)
    rw [encodeChar_three h₂ h₃] at h
    simp only [List.mem_cons, List.not_mem_nil, or_false] at h
    rcases h with rfl | rfl | rfl
    · exact hlead
    · exact htail _
    · exact htail _
  · have hlead := hoctet (n := c.toNat / 262144 % 8 + 0x70) (by omega)
    rw [encodeChar_four h₃] at h
    simp only [List.mem_cons, List.not_mem_nil, or_false] at h
    rcases h with rfl | rfl | rfl | rfl
    · exact hlead
    · exact htail _
    · exact htail _
    · exact htail _

/-- An octet below hexadecimal 80 stands only for the character of its number. -/
theorem eq_of_mem_encodeChar {b : UInt8} (h : b ∈ String.utf8EncodeChar c) (hb : b.toNat < 0x80) :
    c.toNat = b.toNat := by
  rcases Nat.lt_or_ge c.toNat 0x80 with hc | hc
  · rw [encodeChar_one hc, List.mem_singleton] at h
    rw [h, UInt8.toNat_ofNat', Nat.mod_eq_of_lt (by omega)]
  · exact absurd (le_toNat_of_mem_encodeChar hc h) (Nat.not_le.2 hb)

end

/-- Characters have numbers below hexadecimal 110000. -/
theorem toNat_lt (c : Char) : c.toNat < 0x110000 := by
  have hv : c.toNat.isValidChar := c.valid
  rw [Nat.isValidChar] at hv
  omega

/-! ## Reading a character -/

/-- Octets that read as a character are the octets of that character. -/
theorem eq_of_first? {octets rest : List UInt8} {c : Char} (h : first? octets = some (c, rest)) :
    octets = String.utf8EncodeChar c ++ rest := by
  have lead {a : UInt8} {n : Nat} (hn : n % 256 = a.toNat) : a = UInt8.ofNat n := by
    rw [← UInt8.toNat_inj, UInt8.toNat_ofNat', hn]
  unfold first? at h
  split at h
  · cases h
  · rename_i a tail
    have ha := UInt8.toNat_lt a
    simp only [Bool.and_eq_true, decide_eq_true_eq, UInt8.le_iff_toNat_le, UInt8.lt_iff_toNat_lt,
      UInt8.reduceToNat] at h
    -- One case for each range of the leading octet, with as many trailing octets as it asks for.
    repeat' split at h
    all_goals
      simp only [Option.bind_eq_bind, Option.bind_eq_some_iff, Option.map_eq_some_iff,
        Prod.mk.injEq, scalar?_eq_some_iff, tail?_eq_some_iff, reduceCtorEq] at h
    · obtain ⟨d, ⟨hd, _⟩, rfl, rfl⟩ := h
      rw [encodeChar_one (by omega), hd, UInt8.ofNat_toNat]
      rfl
    · obtain ⟨x, ⟨hx, rfl⟩, d, ⟨hd, _⟩, rfl, rfl⟩ := h
      have ha : a = UInt8.ofNat (d.toNat / 64 % 32 + 0xC0) := lead (by omega)
      rw [encodeChar_two (by omega) (by omega), ← ha, show d.toNat % 64 = x by omega]
      rfl
    · obtain ⟨x, ⟨hx, rfl⟩, y, ⟨hy, rfl⟩, d, ⟨hd, _⟩, rfl, rfl⟩ := h
      have ha : a = UInt8.ofNat (d.toNat / 4096 % 16 + 0xE0) := lead (by omega)
      rw [encodeChar_three (by omega) (by omega), ← ha, show d.toNat / 64 % 64 = x by omega,
        show d.toNat % 64 = y by omega]
      rfl
    · obtain ⟨x, ⟨hx, rfl⟩, y, ⟨hy, rfl⟩, z, ⟨hz, rfl⟩, d, ⟨hd, _⟩, rfl, rfl⟩ := h
      have ha : a = UInt8.ofNat (d.toNat / 262144 % 8 + 0xF0) := lead (by omega)
      rw [encodeChar_four (by omega), ← ha, show d.toNat / 4096 % 64 = x by omega,
        show d.toNat / 64 % 64 = y by omega, show d.toNat % 64 = z by omega]
      rfl

/-- The octets of a character read as that character. -/
theorem first?_encodeChar (c : Char) (rest : List UInt8) :
    first? (String.utf8EncodeChar c ++ rest) = some (c, rest) := by
  have hc := toNat_lt c
  have hlt {n : Nat} (h : n < 256) : (UInt8.ofNat n).toNat = n := by
    rw [UInt8.toNat_ofNat', Nat.mod_eq_of_lt h]
  have htail (n : Nat) : tail? (UInt8.ofNat (n % 64 + 0x80)) = some (n % 64) :=
    tail?_eq_some_iff.2 ⟨Nat.mod_lt _ (by omega), rfl⟩
  have hscalar {least n : Nat} (hn : n = c.toNat) (hl : least ≤ n) : scalar? least n = some c :=
    scalar?_eq_some_iff.2 ⟨hn.symm, hl⟩
  -- One case for each number of octets, which the first of them tells.
  rcases Nat.lt_or_ge c.toNat 0x80 with h | h
  · rw [encodeChar_one h]
    simp only [List.cons_append, List.nil_append, first?, UInt8.lt_iff_toNat_lt,
      UInt8.reduceToNat, hlt (show c.toNat < 256 by omega)]
    rw [if_pos (by omega), hscalar rfl (by omega)]
    rfl
  rcases Nat.lt_or_ge c.toNat 0x800 with h' | h'
  · rw [encodeChar_two h h']
    simp only [List.cons_append, List.nil_append, first?, Bool.and_eq_true, decide_eq_true_eq,
      UInt8.le_iff_toNat_le, UInt8.lt_iff_toNat_lt, UInt8.reduceToNat, htail,
      hlt (show c.toNat / 64 % 32 + 0xC0 < 256 by omega)]
    rw [if_neg (by omega), if_pos (by omega), Option.bind_eq_bind, Option.bind_some,
      hscalar (by omega) (by omega)]
    rfl
  rcases Nat.lt_or_ge c.toNat 0x10000 with h'' | h''
  · rw [encodeChar_three h' h'']
    simp only [List.cons_append, List.nil_append, first?, Bool.and_eq_true, decide_eq_true_eq,
      UInt8.le_iff_toNat_le, UInt8.lt_iff_toNat_lt, UInt8.reduceToNat, htail,
      hlt (show c.toNat / 4096 % 16 + 0xE0 < 256 by omega)]
    rw [if_neg (by omega), if_neg (by omega), if_pos (by omega), Option.bind_eq_bind,
      Option.bind_some, Option.bind_some, hscalar (by omega) (by omega)]
    rfl
  · rw [encodeChar_four h'']
    simp only [List.cons_append, List.nil_append, first?, Bool.and_eq_true, decide_eq_true_eq,
      UInt8.le_iff_toNat_le, UInt8.lt_iff_toNat_lt, UInt8.reduceToNat, htail,
      hlt (show c.toNat / 262144 % 8 + 0xF0 < 256 by omega)]
    rw [if_neg (by omega), if_neg (by omega), if_neg (by omega), if_pos (by omega),
      Option.bind_eq_bind, Option.bind_some, Option.bind_some, Option.bind_some,
      hscalar (by omega) (by omega)]
    rfl

/-! ## Reading a text -/

theorem encode_append {cs ds : List Char} : encode (cs ++ ds) = encode cs ++ encode ds :=
  List.flatMap_append

theorem encode_singleton {c : Char} (h : c.toNat < 0x80) : encode [c] = [UInt8.ofNat c.toNat] := by
  rw [encode, List.flatMap_singleton, encodeChar_one h]

/-- A basic octet at the end is the last character. -/
theorem exists_of_encode_eq_concat {cs : List Char} {octets : List UInt8} {c : Char}
    (hc : c.toNat < 0x80) (h : encode cs = octets ++ [UInt8.ofNat c.toNat]) :
    ∃ front, cs = front ++ [c] ∧ octets = encode front := by
  have hb : (UInt8.ofNat c.toNat).toNat = c.toNat := by
    rw [UInt8.toNat_ofNat', Nat.mod_eq_of_lt (by omega)]
  rcases List.eq_nil_or_concat cs with rfl | ⟨cs, d, rfl⟩
  · simp [encode] at h
  · rw [List.concat_eq_append, encode_append] at h
    have hmem : UInt8.ofNat c.toNat ∈ encode [d] := by
      have hne : encode [d] ≠ [] := by
        rw [encode, List.flatMap_singleton, ← List.length_pos_iff, String.length_utf8EncodeChar]
        exact d.utf8Size_pos
      have hlast := congrArg List.getLast? h
      rw [List.getLast?_append, List.getLast?_concat, List.getLast?_eq_some_getLast hne,
        Option.some_or] at hlast
      exact Option.some.inj hlast ▸ List.getLast_mem hne
    rw [encode, List.flatMap_singleton] at hmem
    obtain rfl : d = c := Char.toNat_inj.1 <| by
      rw [eq_of_mem_encodeChar hmem (by omega), hb]
    rw [encode_singleton hc] at h
    exact ⟨cs, List.concat_eq_append, (List.append_cancel_right h).symm⟩

/-- Basic octets at the end are the last characters. -/
theorem exists_of_encode_eq_append {cs ds : List Char} {octets : List UInt8}
    (hds : ∀ c ∈ ds, c.toNat < 0x80) (h : encode cs = octets ++ encode ds) :
    ∃ front, cs = front ++ ds ∧ octets = encode front := by
  induction ds using List.reverseRecOn generalizing cs with
  | nil => exact ⟨cs, (List.append_nil cs).symm, (h.trans (List.append_nil _)).symm⟩
  | append_singleton ds c ih =>
    obtain ⟨hds, hc⟩ := List.forall_mem_append.1 hds
    have hc := List.forall_mem_singleton.1 hc
    rw [encode_append, encode_singleton hc, ← List.append_assoc] at h
    obtain ⟨front, rfl, hfront⟩ := exists_of_encode_eq_concat hc h
    obtain ⟨front, rfl, hoctets⟩ := ih hds hfront.symm
    exact ⟨front, List.append_assoc _ _ _, hoctets⟩

/-- A sequence of octets reads as a text exactly if it is the form of that text. -/
theorem decode_eq_some_iff {octets : List UInt8} {cs : List Char} :
    decode octets = some cs ↔ octets = encode cs := by
  constructor
  · intro h
    -- Decoding takes one character at a time off the front.
    fun_induction decode octets generalizing cs with
    | case1 =>
      obtain rfl := Option.some.inj h
      rfl
    | case2 => cases h
    | case3 a tail c rest hf ih =>
      obtain ⟨ds, hd, rfl⟩ := Option.map_eq_some_iff.1 h
      rw [eq_of_first? hf, ih hd]
      rfl
  · rintro rfl
    -- Encoding puts the octets of one character after those of another, which are found again.
    induction cs with
    | nil => rw [encode, List.flatMap_nil, decode]
    | cons c cs ih =>
      have hf : first? (encode (c :: cs)) = some (c, encode cs) := first?_encodeChar c (encode cs)
      generalize encode (c :: cs) = octets at hf ⊢
      cases octets with
      | nil => cases hf
      | cons a tail =>
        rw [decode]
        split
        · rename_i hn
          rw [hf] at hn
          cases hn
        · rename_i d rest hs
          rw [hf] at hs
          obtain ⟨rfl, rfl⟩ := Prod.mk.inj (Option.some.inj hs)
          rw [ih]
          rfl

/-- Texts with the same octets are the same. -/
theorem encode_injective : Function.Injective encode := fun _ _ h =>
  Option.some.inj ((decode_eq_some_iff.2 rfl).symm.trans (decode_eq_some_iff.2 h))

end Stencil.Text.Utf8
