import Mathlib.Tactic.Common
import Stencil.Proofs.Text.Numeral
import Stencil.Proofs.Text.Utf8
import Stencil.Template.Literal

/-!
# What string literals spell

A literal spells octets: a character stands for its own, and an escape for one octet or for those of
a character that it gives by its number. A text reads as a literal exactly if it starts with the
spelling of some octets and a quote, and these octets are those of a text.
-/

namespace Stencil.Template.Literal

open Text

/-- The letters that stand for an octet after a backslash. -/
def escapeLetters : List (Char × UInt8) :=
  [('\\', 0x5C), ('"', 0x22), ('n', 0x0A), ('t', 0x09), ('r', 0x0D), ('a', 0x07), ('b', 0x08),
    ('f', 0x0C), ('v', 0x0B)]

/-- What may follow a backslash, and the octets that it stands for. -/
inductive Escape : List Char → List UInt8 → Prop
  | letter {c b} : (c, b) ∈ escapeLetters → Escape [c] [b]
  | hex {ds n} : ds.length = 2 → Numeral 16 ds n → Escape ('x' :: ds) [UInt8.ofNat n]
  | octal {ds n} : ds.length = 3 → Numeral 8 ds n → n < 256 → Escape ds [UInt8.ofNat n]
  | short {ds c} : ds.length = 4 → Numeral 16 ds (Char.toNat c) →
      Escape ('u' :: ds) (String.utf8EncodeChar c)
  | long {ds c} : ds.length = 8 → Numeral 16 ds (Char.toNat c) →
      Escape ('U' :: ds) (String.utf8EncodeChar c)

/-- What stands between the quotes of a literal, and the octets that it spells. -/
inductive Spells : List Char → List UInt8 → Prop
  | nil : Spells [] []
  | char {c cs bs} : c ≠ '"' → c ≠ '\\' → c ≠ '\n' → Spells cs bs →
      Spells (c :: cs) (String.utf8EncodeChar c ++ bs)
  | escape {es cs bs bs'} : Escape es bs → Spells cs bs' → Spells ('\\' :: es ++ cs) (bs ++ bs')

/-! ## Escapes -/

/-- The octal digits have their values. -/
theorem isDigit_octal_iff {c : Char} {v : Nat} :
    IsDigit 8 c v ↔ isOctal c = true ∧ c.toNat - '0'.toNat = v := by
  constructor
  · rintro ⟨hv, h⟩
    have hlow : ∀ v < 8, isOctal (Nat.digitChar v) = true ∧
        (Nat.digitChar v).toNat - '0'.toNat = v := by decide
    have hupper : ∀ v < 8, (Nat.digitChar v).toUpper = Nat.digitChar v := by decide
    rw [hupper v hv, or_self] at h
    exact h ▸ hlow v hv
  · rintro ⟨hc, rfl⟩
    have hdec : ∀ v < 8, (Nat.digitChar v).toNat = v + 48 := by decide
    simp only [isOctal, Bool.and_eq_true, decide_eq_true_eq, le_iff_toNat_le,
      Char.reduceToNat] at hc
    have hzero : '0'.toNat = 48 := rfl
    refine ⟨by omega, .inl (Char.toNat_inj.1 ?_)⟩
    rw [hdec _ (by omega)]
    omega

/-- Octal digits are read as the number that they spell. -/
theorem numeral_octal_iff {ds : List Char} {n : Nat} :
    Numeral 8 ds n ↔ ds.all isOctal = true ∧ octalNumber ds = n := by
  -- As for hexadecimal digits, the induction is over any number read so far.
  suffices h : ∀ m, (∃ values, List.Forall₂ (IsDigit 8) ds values ∧
        values.foldl (fun n v => n * 8 + v) m = n) ↔
      ds.all isOctal = true ∧
        ds.foldl (fun n c => n * 8 + (c.toNat - '0'.toNat)) m = n from h 0
  induction ds with
  | nil => simp
  | cons c ds ih =>
    intro m
    rw [List.all_cons, Bool.and_eq_true, List.foldl_cons, and_assoc, ← ih]
    simp only [List.forall₂_cons_left_iff, isDigit_octal_iff]
    constructor
    · rintro ⟨_, ⟨v, values, ⟨hc, rfl⟩, hds, rfl⟩, hn⟩
      exact ⟨hc, values, hds, hn⟩
    · rintro ⟨hc, values, hds, hn⟩
      exact ⟨_, ⟨_, values, ⟨hc, rfl⟩, hds, rfl⟩, hn⟩

/-- What is read after the letter of a number is as many digits as it has, and the octets that they
stand for. -/
theorem numeric_eq_ok_iff {letter : Char} {isDigit : Char → Bool} {width : Nat}
    {octets? : List Char → Option (List UInt8)} {cs rest : List Char} {bs : List UInt8} :
    numeric letter isDigit width octets? cs = .ok (bs, rest) ↔
      ∃ ds, cs = ds ++ rest ∧ ds.length = width ∧ ds.all isDigit = true ∧ octets? ds = some bs := by
  unfold numeric takeDigits?
  constructor
  · intro h
    split at h
    · cases h
    · rename_i ds hds
      simp only [Option.ite_none_right_eq_some, Bool.and_eq_true, beq_iff_eq,
        Option.some.injEq] at hds
      obtain ⟨⟨hlen, hall⟩, rfl⟩ := hds
      split at h
      · cases h
      · cases h
        exact ⟨_, (List.take_append_drop width cs).symm, hlen, hall, by assumption⟩
  · rintro ⟨ds, rfl, rfl, hall, ho⟩
    simp [hall, ho]

/-- A number stands for the octets of its character. -/
theorem scalarOctets?_eq_some_iff {n : Nat} {bs : List UInt8} :
    scalarOctets? n = some bs ↔ ∃ c : Char, c.toNat = n ∧ bs = String.utf8EncodeChar c := by
  unfold scalarOctets?
  constructor
  · intro h
    split at h
    · rename_i hv
      obtain rfl := Option.some.inj h
      exact ⟨Char.ofNat n, by rw [Char.ofNat, dif_pos hv]; rfl, rfl⟩
    · cases h
  · rintro ⟨c, rfl, rfl⟩
    have hv : c.toNat.isValidChar := c.valid
    rw [if_pos hv, Char.ofNat_toNat]

/-- A letter stands for an octet if it is one of the escapes. -/
theorem simpleEscape?_eq_some_iff {c : Char} {b : UInt8} :
    simpleEscape? c = some b ↔ (c, b) ∈ escapeLetters := by
  constructor
  · intro h
    unfold simpleEscape? at h
    split at h <;> cases h <;> decide
  · intro h
    simp only [escapeLetters, List.mem_cons, Prod.mk.injEq, List.not_mem_nil, or_false] at h
    rcases h with h | h | h | h | h | h | h | h | h <;> (obtain ⟨rfl, rfl⟩ := h; rfl)

/-- The digits of a hexadecimal number are hexadecimal. -/
theorem isHex_of_numeral {ds : List Char} {n : Nat} (h : Numeral 16 ds n) :
    ds.all isHex = true := by
  obtain ⟨values, hds, -⟩ := h
  induction hds with
  | nil => rfl
  | cons hv _ ih =>
    rw [List.all_cons, ih, isHex, hexValue?_eq_some_iff.2 hv]
    rfl

/-- An escape by hexadecimal digits. -/
theorem numeric_hex_eq_ok_iff {letter : Char} {width : Nat}
    {octets? : List Char → Option (List UInt8)} {f : Nat → Option (List UInt8)}
    (hf : ∀ ds, octets? ds = (hexNumber? ds).bind f) {cs rest : List Char} {bs : List UInt8} :
    numeric letter isHex width octets? cs = .ok (bs, rest) ↔
      ∃ ds n, cs = ds ++ rest ∧ ds.length = width ∧ Numeral 16 ds n ∧ f n = some bs := by
  simp only [numeric_eq_ok_iff, hf, Option.bind_eq_some_iff, hexNumber?_eq_some_iff]
  constructor
  · rintro ⟨ds, hcs, hlen, _, n, hn, hb⟩
    exact ⟨ds, n, hcs, hlen, hn, hb⟩
  · rintro ⟨ds, n, hcs, hlen, hn, hb⟩
    exact ⟨ds, hcs, hlen, isHex_of_numeral hn, n, hn, hb⟩

/-- An escape by octal digits is none by a letter. -/
theorem simpleEscape?_of_isOctal {c : Char} (h : isOctal c = true) : simpleEscape? c = none := by
  cases hb : simpleEscape? c with
  | none => rfl
  | some b =>
    have hmem := simpleEscape?_eq_some_iff.1 hb
    have hall : ∀ e ∈ escapeLetters, isOctal e.1 = false := by decide
    rw [hall _ hmem] at h
    cases h

/-- An escape that is read stands at the front of the text. -/
theorem eq_of_escape {cs rest : List Char} {bs : List UInt8} (h : escape cs = .ok (bs, rest)) :
    ∃ es, cs = es ++ rest ∧ Escape es bs := by
  unfold escape at h
  -- The letters with a meaning of their own come first, and then the four kinds of numbers.
  split at h
  · cases h
  rename_i c cs
  split at h
  · rename_i b hb
    obtain ⟨rfl, rfl⟩ := Prod.mk.inj (Except.ok.inj h)
    exact ⟨[c], rfl, .letter (simpleEscape?_eq_some_iff.1 hb)⟩
  simp only [beq_iff_eq] at h
  split at h
  · rename_i hc
    subst hc
    obtain ⟨ds, n, rfl, hlen, hn, hb⟩ := (numeric_hex_eq_ok_iff fun _ => Option.map_eq_bind).1 h
    obtain rfl := Option.some.inj hb
    exact ⟨'x' :: ds, rfl, .hex hlen hn⟩
  split at h
  · rename_i hc
    obtain ⟨ds, rfl, hlen, hall, ho⟩ := numeric_eq_ok_iff.1 h
    simp only [Option.ite_none_right_eq_some, Option.some.injEq] at ho
    obtain ⟨hlt, rfl⟩ := ho
    refine ⟨c :: ds, rfl, .octal (by rw [List.length_cons, hlen]) ?_ hlt⟩
    exact numeral_octal_iff.2 ⟨by rw [List.all_cons, hc, hall]; rfl, rfl⟩
  split at h
  · rename_i hc
    subst hc
    obtain ⟨ds, n, rfl, hlen, hn, hb⟩ := (numeric_hex_eq_ok_iff fun _ => rfl).1 h
    obtain ⟨d, rfl, rfl⟩ := scalarOctets?_eq_some_iff.1 hb
    exact ⟨'u' :: ds, rfl, .short hlen hn⟩
  split at h
  · rename_i hc
    subst hc
    obtain ⟨ds, n, rfl, hlen, hn, hb⟩ := (numeric_hex_eq_ok_iff fun _ => rfl).1 h
    obtain ⟨d, rfl, rfl⟩ := scalarOctets?_eq_some_iff.1 hb
    exact ⟨'U' :: ds, rfl, .long hlen hn⟩
  · cases h

/-- An escape is read wherever it stands. -/
theorem escape_of_escape {es : List Char} {bs : List UInt8} (h : Escape es bs) (rest : List Char) :
    escape (es ++ rest) = .ok (bs, rest) := by
  cases h with
  | @letter c b hb =>
    rw [List.singleton_append, escape, simpleEscape?_eq_some_iff.2 hb]
  | @hex ds n hlen hn =>
    show numeric 'x' isHex 2 _ _ = _
    exact (numeric_hex_eq_ok_iff fun _ => Option.map_eq_bind).2 ⟨ds, n, rfl, hlen, hn, rfl⟩
  | @octal ds n hlen hn hlt =>
    obtain ⟨c, d, e, rfl⟩ := List.length_eq_three.1 hlen
    obtain ⟨hall, rfl⟩ := numeral_octal_iff.1 hn
    rw [List.all_cons, Bool.and_eq_true] at hall
    -- An octal digit is neither a letter with a meaning nor the mark of hexadecimal digits.
    have hx : (c == 'x') = false := by
      rw [beq_eq_false_iff_ne]
      rintro rfl
      exact absurd hall.1 (by decide)
    show escape (c :: ([d, e] ++ rest)) = _
    rw [escape, simpleEscape?_of_isOctal hall.1]
    simp only [hx, hall.1, Bool.false_eq_true, if_false, if_true]
    exact numeric_eq_ok_iff.2 ⟨[d, e], rfl, rfl, hall.2, if_pos hlt⟩
  | @short ds c hlen hn =>
    show numeric 'u' isHex 4 _ _ = _
    exact (numeric_hex_eq_ok_iff fun _ => rfl).2
      ⟨ds, c.toNat, rfl, hlen, hn, scalarOctets?_eq_some_iff.2 ⟨c, rfl, rfl⟩⟩
  | @long ds c hlen hn =>
    show numeric 'U' isHex 8 _ _ = _
    exact (numeric_hex_eq_ok_iff fun _ => rfl).2
      ⟨ds, c.toNat, rfl, hlen, hn, scalarOctets?_eq_some_iff.2 ⟨c, rfl, rfl⟩⟩

/-- An escape is read as the octets that it stands for. -/
theorem escape_eq_ok_iff {cs rest : List Char} {bs : List UInt8} :
    escape cs = .ok (bs, rest) ↔ ∃ es, cs = es ++ rest ∧ Escape es bs := by
  constructor
  · exact eq_of_escape
  · rintro ⟨es, rfl, h⟩
    exact escape_of_escape h rest

/-! ## Whole literals -/

/-- Octets that are read are spelled at the front of the text, before a closing quote. -/
theorem eq_of_octets {cs rest : List Char} {bs : List UInt8} (h : octets cs = .ok (bs, rest)) :
    ∃ body, cs = body ++ '"' :: rest ∧ Spells body bs := by
  fun_induction octets cs generalizing bs rest with
  | case1 => cases h
  | case2 c tail hc =>
    obtain ⟨rfl, rfl⟩ := Prod.mk.inj (Except.ok.inj h)
    rw [beq_iff_eq] at hc
    exact ⟨[], by rw [hc]; rfl, .nil⟩
  | case3 => cases h
  | case4 => cases h
  | case5 c tail _ _ hc bs' after he ih =>
    obtain ⟨_, ho, ⟨⟩⟩ := map_eq_ok_iff.1 h
    obtain ⟨es, rfl, hes⟩ := escape_eq_ok_iff.1 he
    obtain ⟨body, hbody, hspells⟩ := ih ho
    rw [beq_iff_eq] at hc
    refine ⟨'\\' :: es ++ body, ?_, .escape hes hspells⟩
    rw [hc, hbody, List.cons_append, List.cons_append, List.append_assoc]
  | case6 c tail hq hn hs ih =>
    obtain ⟨_, ho, ⟨⟩⟩ := map_eq_ok_iff.1 h
    obtain ⟨body, rfl, hspells⟩ := ih ho
    simp only [beq_iff_eq] at hq hn hs
    exact ⟨c :: body, rfl, .char hq hs hn hspells⟩

/-- What stands before a closing quote is read as the octets that it spells. -/
theorem octets_of_spells {body : List Char} {bs : List UInt8} (h : Spells body bs)
    (rest : List Char) : octets (body ++ '"' :: rest) = .ok (bs, rest) := by
  induction h with
  | nil => rw [List.nil_append, octets]; rfl
  | @char c cs bs hq hs hn _ ih =>
    rw [List.cons_append, octets]
    simp [hq, hs, hn, ih, Except.map]
  | @escape es cs bs bs' hes _ ih =>
    have he : escape (es ++ (cs ++ '"' :: rest)) = .ok (bs, cs ++ '"' :: rest) :=
      escape_of_escape hes _
    rw [List.cons_append, List.cons_append, List.append_assoc, octets]
    rw [if_neg (by decide), if_neg (by decide), if_pos (by decide)]
    split
    · rename_i hf
      rw [he] at hf
      cases hf
    · rename_i ho
      rw [he] at ho
      obtain ⟨rfl, rfl⟩ := Prod.mk.inj (Except.ok.inj ho)
      rw [ih]
      rfl

/-- A literal is read as the text whose octets it spells. -/
theorem read_eq_ok_iff {cs rest : List Char} {value : String} :
    read cs = .ok (value, rest) ↔
      ∃ body, cs = body ++ '"' :: rest ∧ Spells body (Utf8.encode value.toList) := by
  unfold read
  constructor
  · intro h
    split at h
    · cases h
    · rename_i bs rest' ho
      split at h
      · cases h
      · rename_i value' hv
        obtain ⟨rfl, rfl⟩ := Prod.mk.inj (Except.ok.inj h)
        obtain ⟨body, hbody, hspells⟩ := eq_of_octets ho
        rw [String.toList_ofList, ← Utf8.decode_eq_some_iff.1 hv]
        exact ⟨body, hbody, hspells⟩
  · rintro ⟨body, rfl, h⟩
    simp only [octets_of_spells h, Utf8.decode_eq_some_iff.2 rfl, String.ofList_toList]

end Stencil.Template.Literal
