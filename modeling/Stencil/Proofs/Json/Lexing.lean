import Mathlib.Data.List.TakeWhile
import Stencil.Proofs.Json.Stripping

/-!
# What tokens are cut from

Every token but the last is cut from the characters of a symbol: what is read over as a number or a
string is written as one, whether it has a value or not. So a text that is cut up to its end is one
that spells symbols, with blanks between them.
-/

namespace Stencil.Json

open Lexeme

section

variable {cs rest : List Char}

/-! ## Words and numbers -/

/-- A word that is read stands at the front of the text. -/
theorem eq_append_of_word {letters : List Char} (h : word letters cs = .ok ((), rest)) :
    cs = letters ++ rest := by
  fun_induction word letters cs with
  | case1 cs =>
    cases h
    rfl
  | case2 => cases h
  | case3 l letters c cs hc ih => rw [eq_of_beq hc, ih h, List.cons_append]
  | case4 => cases h

theorem isDigit_of_mem_digits {c : Char} (h : c ∈ digits cs) : c.isDigit = true :=
  List.mem_takeWhile_imp h

theorem digits_append_afterDigits (cs : List Char) : digits cs ++ afterDigits cs = cs :=
  List.takeWhile_append_dropWhile

theorem digits_cons {c : Char} (hc : c.isDigit = true) (cs : List Char) : Digits (c :: digits cs) :=
  ⟨List.cons_ne_nil _ _, List.forall_mem_cons.2 ⟨hc, fun _ => isDigit_of_mem_digits⟩⟩

/-- A text is a sign, or none, and what is left without it. -/
theorem exists_sign (cs : List Char) : ∃ sign, Sign sign ∧ cs = sign ++ signless cs := by
  unfold signless
  split
  · exact ⟨_, .inr (.inl rfl), rfl⟩
  · exact ⟨_, .inr (.inr rfl), rfl⟩
  · exact ⟨_, .inl rfl, rfl⟩

/-- A power of ten that is read over is a sign and digits. -/
theorem exists_of_skipPower (h : skipPower cs = .ok ((), rest)) :
    ∃ sign ds, Sign sign ∧ Digits ds ∧ cs = sign ++ ds ++ rest := by
  obtain ⟨sign, hsign, hcs⟩ := exists_sign cs
  unfold skipPower at h
  split at h
  · cases h
  · rename_i c tail heq
    split at h
    · rename_i hc
      cases h
      refine ⟨sign, _, hsign, digits_cons hc tail, ?_⟩
      rw [List.append_assoc, List.cons_append, digits_append_afterDigits, ← heq, ← hcs]
    · cases h

namespace WrittenNumber

/-- A number of whole digits only. -/
def ofWhole (negative : Bool) (whole : List Char) (hdigits : Digits whole)
    (hleads : whole.head? = some '0' → whole = ['0']) : WrittenNumber where
  negative := negative
  whole := whole
  fraction := none
  power := none
  whole_digits := hdigits
  whole_leads := hleads
  fraction_digits := fun _ h => absurd h (Option.not_mem_none _)
  power_letter := fun _ h => absurd h (Option.not_mem_none _)
  power_sign := fun _ h => absurd h (Option.not_mem_none _)
  power_digits := fun _ h => absurd h (Option.not_mem_none _)

/-- What is read over after the digits of a number is a power of ten, or nothing. -/
theorem exists_powerChars (n : WrittenNumber) (hn : n.power = none)
    (h : skipAfterFraction cs = .ok ((), rest)) :
    ∃ n' : WrittenNumber, n'.negative = n.negative ∧ n'.whole = n.whole ∧
      n'.fraction = n.fraction ∧ cs = n'.powerChars ++ rest := by
  have hpower {letter : Char} {tail : List Char} (hletter : letter = 'e' ∨ letter = 'E')
      (h : skipPower tail = .ok ((), rest)) : ∃ n' : WrittenNumber, n'.negative = n.negative ∧
        n'.whole = n.whole ∧ n'.fraction = n.fraction ∧
        letter :: tail = n'.powerChars ++ rest := by
    obtain ⟨sign, ds, hsign, hds, rfl⟩ := exists_of_skipPower h
    have hsome {p : Char × List Char × List Char} (hp : p ∈ some (letter, sign, ds)) :
        (letter, sign, ds) = p := Option.some.inj hp
    refine ⟨{ n with
      power := some (letter, sign, ds)
      power_letter := fun p hp => hsome hp ▸ hletter
      power_sign := fun p hp => hsome hp ▸ hsign
      power_digits := fun p hp => hsome hp ▸ hds }, rfl, rfl, rfl, rfl⟩
  unfold skipAfterFraction at h
  split at h
  · exact hpower (.inl rfl) h
  · exact hpower (.inr rfl) h
  · cases h
    refine ⟨n, rfl, rfl, rfl, ?_⟩
    rw [powerChars, hn]
    rfl

/-- What is read over after the whole digits of a number is a fraction and a power of ten. -/
theorem exists_afterWhole (n : WrittenNumber) (hfraction : n.fraction = none)
    (hpower : n.power = none) (h : skipAfterWhole cs = .ok ((), rest)) :
    ∃ n' : WrittenNumber, n'.negative = n.negative ∧ n'.whole = n.whole ∧
      cs = n'.afterWhole ++ rest := by
  unfold skipAfterWhole at h
  split at h
  · rename_i tail
    split at h
    · cases h
    · rename_i hne
      have hds : Digits (digits tail) := ⟨by simpa using hne, fun _ => isDigit_of_mem_digits⟩
      let point : WrittenNumber :=
        { n with
          fraction := some (digits tail)
          fraction_digits := fun ds hmem => Option.some.inj hmem ▸ hds }
      obtain ⟨n', hnegative, hwhole, hfraction', htail⟩ := point.exists_powerChars hpower h
      refine ⟨n', hnegative, hwhole, ?_⟩
      rw [afterWhole, hfraction', ← digits_append_afterDigits tail, htail]
      exact congrArg ('.' :: ·) (List.append_assoc _ _ _).symm
  · obtain ⟨n', hnegative, hwhole, hfraction', rfl⟩ := n.exists_powerChars hpower h
    refine ⟨n', hnegative, hwhole, ?_⟩
    rw [afterWhole, hfraction', hfraction]

/-- What is read over as a number is one, of either sign. -/
theorem exists_of_skipNumber (negative : Bool) (h : skipNumber cs = .ok ((), rest)) :
    ∃ n : WrittenNumber, n.negative = negative ∧ cs = n.whole ++ n.afterWhole ++ rest := by
  -- In either case the whole digits are followed by a fraction and a power, or by neither.
  have hwhole {whole tail : List Char} (hdigits : Digits whole)
      (hleads : whole.head? = some '0' → whole = ['0'])
      (h : skipAfterWhole tail = .ok ((), rest)) : ∃ n : WrittenNumber, n.negative = negative ∧
        whole ++ tail = n.whole ++ n.afterWhole ++ rest := by
    obtain ⟨n, hnegative, hn, rfl⟩ :=
      (ofWhole negative whole hdigits hleads).exists_afterWhole rfl rfl h
    refine ⟨n, hnegative, ?_⟩
    rw [hn, List.append_assoc]
    rfl
  have hzero : Digits ['0'] := ⟨List.cons_ne_nil _ _, List.forall_mem_singleton.2 rfl⟩
  unfold skipNumber at h
  split at h
  · cases h
  · rename_i c tail
    split at h
    · rename_i hc
      obtain rfl := eq_of_beq hc
      split at h
      · split at h
        · cases h
        · exact hwhole hzero (fun _ => rfl) h
      · exact hwhole hzero (fun _ => rfl) h
    · rename_i hc
      split at h
      · rename_i hdigit
        have hleads : (c :: digits tail).head? = some '0' → c :: digits tail = ['0'] :=
          fun hhead => absurd (beq_iff_eq.2 (Option.some.inj hhead)) hc
        have hnumber := hwhole (digits_cons hdigit tail) hleads h
        rwa [List.cons_append, digits_append_afterDigits] at hnumber
      · cases h

end WrittenNumber

/-! ## Strings -/

/-- A letter that stands for something is one of the escapes. -/
theorem mem_escapeLetters {letter value : Char} (h : simpleEscape? letter = some value) :
    (letter, value) ∈ escapeLetters := by
  unfold simpleEscape? at h
  split at h
  iterate 8
    obtain rfl := Option.some.inj h
    decide
  cases h

/-- A code unit that is read is that of the first four characters. -/
theorem codeUnit_take {n : Nat} (h : codeUnit cs = .ok (n, rest)) :
    CodeUnit (cs.take 4) n ∧ rest = cs.drop 4 := by
  unfold codeUnit at h
  split at h
  · rename_i m hunit
    cases h
    unfold unit? at hunit
    split at hunit
    · rename_i hlength
      exact ⟨⟨eq_of_beq hlength, Text.hexNumber?_eq_some_iff.1 hunit⟩, rfl⟩
    · cases hunit
  · split at h <;> cases h

/-- An escape that is read over is a part of a string. -/
theorem exists_piece_of_skipEscape (h : skipEscape cs = .ok ((), rest)) :
    ∃ piece : Piece, '\\' :: cs = piece.chars ++ rest := by
  unfold skipEscape at h
  split at h
  · cases h
  · rename_i c tail
    split at h
    · rename_i hsome
      cases h
      obtain ⟨value, hvalue⟩ := Option.isSome_iff_exists.1 hsome
      exact ⟨.escape c value (mem_escapeLetters hvalue), rfl⟩
    · split at h
      · rename_i hc
        split at h
        · cases h
        · rename_i n tail' hunit
          cases h
          obtain ⟨hdigits, hrest⟩ := codeUnit_take hunit
          refine ⟨.unit (tail.take 4) n hdigits, ?_⟩
          rw [eq_of_beq hc, hrest]
          change _ = '\\' :: 'u' :: (tail.take 4 ++ tail.drop 4)
          rw [List.take_append_drop]
      · cases h

/-- What is read over as a string is the parts of one and a closing quote. -/
theorem exists_pieces_of_skipText (h : skipText cs = .ok ((), rest)) :
    ∃ pieces, cs = quotedChars pieces ++ '"' :: rest := by
  have hcons {piece : Piece} {tail : List Char}
      (h : ∃ pieces, tail = quotedChars pieces ++ '"' :: rest) :
      ∃ pieces, piece.chars ++ tail = quotedChars pieces ++ '"' :: rest := by
    obtain ⟨pieces, rfl⟩ := h
    refine ⟨piece :: pieces, ?_⟩
    rw [quotedChars, quotedChars, List.flatMap_cons, List.append_assoc]
  fun_induction skipText cs with
  | case1 => cases h
  | case2 c tail hc =>
    cases h
    exact ⟨[], by rw [eq_of_beq hc]; rfl⟩
  | case3 => cases h
  | case4 c tail hquote hc u tail' hescape ih =>
    obtain ⟨piece, hpiece⟩ := exists_piece_of_skipEscape hescape
    rw [eq_of_beq hc, hpiece]
    exact hcons (ih h)
  | case5 => cases h
  | case6 c tail hquote hbackslash hcontrol ih =>
    have hplain : Plain c :=
      ⟨mt beq_iff_eq.2 hquote, mt beq_iff_eq.2 hbackslash, Nat.not_lt.1 hcontrol⟩
    exact @hcons (.plain c hplain) _ (ih h)

end

/-! ## Tokens -/

/-- Whether a token of some kind is written with a symbol. -/
def Kind.WrittenAs : Kind → Symbol → Prop
  | .openTable, s => s = .openTable
  | .closeTable, s => s = .closeTable
  | .openList, s => s = .openList
  | .closeList, s => s = .closeList
  | .colon, s => s = .colon
  | .comma, s => s = .comma
  | .scalar (.text _), s => ∃ pieces, s = .literal (.string pieces)
  | .scalar _, s => ∃ l, s = .literal l
  | .worthless true _, s => ∃ pieces, s = .literal (.string pieces)
  | .worthless false _, s => ∃ l, s = .literal l
  | .broken .., _ => False
  | .stray, _ => False
  | .ending, _ => False

/-- Whether a token of some kind is cut from a malformed text. -/
def Kind.isFaulty : Kind → Bool
  | .broken .. => true
  | .stray => true
  | _ => false

section

variable {k : Kind} {s : Symbol} {cs rest : List Char}

/-- A scalar is written as a literal. -/
theorem Kind.WrittenAs.of_scalar {v : Scalar} (h : (Kind.scalar v).WrittenAs s) :
    ∃ l, s = .literal l := by
  cases v with
  | text _ =>
    obtain ⟨pieces, hs⟩ := h
    exact ⟨_, hs⟩
  | _ => exact h

/-- A literal without a value is written as a literal. -/
theorem Kind.WrittenAs.of_worthless {quoted : Bool} {f : Fault}
    (h : (Kind.worthless quoted f).WrittenAs s) : ∃ l, s = .literal l := by
  cases quoted with
  | true =>
    obtain ⟨pieces, hs⟩ := h
    exact ⟨_, hs⟩
  | false => exact h

/-- A literal whose characters are read over is one token, with a value or without one. -/
theorem Token.writtenAs_literal {α : Type} {p : Position} {quoted : Bool} {value : α → Scalar}
    {strict : Reading α} {lenient : Reading Unit} {text : List Char}
    (h : literal p cs quoted value strict lenient = (k, rest))
    (hlenient : lenient = .ok ((), rest) → ∃ s : Symbol, text = s.chars ++ rest ∧
      (∀ v, (Kind.scalar (value v)).WrittenAs s) ∧ ∀ f, (Kind.worthless quoted f).WrittenAs s) :
    k.isFaulty = true ∨ ∃ s, text = s.chars ++ rest ∧ k.WrittenAs s := by
  unfold literal at h
  split at h
  · split at h <;> cases h <;> exact .inl rfl
  · split at h
    · cases h
      obtain ⟨s, hs, -, hworthless⟩ := hlenient rfl
      exact .inr ⟨s, hs, hworthless _⟩
    · cases h
      obtain ⟨s, hs, hscalar, -⟩ := hlenient rfl
      exact .inr ⟨s, hs, hscalar _⟩

/-- The token of a word is faulty, or the word stands at the front of the text. -/
theorem Token.writtenAs_word {p : Position} {c : Char} {letters : List Char} {value : Scalar}
    {l : Literal} (h : wordLiteral p cs letters value = (k, rest)) (hl : l.chars = c :: letters)
    (hvalue : (Kind.scalar value).WrittenAs (.literal l)) :
    k.isFaulty = true ∨ ∃ s, c :: cs = s.chars ++ rest ∧ k.WrittenAs s := by
  refine writtenAs_literal h fun hword => ⟨.literal l, ?_, fun _ => hvalue, fun _ => ⟨l, rfl⟩⟩
  rw [eq_append_of_word hword]
  exact congrArg (· ++ rest) hl.symm

/-- A token is cut from the characters of a symbol, unless they are malformed. -/
theorem Token.writtenAs_lexeme (p : Position) (c : Char) (cs : List Char) :
    (lexeme p c cs).1.isFaulty = true ∨
      ∃ s, c :: cs = s.chars ++ (lexeme p c cs).2 ∧ (lexeme p c cs).1.WrittenAs s := by
  obtain ⟨k, rest, h⟩ : ∃ k rest, lexeme p c cs = (k, rest) := ⟨_, _, rfl⟩
  rw [h]
  unfold lexeme at h
  -- One case for each character that may start a token, in the order of the scanner.
  extract_lets q at h
  split at h
  · cases h
    exact .inr ⟨.openTable, rfl, rfl⟩
  · cases h
    exact .inr ⟨.closeTable, rfl, rfl⟩
  · cases h
    exact .inr ⟨.openList, rfl, rfl⟩
  · cases h
    exact .inr ⟨.closeList, rfl, rfl⟩
  · cases h
    exact .inr ⟨.colon, rfl, rfl⟩
  · cases h
    exact .inr ⟨.comma, rfl, rfl⟩
  · exact writtenAs_word (l := .null) h rfl ⟨_, rfl⟩
  · exact writtenAs_word (l := .bool true) h rfl ⟨_, rfl⟩
  · exact writtenAs_word (l := .bool false) h rfl ⟨_, rfl⟩
  · refine writtenAs_literal h fun hskip => ?_
    obtain ⟨pieces, rfl⟩ := exists_pieces_of_skipText hskip
    refine ⟨.literal (.string pieces), ?_, fun _ => ⟨_, rfl⟩, fun _ => ⟨_, rfl⟩⟩
    change _ = '"' :: (quotedChars pieces ++ ['"'] ++ rest)
    rw [List.append_assoc]
    rfl
  · refine writtenAs_literal h fun hskip => ?_
    obtain ⟨n, hn, rfl⟩ := WrittenNumber.exists_of_skipNumber true hskip
    refine ⟨.literal (.number n), ?_, fun _ => ⟨_, rfl⟩, fun _ => ⟨_, rfl⟩⟩
    simp only [Symbol.chars, Literal.chars, WrittenNumber.chars, hn, if_true, List.cons_append]
  · split at h
    · refine writtenAs_literal h fun hskip => ?_
      obtain ⟨n, hn, hcs⟩ := WrittenNumber.exists_of_skipNumber false hskip
      refine ⟨.literal (.number n), ?_, fun _ => ⟨_, rfl⟩, fun _ => ⟨_, rfl⟩⟩
      simp only [hcs, Symbol.chars, Literal.chars, WrittenNumber.chars, hn, Bool.false_eq_true,
        if_false]
    · cases h
      exact .inl rfl

theorem Kind.isLast_of_isFaulty (h : k.isFaulty = true) : k.isLast = true := by
  cases k <;> first | rfl | cases h

end

/-- The tokens of a text up to the last are written with symbols. If the last is the end of the
text, the text spells the symbols. -/
theorem Token.exists_spaced_scanFrom (p : Position) (cs : List Char) :
    ∃ ts t symbols, scanFrom p cs = ts ++ [t] ∧
      List.Forall₂ (fun t s => t.kind.WrittenAs s) ts symbols ∧
      (t.kind = .ending → Spaced (fun _ => Blank) symbols cs) := by
  have hnil : Blank [] := nofun
  fun_induction scanFrom p cs with
  | case1 p => exact ⟨[], _, [], rfl, .nil, fun _ => .nil hnil⟩
  | case2 p c cs hblank ih =>
    obtain ⟨ts, t, symbols, hscan, hts, hspaced⟩ := ih
    have hc : Blank [c] := List.forall_mem_singleton.2 hblank
    exact ⟨ts, t, symbols, hscan, hts, fun hending => (hspaced hending).blanks hc⟩
  | case3 p c cs hblank r hlast =>
    rw [dif_pos hlast]
    refine ⟨[], _, [], rfl, .nil, fun hending => ?_⟩
    -- The end of a text is not seen where there is still a character.
    replace hending : (lexeme p c cs).1 = .ending := hending
    have hlexeme := writtenAs_lexeme p c cs
    rw [hending] at hlexeme
    rcases hlexeme with hfaulty | ⟨s, -, hs⟩
    · cases hfaulty
    · exact hs.elim
  | case4 p c cs hblank r hlast stop ih =>
    rw [dif_neg hlast]
    obtain ⟨ts, t, symbols, hscan, hts, hspaced⟩ := ih
    rcases writtenAs_lexeme p c cs with hfaulty | ⟨s, hchars, hs⟩
    · exact absurd (Kind.isLast_of_isFaulty hfaulty) hlast
    · refine ⟨_ :: ts, t, s :: symbols, congrArg (_ :: ·) hscan, .cons hs hts, fun hending => ?_⟩
      rw [hchars]
      exact .cons hnil (hspaced hending)

end Stencil.Json
