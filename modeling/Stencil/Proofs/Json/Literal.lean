import Stencil.Proofs.Json.Grammar

/-!
# Literals on their own and in a text

What a literal is read as does not depend on what follows it, as long as nothing follows that could
belong to it, nor on where it stands. It has a value unless it is a number that is out of range or a
string with half of a surrogate pair, and these are read over where no value is wanted.
-/

namespace Stencil.Json

open Lexeme

/-- Nothing that could belong to a number stands at the front of the text. -/
def Delimits (cs : List Char) : Prop :=
  ∀ c ∈ cs.head?, c.isDigit = false ∧ c ≠ '.' ∧ c ≠ 'e' ∧ c ≠ 'E'

/-- No digit stands at the front of the text. -/
def Digitless (cs : List Char) : Prop := ∀ c ∈ cs.head?, c.isDigit = false

theorem delimits_nil : Delimits [] := by
  rintro c ⟨⟩

theorem Delimits.digitless {cs : List Char} (h : Delimits cs) : Digitless cs :=
  fun c hc => (h c hc).1

/-- A reading that fails with a cause. -/
def Fails {α : Type} (cause : Cause) (r : Reading α) : Prop := ∃ f, r = .error f ∧ f.cause = cause

theorem fails_failAt {α : Type} (cause : Cause) (rest : List Char) :
    Fails cause (failAt cause rest : Reading α) := ⟨_, rfl, rfl⟩

theorem fails_failOn {α : Type} (cause : Cause) (rest : List Char) :
    Fails cause (failOn cause rest : Reading α) := ⟨_, rfl, rfl⟩

/-- A reading that yields a value and leaves the rest of the text, or fails with a cause. -/
def Reads {α : Type} (v : Except Cause α) (rest : List Char) (r : Reading α) : Prop :=
  match v with
  | .ok a => r = .ok (a, rest)
  | .error cause => Fails cause r

/-- A reading that yields a value and leaves the rest of the text, whatever this is, or finds the
value out of range. -/
def ReadsNumber (P : List Char → Prop) (r : List Char → Reading Number) : Prop :=
  ∃ v : Except Cause Number, (∀ cause, v = .error cause → cause = .hugeNumber) ∧
    ∀ rest, P rest → Reads v rest (r rest)

/-! ## Digits -/

section

variable {ds rest : List Char}

/-- Digits before something else are the digits at the front, and that is what follows them. -/
theorem digits_append (hds : ∀ c ∈ ds, c.isDigit = true) (h : Digitless rest) :
    digits (ds ++ rest) = ds ∧ afterDigits (ds ++ rest) = rest := by
  have hnone : rest.takeWhile Char.isDigit = [] ∧ rest.dropWhile Char.isDigit = rest := by
    cases rest with
    | nil => exact ⟨rfl, rfl⟩
    | cons c rest => simp [h c rfl]
  rw [digits, afterDigits, List.takeWhile_append_of_pos hds, List.dropWhile_append_of_pos hds,
    hnone.1, hnone.2, List.append_nil]
  exact ⟨rfl, rfl⟩

/-- The digits of a power of ten stop fitting at the same place, whatever follows them. -/
theorem overflowing_append (hds : ∀ c ∈ ds, c.isDigit = true) (h : Digitless rest) (power : Nat) :
    overflowing power (ds ++ rest) = (overflowing power ds).map (· ++ rest) := by
  induction ds generalizing power with
  | nil =>
    cases rest with
    | nil => rfl
    | cons c rest => simp [overflowing, h c rfl]
  | cons c ds ih =>
    have hc := hds c List.mem_cons_self
    simp only [List.cons_append, overflowing, hc, if_true]
    split
    · exact ih (fun d hd => hds d (List.mem_cons_of_mem _ hd)) _
    · rfl

end

/-! ## Numbers -/

/-- Making a double yields it or finds it out of range, whatever follows. -/
theorem readsNumber_real (negative : Bool) (significand : Nat) (power : Int) :
    ReadsNumber (fun _ => True) (real negative significand power) := by
  unfold real
  cases Decimal.Magnitude.ofDecimal significand power with
  | some m => exact ⟨.ok (.real ⟨negative, m⟩), by simp, fun rest _ => rfl⟩
  | none => exact ⟨.error .hugeNumber, by simp, fun rest _ => ⟨_, rfl, rfl⟩⟩

/-- The sign of a power of ten is seen, and passed over, before its digits. -/
theorem signless_append {sign ds : List Char} (hsign : Sign sign) (hds : Digits ds)
    (rest : List Char) :
    signless (sign ++ ds ++ rest) = ds ++ rest ∧
      ((sign ++ ds ++ rest).head? == some '-') = (sign == ['-']) := by
  obtain ⟨c, ds, rfl, hc, -⟩ := hds.exists_cons
  have hplus : c ≠ '+' := by
    rintro rfl
    exact absurd hc (by decide)
  have hminus : c ≠ '-' := by
    rintro rfl
    exact absurd hc (by decide)
  rcases hsign with rfl | rfl | rfl
  · refine ⟨?_, by simp [hminus]⟩
    rw [List.nil_append, List.cons_append, signless]
    · exact fun _ h => hplus (List.cons.inj h).1
    · exact fun _ h => hminus (List.cons.inj h).1
  · exact ⟨rfl, rfl⟩
  · exact ⟨rfl, rfl⟩

/-- A power of ten is read alike whatever follows it. -/
theorem readsNumber_power {sign ds : List Char} (hsign : Sign sign) (hds : Digits ds)
    (negative : Bool) (significand : Nat) (shift : Int) :
    ReadsNumber Digitless fun rest => power negative significand shift (sign ++ ds ++ rest) := by
  have hsigned := signless_append hsign hds
  have hall := hds.2
  obtain ⟨c, ds, rfl, hc, htail⟩ := hds.exists_cons
  unfold power
  simp only [hsigned, List.cons_append, hc, Bool.not_true, Bool.false_eq_true, if_false]
  -- A power that is too large for its type decides by its sign alone: no value, or zero.
  cases hover : overflowing (digitValue c) ds with
  | some excess =>
    by_cases hhuge : (significand != 0 && !(sign == ['-'])) = true
    · refine ⟨.error .hugeNumber, by simp, fun rest hrest => ?_⟩
      beta_reduce
      rw [overflowing_append htail hrest, hover]
      simp only [Option.map_some, hhuge, if_true]
      exact ⟨_, rfl, rfl⟩
    · refine ⟨.ok (.real ⟨negative, Decimal.Magnitude.zero⟩), by simp, fun rest hrest => ?_⟩
      beta_reduce
      rw [overflowing_append htail hrest, hover]
      simp only [Option.map_some, hhuge]
      rw [(digits_append htail hrest).2]
      rfl
  | none =>
    obtain ⟨v, hcause, hreads⟩ := readsNumber_real negative significand
      (if (sign == ['-']) = true then
        shift - ((c :: ds).foldl (fun n d => n * 10 + digitValue d) 0 : Nat)
      else shift + ((c :: ds).foldl (fun n d => n * 10 + digitValue d) 0 : Nat))
    refine ⟨v, hcause, fun rest hrest => ?_⟩
    have hdigits : digits (c :: (ds ++ rest)) = c :: ds := (digits_append hall hrest).1
    beta_reduce
    rw [overflowing_append htail hrest, hover]
    simp only [Option.map_none]
    rw [hdigits, (digits_append htail hrest).2]
    exact hreads rest trivial

/-- A number that ends after its whole digits is an integer if all of them fit, and else a
double. -/
theorem afterWhole_of_delimits {rest : List Char} (h : Delimits rest) (negative : Bool)
    (significand dropped : Nat) :
    Lexeme.afterWhole negative significand dropped rest =
      if dropped == 0 then
        (Number.ofInteger negative significand).elim (failAt .hugeNumber rest)
          fun n => .ok (n, rest)
      else real negative significand dropped rest := by
  unfold Lexeme.afterWhole
  split
  · exact absurd rfl (h _ rfl).2.1
  · exact absurd rfl (h _ rfl).2.2.1
  · exact absurd rfl (h _ rfl).2.2.2
  · cases Number.ofInteger negative significand <;> rfl

/-- A number of whole digits only is read alike whatever follows it. -/
theorem readsNumber_integer (negative : Bool) (significand dropped : Nat) :
    ReadsNumber Delimits (Lexeme.afterWhole negative significand dropped) := by
  by_cases hd : (dropped == 0) = true
  · cases hi : Number.ofInteger negative significand with
    | some m =>
      refine ⟨.ok m, by simp, fun rest hrest => ?_⟩
      rw [afterWhole_of_delimits hrest, if_pos hd, hi]
      rfl
    | none =>
      refine ⟨.error .hugeNumber, by simp, fun rest hrest => ?_⟩
      rw [afterWhole_of_delimits hrest, if_pos hd, hi]
      exact fails_failAt _ _
  · obtain ⟨v, hcause, hreads⟩ := readsNumber_real negative significand dropped
    refine ⟨v, hcause, fun rest hrest => ?_⟩
    rw [afterWhole_of_delimits hrest, if_neg hd]
    exact hreads rest trivial

namespace WrittenNumber

variable (n : WrittenNumber) {rest : List Char}

/-- A power of ten and what delimits numbers do not start with a digit. -/
theorem digitless_powerChars (h : Delimits rest) : Digitless (n.powerChars ++ rest) := by
  unfold powerChars
  cases hp : n.power with
  | none => exact h.digitless
  | some p =>
    intro c hc
    obtain rfl := Option.some.inj hc
    rcases n.power_letter p hp with hl | hl <;> rw [hl] <;> decide

/-- What follows the whole digits of a number does not start with a digit. -/
theorem digitless_afterWhole (h : Delimits rest) : Digitless (n.afterWhole ++ rest) := by
  unfold afterWhole
  cases n.fraction with
  | none => exact n.digitless_powerChars h
  | some ds =>
    intro c hc
    obtain rfl := Option.some.inj hc
    decide

/-- A number is read on after its digits, whatever delimits it. -/
theorem readsNumber_afterFraction (negative : Bool) (significand : Nat) (shift : Int) :
    ReadsNumber Delimits fun rest =>
      afterFraction negative significand shift (n.powerChars ++ rest) := by
  unfold powerChars
  cases hp : n.power with
  | none =>
    obtain ⟨v, hcause, hreads⟩ := readsNumber_real negative significand shift
    refine ⟨v, hcause, fun rest hrest => ?_⟩
    have hreal : afterFraction negative significand shift rest =
        real negative significand shift rest := by
      unfold afterFraction
      split
      · exact absurd rfl (hrest _ rfl).2.2.1
      · exact absurd rfl (hrest _ rfl).2.2.2
      · rfl
    simpa only [List.nil_append, hreal] using hreads rest trivial
  | some p =>
    obtain ⟨letter, sign, ds⟩ := p
    obtain ⟨v, hcause, hreads⟩ :=
      readsNumber_power (n.power_sign _ hp) (n.power_digits _ hp) negative significand shift
    refine ⟨v, hcause, fun rest hrest => ?_⟩
    rcases n.power_letter _ hp with hl | hl <;> obtain rfl : letter = _ := hl <;>
      exact hreads rest hrest.digitless

/-- A number is read on after its point, whatever delimits it. -/
theorem readsNumber_fraction {ds : List Char} (hf : n.fraction = some ds) (negative : Bool)
    (significand : Nat) (shift : Int) :
    ReadsNumber Delimits fun rest =>
      Lexeme.fraction negative significand shift (ds ++ n.powerChars ++ rest) := by
  obtain ⟨hne, hds⟩ := n.fraction_digits _ hf
  obtain ⟨v, hcause, hreads⟩ := n.readsNumber_afterFraction negative (accumulate significand ds).1
    (shift - (ds.length - (accumulate significand ds).2 : Nat))
  refine ⟨v, hcause, fun rest hrest => ?_⟩
  obtain ⟨hdigits, hafter⟩ := digits_append hds (n.digitless_powerChars hrest)
  beta_reduce
  rw [Lexeme.fraction, List.append_assoc, hdigits, hafter, if_neg (by simpa using hne)]
  exact hreads rest hrest

/-- A number is read on after its whole digits, whatever delimits it. -/
theorem readsNumber_afterWhole (negative : Bool) (significand dropped : Nat) :
    ReadsNumber Delimits fun rest =>
      Lexeme.afterWhole negative significand dropped (n.afterWhole ++ rest) := by
  unfold afterWhole
  cases hf : n.fraction with
  | some ds => exact n.readsNumber_fraction hf negative significand dropped
  | none =>
    unfold powerChars
    cases hp : n.power with
    | some p =>
      obtain ⟨letter, sign, ds⟩ := p
      obtain ⟨v, hcause, hreads⟩ :=
        readsNumber_power (n.power_sign _ hp) (n.power_digits _ hp) negative significand dropped
      refine ⟨v, hcause, fun rest hrest => ?_⟩
      rcases n.power_letter _ hp with hl | hl <;> obtain rfl : letter = _ := hl <;>
        exact hreads rest hrest.digitless
    | none => exact readsNumber_integer negative significand dropped

/-- A number is read alike whatever follows it. -/
theorem readsNumber_number (negative : Bool) :
    ReadsNumber Delimits fun rest => number negative (n.whole ++ n.afterWhole ++ rest) := by
  obtain ⟨c, ds, hw, hc, htail⟩ := n.whole_digits.exists_cons
  -- A zero in front is the whole number, since no digit may follow it.
  by_cases hzero : c = '0'
  · subst hzero
    obtain rfl : ds = [] := (List.cons.inj (hw ▸ n.whole_leads (by rw [hw]; rfl))).2
    obtain ⟨v, hcause, hreads⟩ := n.readsNumber_afterWhole negative 0 0
    refine ⟨v, hcause, fun rest hrest => ?_⟩
    have hdigitless := n.digitless_afterWhole hrest
    have hzero : number negative ('0' :: (n.afterWhole ++ rest)) =
        Lexeme.afterWhole negative 0 0 (n.afterWhole ++ rest) := by
      unfold number
      dsimp only
      rw [if_pos (beq_self_eq_true '0')]
      split
      · rename_i d _ heq
        rw [if_neg (by simp [hdigitless d (by rw [heq]; rfl)])]
      · rename_i heq
        rw [heq]
    beta_reduce
    rw [hw, List.append_assoc, List.singleton_append, hzero]
    exact hreads rest hrest
  · obtain ⟨v, hcause, hreads⟩ := n.readsNumber_afterWhole negative (accumulate 0 (c :: ds)).1
      (accumulate 0 (c :: ds)).2
    refine ⟨v, hcause, fun rest hrest => ?_⟩
    have hdigitless := n.digitless_afterWhole hrest
    have hall := (digits_append n.whole_digits.2 hdigitless).1
    have hafter := (digits_append htail hdigitless).2
    rw [hw, List.cons_append] at hall
    beta_reduce
    rw [hw, List.append_assoc, List.cons_append]
    unfold number
    dsimp only
    rw [if_neg (by simpa using hzero), if_pos hc, hall, hafter]
    exact hreads rest hrest

/-! ### Numbers that are read over -/

/-- A power of ten is read over. -/
theorem skipPower_append {sign ds : List Char} (hsign : Sign sign) (hds : Digits ds)
    (h : Digitless rest) : skipPower (sign ++ ds ++ rest) = .ok ((), rest) := by
  have hsigned := (signless_append hsign hds rest).1
  obtain ⟨c, ds, rfl, hc, htail⟩ := hds.exists_cons
  rw [skipPower, hsigned]
  simp only [List.cons_append, hc, if_true, (digits_append htail h).2]

/-- What follows the digits of a number is read over. -/
theorem skipAfterFraction_append (h : Delimits rest) :
    skipAfterFraction (n.powerChars ++ rest) = .ok ((), rest) := by
  unfold powerChars
  cases hp : n.power with
  | none =>
    rw [List.nil_append]
    unfold skipAfterFraction
    split
    · exact absurd rfl (h _ rfl).2.2.1
    · exact absurd rfl (h _ rfl).2.2.2
    · rfl
  | some p =>
    obtain ⟨letter, sign, ds⟩ := p
    have hskip := skipPower_append (n.power_sign _ hp) (n.power_digits _ hp) h.digitless
    rcases n.power_letter _ hp with hl | hl <;> obtain rfl : letter = _ := hl <;> exact hskip

/-- What follows the whole digits of a number is read over. -/
theorem skipAfterWhole_append (h : Delimits rest) :
    skipAfterWhole (n.afterWhole ++ rest) = .ok ((), rest) := by
  unfold afterWhole
  cases hf : n.fraction with
  | some ds =>
    obtain ⟨hne, hds⟩ := n.fraction_digits _ hf
    obtain ⟨hdigits, hafter⟩ := digits_append hds (n.digitless_powerChars h)
    simp only [List.cons_append, List.append_assoc, skipAfterWhole]
    rw [hdigits, hafter, if_neg (by simpa using hne), n.skipAfterFraction_append h]
  | none =>
    rw [← n.skipAfterFraction_append h]
    -- Without a fraction no point follows: neither a power nor what ends a number starts with one.
    have hpoint : ∀ rest', n.powerChars ++ rest ≠ '.' :: rest' := by
      intro rest' heq
      unfold powerChars at heq
      cases hp : n.power with
      | none =>
        rw [hp, List.nil_append] at heq
        exact absurd rfl (h '.' (by rw [heq]; rfl)).2.1
      | some p =>
        rw [hp] at heq
        have hl : p.1 = '.' := (List.cons.inj heq).1
        rcases n.power_letter p hp with hl' | hl' <;> rw [hl] at hl' <;> cases hl'
    unfold skipAfterWhole
    split
    · exact absurd ‹_› (hpoint _)
    · rfl

/-- A number is read over up to what follows it. -/
theorem skipNumber_append (h : Delimits rest) :
    skipNumber (n.whole ++ n.afterWhole ++ rest) = .ok ((), rest) := by
  have hdigitless := n.digitless_afterWhole h
  obtain ⟨c, ds, hw, hc, htail⟩ := n.whole_digits.exists_cons
  rw [hw, List.append_assoc, List.cons_append, ← n.skipAfterWhole_append h]
  unfold skipNumber
  dsimp only
  by_cases hzero : c = '0'
  · subst hzero
    obtain rfl : ds = [] := (List.cons.inj (hw ▸ n.whole_leads (by rw [hw]; rfl))).2
    rw [if_pos (beq_self_eq_true '0'), List.nil_append]
    split
    · rename_i d _ heq
      rw [if_neg (by simp [hdigitless d (by rw [heq]; rfl)])]
    · rename_i heq
      rw [heq]
      rfl
  · rw [if_neg (by simpa using hzero), if_pos hc, (digits_append htail hdigitless).2]

end WrittenNumber

/-! ## Strings -/

section

variable {rest : List Char}

/-- Digits of a code unit are read as that, whatever follows them. -/
theorem codeUnit_append {digits : List Char} {n : Nat} (h : CodeUnit digits n) (rest : List Char) :
    codeUnit (digits ++ rest) = .ok (n, rest) := by
  have hunit : unit? digits = some n := by
    rw [unit?, if_pos (by simp [h.1]), Text.hexNumber?_eq_some_iff.2 h.2]
  rw [codeUnit, List.take_left' h.1, hunit, List.drop_left' h.1]

/-- The letters of escapes stand for their characters. -/
theorem simpleEscape?_of_mem {letter value : Char} (h : (letter, value) ∈ escapeLetters) :
    simpleEscape? letter = some value := by
  have hall : ∀ e ∈ escapeLetters, simpleEscape? e.1 = some e.2 := by decide
  exact hall _ h

/-- The letter before the digits of a code unit is none of the others. -/
theorem ne_unitLetter {letter value : Char} (h : (letter, value) ∈ escapeLetters) :
    letter ≠ 'u' := by
  have hall : ∀ e ∈ escapeLetters, e.1 ≠ 'u' := by decide
  exact hall _ h

/-- The escape of a code unit that is no half of a surrogate pair is the character of it; the first
half is read on, and the second is refused. -/
theorem escape_unit {digits : List Char} {n : Nat} (h : CodeUnit digits n) (rest : List Char) :
    escape ('u' :: (digits ++ rest)) =
      if isTrailing n then failAt .loneSurrogate rest
      else if isLeading n then secondHalf n rest
      else .ok (Char.ofNat n, rest) := by
  have hsimple : simpleEscape? 'u' = none := rfl
  rw [escape, hsimple]
  simp only [beq_self_eq_true, if_true, codeUnit_append h]

/-- A plain character is read as itself. -/
theorem text_plain {c : Char} (h : Plain c) (rest : List Char) :
    text (c :: rest) = (text rest).map fun r => (c :: r.1, r.2) := by
  rw [text, if_neg (by simp [h.1]), if_neg (by simp [h.2.1]), if_neg (Nat.not_lt.2 h.2.2)]

/-- After a backslash an escape is read. -/
theorem text_backslash (rest : List Char) :
    text ('\\' :: rest) =
      match escape rest with
      | .error f => .error f
      | .ok (value, rest) => (text rest).map fun r => (value :: r.1, r.2) := by
  rw [text, if_neg (by decide), if_pos (by decide)]
  split <;> rename_i h <;> rw [h]

theorem text_quote (rest : List Char) : text ('"' :: rest) = .ok ([], rest) := by
  rw [text, if_pos (by decide)]

/-- A reading goes on with one more character in front of its value. -/
theorem Reads.cons {v : Except Cause (List Char)} {r : Reading (List Char)} (h : Reads v rest r)
    (c : Char) : Reads (v.map (c :: ·)) rest (r.map fun r => (c :: r.1, r.2)) := by
  cases v with
  | ok v =>
    obtain rfl : r = _ := h
    rfl
  | error cause =>
    obtain ⟨f, rfl, hf⟩ := h
    exact ⟨f, rfl, hf⟩

/-- A reading of a string after its opening quote, whatever follows the string: it yields a value,
or the string holds half of a surrogate pair. -/
def ReadsText (pieces : List Piece) : Prop :=
  ∃ v : Except Cause (List Char), (∀ cause, v = .error cause → ¬ Paired pieces) ∧
    ∀ rest, Reads v rest (text (quotedChars pieces ++ '"' :: rest))

/-- A part of a string that is read as a character may be put before other parts. -/
theorem ReadsText.cons {pieces pieces' : List Piece} {c : Char} (h : ReadsText pieces)
    (hpaired : Paired pieces' → Paired pieces)
    (htext : ∀ rest, text (quotedChars pieces' ++ '"' :: rest) =
      (text (quotedChars pieces ++ '"' :: rest)).map fun r => (c :: r.1, r.2)) :
    ReadsText pieces' := by
  obtain ⟨v, hv, hreads⟩ := h
  refine ⟨v.map (c :: ·), fun cause hcause hp => ?_, fun rest => ?_⟩
  · cases v with
    | ok v => cases hcause
    | error cause' => exact hv cause' rfl (hpaired hp)
  · rw [htext]
    exact (hreads rest).cons c

/-- A second half of a surrogate pair starts with a backslash. -/
theorem secondHalf_of_ne {c : Char} (h : c ≠ '\\') (n : Nat) (cs : List Char) :
    secondHalf n (c :: cs) = failOn .brokenPair (c :: cs) := by
  unfold secondHalf
  split
  · cases ‹c :: cs = []›
  · exact absurd (List.cons.inj ‹_›).1 h
  · rfl

/-- A second half of a surrogate pair is an escape with digits. -/
theorem secondHalf_letter {c : Char} (h : c ≠ 'u') (n : Nat) (cs : List Char) :
    secondHalf n ('\\' :: c :: cs) = failOn .brokenPair (c :: cs) := by
  simp only [secondHalf]
  split
  · cases ‹c :: cs = []›
  · exact absurd (List.cons.inj ‹_›).1 h
  · rfl

/-- The characters of a string are those of its parts, one after the other. -/
theorem quotedChars_cons (piece : Piece) (pieces : List Piece) (rest : List Char) :
    quotedChars (piece :: pieces) ++ rest = piece.chars ++ (quotedChars pieces ++ rest) := by
  rw [quotedChars, List.flatMap_cons, List.append_assoc]
  rfl

/-- A first half of a surrogate pair is read on in a code unit: it makes a character with a second
half. -/
theorem exists_secondHalf_unit {digits : List Char} {m : Nat} (h : CodeUnit digits m) (n : Nat)
    (pieces : List Piece) :
    ∃ c, ∀ rest, secondHalf n (quotedChars (.unit digits m h :: pieces) ++ rest) =
      if isTrailing m then .ok (c, quotedChars pieces ++ rest)
      else failAt .loneSurrogate (quotedChars pieces ++ rest) := by
  refine ⟨Char.ofNat ((n - 0xD800) * 1024 + (m - 0xDC00) + 0x10000), fun rest => ?_⟩
  rw [quotedChars_cons]
  change secondHalf n ('\\' :: 'u' :: (digits ++ _)) = _
  simp only [secondHalf, codeUnit_append h]

/-- A string with a code unit in front is read as the character of it, or of the pair that it
starts, and on. -/
theorem text_unit {digits : List Char} {n : Nat} (h : CodeUnit digits n) (pieces : List Piece)
    (cs : List Char) :
    text (quotedChars (.unit digits n h :: pieces) ++ cs) =
      match (if isTrailing n then failAt .loneSurrogate (quotedChars pieces ++ cs)
        else if isLeading n then secondHalf n (quotedChars pieces ++ cs)
        else .ok (Char.ofNat n, quotedChars pieces ++ cs)) with
      | .error f => .error f
      | .ok (value, rest) => (text rest).map fun r => (value :: r.1, r.2) := by
  rw [quotedChars_cons]
  change text ('\\' :: 'u' :: (digits ++ _)) = _
  rw [text_backslash, escape_unit h]

/-- No code unit is both a first and a second half. -/
theorem isTrailing_eq_false {n : Nat} (h : isLeading n = true) : isTrailing n = false := by
  simp only [isLeading, isTrailing, Bool.and_eq_true, decide_eq_true_eq, Bool.and_eq_false_iff,
    decide_eq_false_iff_not] at h ⊢
  omega

section

variable {digits : List Char} {n : Nat} {pieces : List Piece} (h : CodeUnit digits n)

/-- A second half of a surrogate pair is not paired without a first one before it. -/
theorem not_paired_of_trailing (ht : isTrailing n = true) :
    ¬ Paired (.unit digits n h :: pieces) := by
  simp only [isTrailing, Bool.and_eq_true, decide_eq_true_eq] at ht
  intro hp
  cases hp <;> omega

/-- The first half of a surrogate pair is paired only by a code unit after it. -/
theorem not_paired_of_leading (hl : isLeading n = true)
    (hrest : ∀ digits' m h' rest, pieces = .unit digits' m h' :: rest → isTrailing m = false) :
    ¬ Paired (.unit digits n h :: pieces) := by
  simp only [isLeading, isTrailing, Bool.and_eq_true, decide_eq_true_eq] at hl hrest
  intro hp
  cases hp with
  | unit hn _ => omega
  | pair _ hm _ => simpa [hm] using hrest _ _ _ _ rfl

/-- A string with the first half of a surrogate pair in front that no second half follows. -/
theorem readsText_unpaired (hl : isLeading n = true) {cause : Cause}
    (hsecond : ∀ rest, Fails cause (secondHalf n (quotedChars pieces ++ '"' :: rest)))
    (hrest : ∀ digits' m h' rest, pieces = .unit digits' m h' :: rest → isTrailing m = false) :
    ReadsText (.unit digits n h :: pieces) := by
  refine ⟨.error cause, fun _ _ => not_paired_of_leading h hl hrest, fun rest => ?_⟩
  obtain ⟨f, hf, hcause⟩ := hsecond rest
  refine ⟨f, ?_, hcause⟩
  rw [text_unit, if_neg (by simp [isTrailing_eq_false hl]), if_pos hl, hf]

/-- A string with two code units in front, of which the first is the first half of a pair. -/
theorem readsText_pair (hl : isLeading n = true) {digits' : List Char} {m : Nat}
    (h' : CodeUnit digits' m) (hpieces : ReadsText pieces) :
    ReadsText (.unit digits n h :: .unit digits' m h' :: pieces) := by
  obtain ⟨c, hsecond⟩ := exists_secondHalf_unit h' n pieces
  by_cases hm : isTrailing m = true
  · refine hpieces.cons (c := c) (fun hp => ?_) fun rest => ?_
    · simp only [isLeading, Bool.and_eq_true, decide_eq_true_eq] at hl
      cases hp with
      | unit hn _ => omega
      | pair _ _ hp => exact hp
    · rw [text_unit, if_neg (by simp [isTrailing_eq_false hl]), if_pos hl, hsecond, if_pos hm]
  · rw [Bool.not_eq_true] at hm
    have hfails (rest : List Char) : Fails .loneSurrogate
        (secondHalf n (quotedChars (.unit digits' m h' :: pieces) ++ '"' :: rest)) := by
      rw [hsecond, if_neg (by simp [hm])]
      exact fails_failAt _ _
    refine readsText_unpaired h hl hfails ?_
    rintro _ _ _ _ ⟨⟩
    exact hm

/-- A string with a code unit in front is read alike whatever follows it, if what comes after the
code unit is, and what comes after the part after it. -/
theorem readsText_unit (hpieces : ReadsText pieces) (htail : ReadsText pieces.tail) :
    ReadsText (.unit digits n h :: pieces) := by
  -- The first half of a pair asks for the second right after it, and a second half alone is a
  -- fault.
  by_cases hl : isLeading n = true
  · cases pieces with
    | nil =>
      exact readsText_unpaired h hl (fun rest => fails_failOn .brokenPair ('"' :: rest))
        (by rintro _ _ _ _ ⟨⟩)
    | cons piece pieces =>
      cases piece with
      | plain c hc =>
        exact readsText_unpaired h hl (fun _ => secondHalf_of_ne hc.2.1 n _ ▸ fails_failOn _ _)
          (by rintro _ _ _ _ ⟨⟩)
      | escape letter value he =>
        exact readsText_unpaired h hl
          (fun _ => secondHalf_letter (ne_unitLetter he) n _ ▸ fails_failOn _ _)
          (by rintro _ _ _ _ ⟨⟩)
      | unit digits' m h' => exact readsText_pair h hl h' htail
  by_cases ht : isTrailing n = true
  · refine ⟨.error .loneSurrogate, fun _ _ => not_paired_of_trailing h ht, fun rest => ?_⟩
    rw [text_unit, if_pos ht]
    exact fails_failAt _ _
  · refine hpieces.cons (c := Char.ofNat n) (fun hp => ?_) fun rest => ?_
    · simp only [isLeading, Bool.and_eq_true, decide_eq_true_eq] at hl
      cases hp with
      | unit _ hp => exact hp
      | pair hn _ _ => omega
    · rw [text_unit, if_neg ht, if_neg hl]

end

/-- A string is read alike whatever follows it. -/
theorem readsText (pieces : List Piece) : ReadsText pieces := by
  -- The second half of a pair is read with the first, so the induction is two parts deep.
  suffices h : ReadsText pieces ∧ ReadsText pieces.tail from h.1
  induction pieces with
  | nil =>
    have hnil : ReadsText [] := ⟨.ok [], by simp, fun rest => text_quote rest⟩
    exact ⟨hnil, hnil⟩
  | cons piece pieces ih =>
    obtain ⟨hpieces, htail⟩ := ih
    refine ⟨?_, hpieces⟩
    cases piece with
    | plain c h =>
      exact hpieces.cons (fun hp => by cases hp; assumption) fun _ => text_plain h _
    | escape letter value h =>
      refine hpieces.cons (c := value) (fun hp => by cases hp; assumption) fun rest => ?_
      change text ('\\' :: letter :: (quotedChars pieces ++ '"' :: rest)) = _
      rw [text_backslash, escape, simpleEscape?_of_mem h]
    | unit digits n h => exact readsText_unit h hpieces htail

/-! ### Strings that are read over -/

/-- A backslash is read over with the escape after it. -/
theorem skipText_backslash {cs : List Char} (h : skipEscape cs = .ok ((), rest)) :
    skipText ('\\' :: cs) = skipText rest := by
  rw [skipText, if_neg (by decide), if_pos (by decide)]
  split <;> rename_i heq <;> rw [h] at heq <;> cases heq
  rfl

/-- An escape with a letter is read over. -/
theorem skipEscape_letter {letter value : Char} (h : (letter, value) ∈ escapeLetters)
    (rest : List Char) : skipEscape (letter :: rest) = .ok ((), rest) := by
  rw [skipEscape, simpleEscape?_of_mem h]
  rfl

/-- An escape with the digits of a code unit is read over. -/
theorem skipEscape_unit {digits : List Char} {n : Nat} (h : CodeUnit digits n) (rest : List Char) :
    skipEscape ('u' :: (digits ++ rest)) = .ok ((), rest) := by
  rw [skipEscape, if_neg (by decide), if_pos (by decide), codeUnit_append h]

/-- A plain character is read over. -/
theorem skipText_plain {c : Char} (h : Plain c) (rest : List Char) :
    skipText (c :: rest) = skipText rest := by
  rw [skipText, if_neg (by simp [h.1]), if_neg (by simp [h.2.1]), if_neg (Nat.not_lt.2 h.2.2)]

/-- A string is read over up to what follows it. -/
theorem skipText_append (pieces : List Piece) (rest : List Char) :
    skipText (quotedChars pieces ++ '"' :: rest) = .ok ((), rest) := by
  induction pieces with
  | nil =>
    change skipText ('"' :: rest) = _
    rw [skipText, if_pos (by decide)]
  | cons piece pieces ih =>
    rw [quotedChars_cons, ← ih]
    cases piece with
    | plain c h => exact skipText_plain h _
    | escape letter value h => exact skipText_backslash (skipEscape_letter h _)
    | unit digits n h => exact skipText_backslash (skipEscape_unit h _)

end

/-! ## Tokens -/

/-- A word is read where it stands. -/
theorem word_append (letters rest : List Char) :
    word letters (letters ++ rest) = .ok ((), rest) := by
  induction letters with
  | nil => rfl
  | cons l letters ih => rw [List.cons_append, word, if_pos (beq_self_eq_true l), ih]

/-- The kind of a token without the places of its faults. -/
def Kind.placeless : Kind → Kind
  | .worthless quoted fault => .worthless quoted ⟨fault.cause, .start⟩
  | .broken quoted strict lenient =>
    .broken quoted ⟨strict.cause, .start⟩ ⟨lenient.cause, .start⟩
  | kind => kind

/-- The kind of the token of a literal that has a value, or none for some cause. -/
def Kind.ofLiteral (quoted : Bool) : Except Cause Scalar → Kind
  | .ok value => .scalar value
  | .error cause => .worthless quoted ⟨cause, .start⟩

/-- A literal that is one token wherever it stands, with a value or without one for some cause. -/
def Literal.IsRead (l : Literal) (quoted : Bool) (v : Except Cause Scalar) : Prop :=
  ∃ c tail, l.chars = c :: tail ∧ Token.isBlank c = false ∧ ∀ p rest, Delimits rest →
    ∃ k, Token.lexeme p c (tail ++ rest) = (k, rest) ∧ k.placeless = Kind.ofLiteral quoted v

/-- A literal whose strict reading is known, and which is read over, is one token. -/
theorem Token.literal_of_reads {α : Type} {v : Except Cause α} {rest : List Char}
    {strict : Reading α} {lenient : Reading Unit} (hstrict : Reads v rest strict)
    (hlenient : lenient = .ok ((), rest)) (p : Position) (cs : List Char) (quoted : Bool)
    (value : α → Scalar) :
    ∃ k, literal p cs quoted value strict lenient = (k, rest) ∧
      k.placeless = Kind.ofLiteral quoted (v.map value) := by
  subst hlenient
  cases v with
  | ok a =>
    obtain rfl : strict = _ := hstrict
    exact ⟨_, rfl, rfl⟩
  | error cause =>
    obtain ⟨f, rfl, rfl⟩ := hstrict
    exact ⟨_, rfl, rfl⟩

/-- The word of a value is the token of that value. -/
theorem Token.wordLiteral_append (p : Position) (letters rest : List Char) (value : Scalar) :
    wordLiteral p (letters ++ rest) letters value = (.scalar value, rest) := by
  simp only [wordLiteral, literal, word_append]

/-- A digit starts a number. -/
theorem Token.lexeme_digit {c : Char} (h : c.isDigit = true) (p : Position) (rest : List Char) :
    lexeme p c rest =
      literal p (c :: rest) false .number (number false (c :: rest)) (skipNumber (c :: rest)) := by
  unfold lexeme
  split
  iterate 11 exact absurd h (by decide)
  rw [if_pos h]

/-- Digits are no blanks. -/
theorem not_isBlank_of_isDigit {c : Char} (h : c.isDigit = true) : Token.isBlank c = false := by
  simp only [Token.isBlank, Bool.or_eq_false_iff, beq_eq_false_iff_ne]
  refine ⟨⟨⟨?_, ?_⟩, ?_⟩, ?_⟩ <;> rintro rfl <;> exact absurd h (by decide)

namespace Literal

theorem isRead_null : null.IsRead false (.ok .null) :=
  ⟨'n', ['u', 'l', 'l'], rfl, rfl, fun _ _ _ => ⟨_, Token.wordLiteral_append _ _ _ _, rfl⟩⟩

/-- The words for truth values are one token each. -/
theorem isRead_bool : ∀ b, (bool b).IsRead false (.ok (.bool b))
  | true =>
    ⟨'t', ['r', 'u', 'e'], rfl, rfl, fun _ _ _ => ⟨_, Token.wordLiteral_append _ _ _ _, rfl⟩⟩
  | false =>
    ⟨'f', ['a', 'l', 's', 'e'], rfl, rfl, fun _ _ _ => ⟨_, Token.wordLiteral_append _ _ _ _, rfl⟩⟩

/-- The only numbers without a value are those that are out of range. -/
theorem isRead_number (n : WrittenNumber) :
    ∃ v : Except Cause Number, (∀ cause, v = .error cause → cause = .hugeNumber) ∧
      (number n).IsRead false (v.map .number) := by
  obtain ⟨v, hcause, hreads⟩ := n.readsNumber_number n.negative
  refine ⟨v, hcause, ?_⟩
  cases hn : n.negative with
  | true =>
    rw [hn] at hreads
    refine ⟨'-', n.whole ++ n.afterWhole, by simp [chars, WrittenNumber.chars, hn], rfl,
      fun p rest hrest => ?_⟩
    exact Token.literal_of_reads (hreads rest hrest) (n.skipNumber_append hrest) _ _ _ _
  | false =>
    rw [hn] at hreads
    obtain ⟨c, ds, hw, hc, -⟩ := n.whole_digits.exists_cons
    refine ⟨c, ds ++ n.afterWhole, by simp [chars, WrittenNumber.chars, hn, hw],
      not_isBlank_of_isDigit hc, fun p rest hrest => ?_⟩
    have hwhole : c :: (ds ++ n.afterWhole ++ rest) = n.whole ++ n.afterWhole ++ rest := by
      rw [hw]
      rfl
    rw [Token.lexeme_digit hc, hwhole]
    exact Token.literal_of_reads (hreads rest hrest) (n.skipNumber_append hrest) _ _ _ _

/-- A string that is read alike whatever follows it is one token. -/
theorem isRead_string_of_reads {pieces : List Piece} {v : Except Cause (List Char)}
    (h : ∀ rest, Reads v rest (text (quotedChars pieces ++ '"' :: rest))) :
    (string pieces).IsRead true (v.map fun cs => .text (String.ofList cs)) := by
  refine ⟨'"', quotedChars pieces ++ ['"'], rfl, rfl, fun p rest _ => ?_⟩
  rw [List.append_assoc]
  exact Token.literal_of_reads (h rest) (skipText_append pieces rest) _ _ _ _

/-- The only strings without a value are those with half of a surrogate pair. -/
theorem isRead_string (pieces : List Piece) :
    ∃ v : Except Cause (List Char), (∀ cause, v = .error cause → ¬ Paired pieces) ∧
      (string pieces).IsRead true (v.map fun cs => .text (String.ofList cs)) := by
  obtain ⟨v, hv, hreads⟩ := readsText pieces
  exact ⟨v, hv, isRead_string_of_reads hreads⟩

/-- The kind of token that a literal is on its own. -/
def kind (l : Literal) : Kind :=
  match l.chars with
  | [] => .stray
  | c :: tail => (Token.lexeme .start c tail).1.placeless

/-- The kind of a literal on its own is told by what it is read as. -/
theorem IsRead.kind_eq {l : Literal} {quoted : Bool} {v : Except Cause Scalar}
    (h : l.IsRead quoted v) : l.kind = Kind.ofLiteral quoted v := by
  obtain ⟨c, tail, hl, -, hlexeme⟩ := h
  obtain ⟨k, hk, hkind⟩ := hlexeme .start [] delimits_nil
  rw [List.append_nil] at hk
  rw [kind, hl, ← hkind]
  change (Token.lexeme .start c tail).1.placeless = _
  rw [hk]

/-- Every literal is one token, with a value or without. -/
theorem exists_isRead (l : Literal) : ∃ quoted v, l.IsRead quoted v := by
  cases l with
  | null => exact ⟨_, _, isRead_null⟩
  | bool b => exact ⟨_, _, isRead_bool b⟩
  | number n =>
    obtain ⟨v, -, h⟩ := isRead_number n
    exact ⟨_, _, h⟩
  | string pieces =>
    obtain ⟨v, -, h⟩ := isRead_string pieces
    exact ⟨_, _, h⟩

end Literal

end Stencil.Json
