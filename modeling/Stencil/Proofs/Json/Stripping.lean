import Stencil.Proofs.Json.Grammar

/-!
# Comments and trailing commas are all that goes

A lenient text of a document becomes a strict text of it: the symbols stay as they are, apart from
extra commas, and the gaps between them become blanks. What looks like a comment in a string, or
like a comma before a closing bracket, is passed over with the string. A strict text stays as it is.
-/

namespace Stencil.Json

/-! ## The symbols of a document -/

namespace Tree

/-- A document starts with no closing bracket. -/
theorem exists_symbols_eq_cons (lenient : Bool) (d : Tree) :
    ∃ s rest, d.symbols lenient = s :: rest ∧ s.closes = false := by
  cases d with
  | literal l => exact ⟨_, _, symbols.eq_1 lenient l, rfl⟩
  | list items extra => exact ⟨_, _, symbols.eq_2 lenient items extra, rfl⟩
  | table fields extra => exact ⟨_, _, symbols.eq_3 lenient fields extra, rfl⟩

end Tree

/-- Symbols that may follow a value. -/
def Following (rest : List Symbol) : Prop :=
  Fitting rest ∧ ∀ s ∈ rest.head?, s.isLiteral = false

/-- A symbol that is no literal may follow a value. -/
theorem Following.cons {s : Symbol} {rest : List Symbol} (h : Fitting (s :: rest))
    (hs : s.isLiteral = false) : Following (s :: rest) :=
  ⟨h, fun _ hs' => Option.some.inj hs' ▸ hs⟩

/-- An extra comma and a closing bracket may follow a value. -/
theorem following_extra (lenient extra isEmpty : Bool) {s : Symbol} {rest : List Symbol}
    (h : Fitting (s :: rest)) (hs : s.closes = true) :
    Following (Tree.extraSymbols lenient extra isEmpty ++ s :: rest) := by
  have hliteral : s.isLiteral = false := by
    cases s <;> first | rfl | cases hs
  unfold Tree.extraSymbols
  split
  · exact Following.cons ⟨⟨s, rfl, hs⟩, h⟩ rfl
  · exact Following.cons h hliteral

/-- A comma and the symbols of a document may follow a value. -/
theorem fitting_comma (lenient : Bool) (d : Tree) {rest : List Symbol}
    (h : Fitting (d.symbols lenient ++ rest)) :
    Following (.comma :: (d.symbols lenient ++ rest)) := by
  obtain ⟨s, rest', hd, hs⟩ := d.exists_symbols_eq_cons lenient
  exact Following.cons ⟨⟨s, by rw [hd]; rfl, hs⟩, h⟩ rfl

namespace Tree

mutual

/-- The symbols of a document fit where their rest may follow a value. -/
theorem fitting_symbols (lenient : Bool) :
    ∀ (d : Tree) (rest : List Symbol), Following rest → Fitting (d.symbols lenient ++ rest)
  | literal l, rest, h => by
    rw [symbols]
    exact ⟨h.2, h.1⟩
  | list items extra, rest, h => by
    rw [symbols]
    simp only [List.cons_append, List.append_assoc, List.nil_append]
    exact ⟨trivial, fitting_itemSymbols lenient items _
      (following_extra _ _ _ ⟨trivial, h.1⟩ rfl)⟩
  | table fields extra, rest, h => by
    rw [symbols]
    simp only [List.cons_append, List.append_assoc, List.nil_append]
    exact ⟨trivial, fitting_fieldSymbols lenient fields _
      (following_extra _ _ _ ⟨trivial, h.1⟩ rfl)⟩

/-- The symbols of items fit where their rest may follow a value. -/
theorem fitting_itemSymbols (lenient : Bool) :
    ∀ (items : List Tree) (rest : List Symbol), Following rest →
      Fitting (itemSymbols lenient items ++ rest)
  | [], _, h => h.1
  | d :: items, rest, h => by
    rw [itemSymbols, List.append_assoc]
    exact fitting_symbols lenient d _ (following_moreItems lenient items rest h)

/-- The symbols of further items may follow a value where their rest may. -/
theorem following_moreItems (lenient : Bool) :
    ∀ (items : List Tree) (rest : List Symbol), Following rest →
      Following (moreItems lenient items ++ rest)
  | [], _, h => h
  | d :: items, rest, h => by
    rw [moreItems, List.cons_append, List.cons_append, List.append_assoc]
    exact fitting_comma lenient d
      (fitting_symbols lenient d _ (following_moreItems lenient items rest h))

/-- The symbols of fields fit where their rest may follow a value. -/
theorem fitting_fieldSymbols (lenient : Bool) :
    ∀ (fields : List (List Piece × Tree)) (rest : List Symbol), Following rest →
      Fitting (fieldSymbols lenient fields ++ rest)
  | [], _, h => h.1
  | (name, d) :: fields, rest, h => by
    rw [fieldSymbols]
    simp only [List.cons_append, List.append_assoc]
    have hd := fitting_symbols lenient d _ (following_moreFields lenient fields rest h)
    exact ⟨by rintro _ ⟨⟩; rfl, trivial, hd⟩

/-- The symbols of further fields may follow a value where their rest may. -/
theorem following_moreFields (lenient : Bool) :
    ∀ (fields : List (List Piece × Tree)) (rest : List Symbol), Following rest →
      Following (moreFields lenient fields ++ rest)
  | [], _, h => h
  | (name, d) :: fields, rest, h => by
    rw [moreFields]
    simp only [List.cons_append, List.append_assoc]
    have hd := fitting_symbols lenient d _ (following_moreFields lenient fields rest h)
    exact Following.cons ⟨⟨_, rfl, rfl⟩, by rintro _ ⟨⟩; rfl, trivial, hd⟩ rfl

end

theorem extraSymbols_strict (extra isEmpty : Bool) : extraSymbols false extra isEmpty = [] := rfl

/-- Without what is not strict, no extra comma is left. -/
theorem filter_extraSymbols (extra isEmpty : Bool) :
    (extraSymbols true extra isEmpty).filter Symbol.isStrict =
      extraSymbols false extra isEmpty := by
  cases extra <;> cases isEmpty <;> rfl

mutual

/-- A strict text has all the symbols of a lenient one but the extra commas. -/
theorem filter_symbols :
    ∀ d : Tree, (d.symbols true).filter Symbol.isStrict = d.symbols false
  | literal l => rfl
  | list items extra => by
    simp only [symbols, List.filter_append, List.filter_cons, filter_itemSymbols items,
      filter_extraSymbols]
    rfl
  | table fields extra => by
    simp only [symbols, List.filter_append, List.filter_cons, filter_fieldSymbols fields,
      filter_extraSymbols]
    rfl

/-- Without what is not strict, the symbols of items are those of a strict document. -/
theorem filter_itemSymbols :
    ∀ items : List Tree, (itemSymbols true items).filter Symbol.isStrict = itemSymbols false items
  | [] => rfl
  | d :: items => by
    simp only [itemSymbols, List.filter_append, filter_symbols d, filter_moreItems items]

/-- Without what is not strict, the symbols of further items are those of a strict document. -/
theorem filter_moreItems :
    ∀ items : List Tree, (moreItems true items).filter Symbol.isStrict = moreItems false items
  | [] => rfl
  | d :: items => by
    simp only [moreItems, List.filter_append, List.filter_cons, filter_symbols d,
      filter_moreItems items]
    rfl

/-- Without what is not strict, the symbols of fields are those of a strict document. -/
theorem filter_fieldSymbols :
    ∀ fields : List (List Piece × Tree),
      (fieldSymbols true fields).filter Symbol.isStrict = fieldSymbols false fields
  | [] => rfl
  | (name, d) :: fields => by
    simp only [fieldSymbols, List.filter_append, List.filter_cons, filter_symbols d,
      filter_moreFields fields]
    rfl

/-- Without what is not strict, the symbols of further fields are those of a strict document. -/
theorem filter_moreFields :
    ∀ fields : List (List Piece × Tree),
      (moreFields true fields).filter Symbol.isStrict = moreFields false fields
  | [] => rfl
  | (name, d) :: fields => by
    simp only [moreFields, List.filter_append, List.filter_cons, filter_symbols d,
      filter_moreFields fields]
    rfl

end

end Tree

/-! ## Gaps -/

section

variable {g body rest : List Char}

/-- A line comment goes on until its line ends. -/
theorem afterLine_append (h : '\n' ∉ body) (rest : List Char) :
    afterLine (body ++ rest) = afterLine rest := by
  rw [afterLine, List.dropWhile_append_of_pos]
  · rfl
  · rintro c hc
    simp only [bne_iff_ne]
    rintro rfl
    exact h hc

theorem not_infix_of_cons {c : Char} (h : ¬ ['*', '/'] <:+: c :: body) : ¬ ['*', '/'] <:+: body :=
  fun hb => h (hb.trans (List.suffix_cons c body).isInfix)

/-- The end of a block comment is not seen before it is there. -/
theorem ne_close {c : Char} (h : ¬ ['*', '/'] <:+: c :: body) (rest rest' : List Char)
    (hc : c = '*') : body ++ '*' :: '/' :: rest ≠ '/' :: rest' := by
  subst hc
  cases body with
  | nil => nofun
  | cons d body =>
    intro heq
    obtain ⟨rfl, -⟩ := List.cons.inj heq
    exact h ⟨[], body, rfl⟩

/-- A block comment ends where it is first closed. -/
theorem afterBlock_append (h : ¬ ['*', '/'] <:+: body) (rest : List Char) :
    afterBlock (body ++ '*' :: '/' :: rest) = rest := by
  induction body with
  | nil => rfl
  | cons c body ih =>
    rw [List.cons_append, afterBlock, ih (not_infix_of_cons h)]
    exact ne_close h rest

/-- The line ends of a block comment are those before it is closed. -/
theorem blockLines_append (h : ¬ ['*', '/'] <:+: body) (rest : List Char) :
    blockLines (body ++ '*' :: '/' :: rest) = body.filter (· == '\n') := by
  induction body with
  | nil => rfl
  | cons c body ih =>
    rw [List.cons_append, blockLines, ih (not_infix_of_cons h), List.filter_cons]
    · by_cases hc : c = '\n'
      · rw [hc]
      · rw [if_neg (by simpa using hc), if_neg (by simpa using hc)]
    · exact ne_close h rest

/-! ## What comes after a comma -/

/-- Where no comment may start, the next character that is no blank decides whether a bracket closes
next. -/
theorem closesNext_cons {c : Char} (h : c ≠ '/') (rest : List Char) :
    closesNext (c :: rest) = if Text.isBlank c then closesNext rest else c == '}' || c == ']' := by
  conv_lhs => unfold closesNext
  split
  · cases ‹c :: rest = []›
  · exact absurd (List.cons.inj ‹_›).1 h
  · exact absurd (List.cons.inj ‹_›).1 h
  · obtain ⟨rfl, rfl⟩ := List.cons.inj ‹_›
    rfl

/-- Whether a bracket closes next is seen through a line comment. -/
theorem closesNext_line (rest : List Char) :
    closesNext ('/' :: '/' :: rest) = closesNext (afterLine rest) := by
  conv_lhs => unfold closesNext
  rfl

/-- Whether a bracket closes next is seen through a block comment. -/
theorem closesNext_block (rest : List Char) :
    closesNext ('/' :: '*' :: rest) = closesNext (afterBlock rest) := by
  conv_lhs => unfold closesNext
  rfl

theorem closesNext_nil : closesNext [] = false := closesNext.eq_1

/-- A blank between tokens is a blank of texts. -/
theorem isBlank_of_isBlank {c : Char} (h : Token.isBlank c = true) : Text.isBlank c = true := by
  simp only [Token.isBlank, Bool.or_eq_true, beq_iff_eq] at h
  rcases h with ((rfl | rfl) | rfl) | rfl <;> rfl

/-- A gap before the next symbol is passed over in search of a closing bracket. -/
theorem closesNext_gap {atEnd : Bool} (h : Gap atEnd g) (hend : atEnd = false) (rest : List Char) :
    closesNext (g ++ rest) = closesNext rest := by
  induction h with
  | nil => rfl
  | blank hc _ ih =>
    rw [List.cons_append, closesNext_cons, if_pos (isBlank_of_isBlank hc), ih hend]
    rintro rfl
    cases hc
  | line hbody _ ih =>
    rw [List.append_assoc, List.cons_append, List.cons_append, closesNext_line, List.cons_append,
      afterLine_append hbody, ← ih hend]
    exact closesNext_cons (by decide) _
  | lastLine => cases hend
  | block hbody _ ih =>
    rw [List.append_assoc, List.cons_append, List.cons_append, closesNext_block, List.cons_append,
      List.cons_append, afterBlock_append hbody, ih hend]

/-! ## What is left of a gap -/

/-- A character that is kept wherever it stands outside of strings. -/
def Kept (c : Char) : Prop := c ≠ '/' ∧ c ≠ '"' ∧ c ≠ ','

instance (c : Char) : Decidable (Kept c) := inferInstanceAs (Decidable (_ ∧ _))

/-- A character that is kept is left by stripping. -/
theorem stripChars_cons {c : Char} (h : Kept c) (rest : List Char) :
    stripChars (c :: rest) = c :: stripChars rest := by
  obtain ⟨hslash, hquote, hcomma⟩ := h
  rw [stripChars, if_neg (by simpa using hquote), if_neg (by simp [hcomma])] <;>
    exact fun _ hc => absurd hc hslash

theorem stripChars_nil : stripChars [] = [] := stripChars.eq_1

theorem stripChars_line (rest : List Char) :
    stripChars ('/' :: '/' :: rest) = stripChars (afterLine rest) := stripChars.eq_2 rest

/-- A block comment is stripped but for its line ends, and a blank stands for it. -/
theorem stripChars_block (rest : List Char) :
    stripChars ('/' :: '*' :: rest) =
      blockLines rest ++ ' ' :: stripChars (afterBlock rest) := stripChars.eq_3 rest

/-- A string is left by stripping. -/
theorem stripChars_quote (rest : List Char) :
    stripChars ('"' :: rest) = '"' :: (literalBody rest ++ stripChars (afterLiteral rest)) := by
  rw [stripChars, if_pos (by decide)]
  · rfl
  iterate 2 exact fun _ hc => absurd hc (by decide)

/-- A comma is stripped if a bracket closes next. -/
theorem stripChars_comma (rest : List Char) :
    stripChars (',' :: rest) =
      if closesNext rest then stripChars rest else ',' :: stripChars rest := by
  rw [stripChars, if_neg (by decide)]
  · rfl
  iterate 2 exact fun _ hc => absurd hc (by decide)

/-- Characters that are kept are left by stripping. -/
theorem stripChars_append (h : ∀ c ∈ g, Kept c) (rest : List Char) :
    stripChars (g ++ rest) = g ++ stripChars rest := by
  induction g with
  | nil => rfl
  | cons c g ih =>
    rw [List.cons_append, stripChars_cons (h c List.mem_cons_self),
      ih fun d hd => h d (List.mem_cons_of_mem _ hd)]
    rfl

theorem kept_of_isBlank {c : Char} (h : Token.isBlank c = true) : Kept c := by
  refine ⟨?_, ?_, ?_⟩ <;> rintro rfl <;> cases h

/-- Blanks are left of a gap. -/
theorem exists_stripChars_gap {atEnd : Bool} (h : Gap atEnd g) :
    ∃ g', Blank g' ∧ ∀ rest, (atEnd = true → rest = []) →
      stripChars (g ++ rest) = g' ++ stripChars rest := by
  -- Of a line comment the end of its line is left, and of a block comment its line ends and a
  -- blank.
  induction h with
  | nil => exact ⟨[], nofun, fun _ _ => rfl⟩
  | @blank atEnd c g hc _ ih =>
    obtain ⟨g', hblank, hstrip⟩ := ih
    refine ⟨c :: g', List.forall_mem_cons.2 ⟨hc, hblank⟩, fun rest hrest => ?_⟩
    rw [List.cons_append, stripChars_cons (kept_of_isBlank hc), hstrip rest hrest]
    rfl
  | @line atEnd body g hbody _ ih =>
    obtain ⟨g', hblank, hstrip⟩ := ih
    refine ⟨'\n' :: g', List.forall_mem_cons.2 ⟨rfl, hblank⟩, fun rest hrest => ?_⟩
    rw [List.append_assoc, List.cons_append, List.cons_append, stripChars, List.cons_append,
      afterLine_append hbody, List.cons_append, ← hstrip rest hrest]
    exact stripChars_cons (kept_of_isBlank rfl) _
  | @lastLine body hbody =>
    refine ⟨[], nofun, fun rest hrest => ?_⟩
    rw [hrest rfl, List.cons_append, List.cons_append]
    exact (stripChars_line _).trans (congrArg stripChars (afterLine_append hbody []))
  | @block atEnd body g hbody _ ih =>
    obtain ⟨g', hblank, hstrip⟩ := ih
    refine ⟨body.filter (· == '\n') ++ ' ' :: g', ?_, fun rest hrest => ?_⟩
    · refine List.forall_mem_append.2 ⟨fun c hc => ?_, List.forall_mem_cons.2 ⟨rfl, hblank⟩⟩
      rw [eq_of_beq (List.mem_filter.1 hc).2]
      rfl
    · rw [List.append_assoc, List.cons_append, List.cons_append, stripChars, List.cons_append,
        List.cons_append, afterBlock_append hbody, blockLines_append hbody, hstrip rest hrest,
        List.append_assoc, List.cons_append]

/-! ## What is left of a symbol -/

theorem kept_of_isDigit {c : Char} (h : c.isDigit = true) : Kept c := by
  refine ⟨?_, ?_, ?_⟩ <;> rintro rfl <;> exact absurd h (by decide)

/-- The characters of a number are digits, signs, the point and the letters of a power of ten. -/
theorem WrittenNumber.forall_mem_chars (n : WrittenNumber) {P : Char → Prop}
    (hdigit : ∀ c, c.isDigit = true → P c) (hother : ∀ c ∈ ['-', '+', '.', 'e', 'E'], P c) :
    ∀ c ∈ n.chars, P c := by
  have hdigits {ds : List Char} (h : Digits ds) (c : Char) (hc : c ∈ ds) : P c :=
    hdigit c (h.2 c hc)
  have hpower : ∀ c ∈ n.powerChars, P c := by
    unfold powerChars
    cases hp : n.power with
    | none => exact nofun
    | some p =>
      obtain ⟨letter, sign, ds⟩ := p
      refine List.forall_mem_cons.2 ⟨hother _ ?_, List.forall_mem_append.2 ⟨?_, ?_⟩⟩
      · rcases n.power_letter _ hp with hl | hl <;> obtain rfl : letter = _ := hl <;> decide
      · rcases n.power_sign _ hp with hs | hs | hs <;> obtain rfl : sign = _ := hs <;>
          simp [hother]
      · exact hdigits (n.power_digits _ hp)
  have hafter : ∀ c ∈ n.afterWhole, P c := by
    unfold afterWhole
    cases hf : n.fraction with
    | none => exact hpower
    | some ds =>
      have hds := hdigits (n.fraction_digits ds hf)
      exact List.forall_mem_cons.2
        ⟨hother _ (by decide), List.forall_mem_append.2 ⟨hds, hpower⟩⟩
  have hall := List.forall_mem_append.2 ⟨hdigits n.whole_digits, hafter⟩
  unfold chars
  split
  · exact List.forall_mem_cons.2 ⟨hother _ (by decide), hall⟩
  · exact hall

/-! ### Strings -/

/-- Characters of a string after which it goes on. -/
def Inside (cs : List Char) : Prop :=
  ∀ rest, literalBody (cs ++ rest) = cs ++ literalBody rest ∧
    afterLiteral (cs ++ rest) = afterLiteral rest

/-- Characters inside of a string may follow each other. -/
theorem Inside.append {cs ds : List Char} (hcs : Inside cs) (hds : Inside ds) :
    Inside (cs ++ ds) := fun rest => by
  rw [List.append_assoc, (hcs _).1, (hcs _).2, (hds rest).1, (hds rest).2, List.append_assoc]
  exact ⟨rfl, rfl⟩

/-- A plain character is inside of a string. -/
theorem inside_plain {c : Char} (h : c ≠ '"' ∧ c ≠ '\\') : Inside [c] := fun rest => by
  rw [List.singleton_append, literalBody, afterLiteral, if_neg (by simp [h.1]),
    if_neg (by simp [h.1])]
  · exact ⟨rfl, rfl⟩
  iterate 2 exact fun _ _ hc => absurd hc h.2

theorem inside_escape (c : Char) : Inside ['\\', c] := fun _ => ⟨rfl, rfl⟩

/-- A digit neither ends a string nor starts an escape. -/
theorem plain_of_isDigit {c : Char} {v : Nat} (h : Text.IsDigit 16 c v) : c ≠ '"' ∧ c ≠ '\\' := by
  have hv := Text.hexValue?_eq_some_iff.2 h
  constructor <;> rintro rfl <;> cases hv

/-- The digits of a code unit are inside of a string. -/
theorem inside_digits {digits : List Char} {n : Nat} (h : Text.Numeral 16 digits n) :
    Inside digits := by
  obtain ⟨values, hvalues, -⟩ := h
  induction hvalues with
  | nil => exact fun _ => ⟨rfl, rfl⟩
  | cons hd _ ih => exact (inside_plain (plain_of_isDigit hd)).append ih

/-- The characters of a part of a string are inside of it. -/
theorem Piece.inside_chars : ∀ piece : Piece, Inside piece.chars
  | plain _ h => inside_plain ⟨h.1, h.2.1⟩
  | escape letter _ _ => inside_escape letter
  | unit _ _ h => (inside_escape 'u').append (inside_digits h.2)

/-- The characters of the parts of a string are inside of it. -/
theorem inside_quotedChars (pieces : List Piece) : Inside (quotedChars pieces) := by
  induction pieces with
  | nil => exact fun _ => ⟨rfl, rfl⟩
  | cons piece pieces ih => exact piece.inside_chars.append ih

/-- A string is kept up to its closing quote, whatever is in it. -/
theorem stripChars_string (pieces : List Piece) (rest : List Char) :
    stripChars ('"' :: (quotedChars pieces ++ '"' :: rest)) =
      '"' :: (quotedChars pieces ++ '"' :: stripChars rest) := by
  obtain ⟨hbody, hafter⟩ := inside_quotedChars pieces ('"' :: rest)
  rw [stripChars_quote, hbody, hafter, List.append_assoc]
  rfl

/-- A literal is left by stripping. -/
theorem Literal.stripChars_append (l : Literal) (rest : List Char) :
    stripChars (l.chars ++ rest) = l.chars ++ stripChars rest := by
  cases l with
  | null => exact Json.stripChars_append (by simp [Kept, chars]) rest
  | bool b => cases b <;> exact Json.stripChars_append (by simp [Kept, chars]) rest
  | number n =>
    have hkept := n.forall_mem_chars (fun _ => kept_of_isDigit) (by simp [Kept])
    exact Json.stripChars_append hkept rest
  | string pieces =>
    simp only [chars, List.cons_append, List.append_assoc, List.nil_append]
    exact stripChars_string pieces rest

end

/-! ## Whole texts -/

section

variable {rest : List Symbol} {g cs : List Char}

/-- A character that is neither a blank nor a bracket that closes, and starts no comment. -/
def Opens (c : Char) : Prop := c ≠ '/' ∧ Text.isBlank c = false ∧ c ≠ '}' ∧ c ≠ ']'

instance (c : Char) : Decidable (Opens c) := inferInstanceAs (Decidable (_ ∧ _))

/-- A character that opens something is no closing bracket. -/
theorem Opens.closesNext {c : Char} (h : Opens c) (cs : List Char) :
    closesNext (c :: cs) = false := by
  obtain ⟨hslash, hblank, htable, hlist⟩ := h
  rw [closesNext_cons hslash, hblank]
  simp [htable, hlist]

/-- A digit opens a literal. -/
theorem opens_of_isDigit {c : Char} (h : c.isDigit = true) : Opens c := by
  refine ⟨?_, ?_, ?_, ?_⟩
  · rintro rfl
    exact absurd h (by decide)
  · simp only [Char.isDigit, Bool.and_eq_true, decide_eq_true_eq, UInt32.le_iff_toNat_le] at h
    have hn : 48 ≤ c.toNat ∧ c.toNat ≤ 57 := h
    simp only [Text.isBlank, Bool.or_eq_false_iff, Bool.and_eq_false_iff, decide_eq_false_iff_not,
      beq_eq_false_iff_ne]
    omega
  · rintro rfl
    exact absurd h (by decide)
  · rintro rfl
    exact absurd h (by decide)

/-- No bracket closes next where a literal stands. -/
theorem Literal.closesNext (l : Literal) (cs : List Char) :
    closesNext (l.chars ++ cs) = false := by
  cases l with
  | null => exact Opens.closesNext (by decide) _
  | bool b => cases b <;> exact Opens.closesNext (by decide) _
  | string pieces => exact Opens.closesNext (by decide) _
  | number n =>
    obtain ⟨c, ds, hw, hc, -⟩ := n.whole_digits.exists_cons
    rw [chars, WrittenNumber.chars, hw]
    split
    · exact Opens.closesNext (by decide) _
    · exact (opens_of_isDigit hc).closesNext _

/-- A bracket closes next where a symbol stands if the symbol is one. -/
theorem Symbol.closesNext (s : Symbol) (cs : List Char) :
    closesNext (s.chars ++ cs) = s.closes := by
  cases s with
  | literal l => exact l.closesNext cs
  | closeTable => exact (closesNext_cons (by decide) _).trans rfl
  | closeList => exact (closesNext_cons (by decide) _).trans rfl
  | _ => exact Opens.closesNext (by decide) _

/-- Gaps of which blanks are left, and in which no closing bracket is found. -/
structure Vanishes (gap : (atEnd : Bool) → List Char → Prop) : Prop where
  strip {atEnd : Bool} {g : List Char} : gap atEnd g → ∃ g', Blank g' ∧
    ∀ rest, (atEnd = true → rest = []) → stripChars (g ++ rest) = g' ++ stripChars rest
  closesNext {g : List Char} : gap false g → ∀ rest, closesNext (g ++ rest) = closesNext rest

theorem Gap.vanishes : Vanishes Gap := ⟨exists_stripChars_gap, fun hg => closesNext_gap hg rfl⟩

variable {sep : (atEnd : Bool) → List Char → Prop}

/-- A closing bracket is found after a comma exactly if it is the next symbol. -/
theorem Spaced.closesNext {s : Symbol} (hsep : Vanishes sep) (h : Spaced sep (s :: rest) cs) :
    closesNext cs = s.closes := by
  cases h with
  | cons hg _ =>
    rw [List.append_assoc, hsep.closesNext hg]
    exact s.closesNext _

/-- A symbol is kept, unless it is an extra comma. -/
theorem stripChars_symbol {s : Symbol} (hsep : Vanishes sep) (hcs : Spaced sep rest cs)
    (hs : s.Admits rest.head?) :
    stripChars (s.chars ++ cs) =
      if s.isStrict then s.chars ++ stripChars cs else stripChars cs := by
  -- Both kinds of comma look the same; what follows tells which one it is.
  have hcomma (b : Bool) (hb : ∃ s ∈ rest.head?, s.closes = b) :
      stripChars (',' :: cs) = if b then stripChars cs else ',' :: stripChars cs := by
    obtain ⟨s, hs, rfl⟩ := hb
    obtain ⟨rest, rfl⟩ : ∃ rest', rest = s :: rest' := by
      cases rest with
      | nil => cases hs
      | cons _ rest => exact ⟨rest, by rw [Option.some.inj hs]⟩
    rw [stripChars_comma, hcs.closesNext hsep]
  cases s with
  | comma => exact hcomma false hs
  | extra => exact hcomma true hs
  | literal l => exact l.stripChars_append cs
  | _ => exact stripChars_cons (by decide) cs

/-- Blanks may be put before a text that spells symbols. -/
theorem Spaced.blanks (hg : Blank g) (h : Spaced (fun _ => Blank) rest cs) :
    Spaced (fun _ => Blank) rest (g ++ cs) := by
  cases h with
  | nil hg' => exact .nil (List.forall_mem_append.2 ⟨hg, hg'⟩)
  | cons hg' hrest =>
    rw [← List.append_assoc, ← List.append_assoc]
    exact .cons (List.forall_mem_append.2 ⟨hg, hg'⟩) hrest

/-- The strict symbols are left of a text, with blanks between them. -/
theorem Spaced.stripChars {symbols : List Symbol} (hsep : Vanishes sep)
    (h : Spaced sep symbols cs) (hfitting : Fitting symbols) :
    Spaced (fun _ => Blank) (symbols.filter Symbol.isStrict) (stripChars cs) := by
  induction h with
  | @nil g hg =>
    obtain ⟨g', hblank, hstrip⟩ := hsep.strip hg
    have hall := hstrip [] fun _ => rfl
    rw [List.append_nil] at hall
    rw [hall, stripChars_nil, List.append_nil]
    exact .nil hblank
  | @cons g s rest cs hg hrest ih =>
    obtain ⟨g', hblank, hstrip⟩ := hsep.strip hg
    have ih := ih hfitting.2
    rw [List.append_assoc, hstrip _ (fun h => absurd h Bool.false_ne_true),
      stripChars_symbol hsep hrest hfitting.1, List.filter_cons]
    split
    · rw [← List.append_assoc]
      exact .cons hblank ih
    · -- An extra comma goes, and the gap before it joins the one after it.
      exact ih.blanks hblank

/-- Blanks are a gap. -/
theorem Blank.gap {atEnd : Bool} (h : Blank g) : Gap atEnd g := by
  induction g with
  | nil => exact .nil
  | cons c g ih =>
    obtain ⟨hc, hg⟩ := List.forall_mem_cons.1 h
    exact .blank hc (ih hg)

/-- Symbols with blanks between them have gaps between them. -/
theorem Spaced.gaps (h : Spaced (fun _ => Blank) rest cs) : Spaced Gap rest cs := by
  induction h with
  | nil hg => exact .nil hg.gap
  | cons hg _ ih => exact .cons hg.gap ih

/-- A strict text is kept as it is. -/
theorem Spaced.stripChars_eq {symbols : List Symbol} (h : Spaced (fun _ => Blank) symbols cs)
    (hfitting : Fitting symbols) (hstrict : ∀ s ∈ symbols, s.isStrict = true) :
    Json.stripChars cs = cs := by
  induction h with
  | @nil g hg =>
    have hall := stripChars_append (fun c hc => kept_of_isBlank (hg c hc)) []
    rw [List.append_nil, stripChars_nil, List.append_nil] at hall
    exact hall
  | @cons g s rest cs hg hrest ih =>
    obtain ⟨hs, hstrict⟩ := List.forall_mem_cons.1 hstrict
    rw [List.append_assoc, stripChars_append fun c hc => kept_of_isBlank (hg c hc),
      stripChars_symbol Gap.vanishes hrest.gaps hfitting.1, if_pos hs, ih hfitting.2 hstrict]

end

namespace Tree

variable {d : Tree} {text : String}

/-- The symbols of a document fit. -/
theorem fitting (lenient : Bool) (d : Tree) : Fitting (d.symbols lenient) := by
  have h := d.fitting_symbols lenient [] ⟨trivial, nofun⟩
  rwa [List.append_nil] at h

/-- A lenient text of a document becomes a strict one. -/
theorem Lenient.stripComments (h : d.Lenient text) : d.Strict (stripComments text) := by
  have hstrip := Spaced.stripChars Gap.vanishes h (fitting true d)
  rwa [filter_symbols, ← String.toList_ofList (l := Json.stripChars text.toList)] at hstrip

/-- A strict text of a document stays as it is. -/
theorem Strict.stripComments_eq (h : d.Strict text) : Json.stripComments text = text := by
  have hstrict : ∀ s ∈ d.symbols false, s.isStrict = true := by
    rw [← filter_symbols]
    exact fun s hs => (List.mem_filter.1 hs).2
  rw [Json.stripComments, Spaced.stripChars_eq h (fitting false d) hstrict, String.ofList_toList]

end Tree

end Stencil.Json
