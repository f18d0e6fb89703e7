import Stencil.Proofs.Json.Literal
import Stencil.Proofs.Json.Tolerance

/-!
# What a text was before

A text of which a strict one is left, its comments and trailing commas removed, was a tolerated one.
What is left shows where symbols and gaps were. A word or a number that is left stood together in
the text: a comment leaves a blank or a line end behind it, unless it ends the text, and a comma
goes only where a blank or a closing bracket is left after it. A string that is left was a string.
-/

namespace Stencil.Json

section

variable {cs rest g : List Char} {symbols : List Symbol}

/-! ## The front of what is left -/

/-- A line comment ends with its line, or with the text. -/
theorem afterLine_cases (cs : List Char) :
    (∃ body rest, '\n' ∉ body ∧ cs = body ++ '\n' :: rest ∧ afterLine cs = '\n' :: rest) ∨
      ('\n' ∉ cs ∧ afterLine cs = []) := by
  induction cs with
  | nil => exact .inr ⟨List.not_mem_nil, rfl⟩
  | cons c cs ih =>
    by_cases hc : c = '\n'
    · exact .inl ⟨[], cs, List.not_mem_nil, by rw [hc]; rfl, by rw [hc]; rfl⟩
    · have hnot {body : List Char} (hbody : '\n' ∉ body) : '\n' ∉ c :: body := by
        simpa [Ne.symm hc] using hbody
      have hafter : afterLine (c :: cs) = afterLine cs := by simp [afterLine, hc]
      rcases ih with ⟨body, rest, hbody, heq, hrest⟩ | ⟨hbody, hrest⟩
      · exact .inl ⟨c :: body, rest, hnot hbody, by rw [heq]; rfl, by rw [hafter, hrest]⟩
      · exact .inr ⟨hnot hbody, by rw [hafter, hrest]⟩

/-- A blank opens nothing. -/
theorem not_opens_of_isBlank {c : Char} (h : Text.isBlank c = true) : ¬ Opens c := by
  rintro ⟨-, hblank, -⟩
  rw [h] at hblank
  cases hblank

theorem kept_of_not_opens {c : Char} (hslash : c ≠ '/') (h : ¬ Opens c) : Kept c := by
  refine ⟨hslash, ?_, ?_⟩ <;> rintro rfl <;> exact h (by decide)

/-- What is left of a block comment and of what follows it starts with a blank. -/
theorem exists_blockLines_append (cs rest : List Char) :
    ∃ c out, blockLines cs ++ ' ' :: rest = c :: out ∧ Token.isBlank c = true := by
  have hblank := blank_blockLines cs
  cases hlines : blockLines cs with
  | nil => exact ⟨' ', rest, rfl, rfl⟩
  | cons c lines =>
    rw [hlines] at hblank
    exact ⟨c, lines ++ ' ' :: rest, rfl, hblank c List.mem_cons_self⟩

/-- Where a closing bracket is found, a blank is left before it, or nothing is. -/
theorem exists_stripChars_of_closesNext (h : closesNext cs = true) :
    ∃ c out, stripChars cs = c :: out ∧ ¬ Opens c := by
  have hkept {c : Char} (hc : ¬ Opens c) (hslash : c ≠ '/') (rest : List Char) :
      ∃ c' out, stripChars (c :: rest) = c' :: out ∧ ¬ Opens c' :=
    ⟨c, _, stripChars_cons (kept_of_not_opens hslash hc) rest, hc⟩
  -- Either a gap stands before the bracket, of which a blank is left, or the bracket itself.
  fun_cases closesNext cs with
  | case1 =>
    rw [closesNext_nil] at h
    cases h
  | case2 rest =>
    rw [closesNext_line] at h
    rw [stripChars_line]
    rcases afterLine_cases rest with ⟨body, rest', -, -, hafter⟩ | ⟨-, hafter⟩
    · rw [hafter]
      exact hkept (not_opens_of_isBlank rfl) (by decide) rest'
    · rw [hafter, closesNext_nil] at h
      cases h
  | case3 rest =>
    obtain ⟨c, out, heq, hc⟩ := exists_blockLines_append rest (stripChars (afterBlock rest))
    exact ⟨c, out, by rw [stripChars_block, heq], not_opens_of_isBlank (isBlank_of_isBlank hc)⟩
  | case4 c rest _ _ hc =>
    refine hkept (not_opens_of_isBlank hc) ?_ rest
    rintro rfl
    cases hc
  | case5 c rest hline hblock hc =>
    rw [closesNext.eq_4 c rest hline hblock, if_neg hc, Bool.or_eq_true, beq_iff_eq,
      beq_iff_eq] at h
    rcases h with rfl | rfl <;> exact hkept (by decide) (by decide) rest

/-- A character that could not come from a gap, nor follow an extra comma, is the first one of the
text if it is the first one of what is left. -/
theorem exists_of_stripChars_eq_cons {c : Char} {out : List Char} (hkept : Kept c)
    (hopens : Opens c) (h : stripChars cs = c :: out) :
    ∃ rest, cs = c :: rest ∧ out = stripChars rest := by
  have hfront {c' : Char} {out' : List Char} (hc' : ¬ Opens c') : c' :: out' ≠ c :: out :=
    fun heq => hc' ((List.cons.inj heq).1 ▸ hopens)
  -- In every case but the last, what is left starts with a blank, a closing bracket or a quote.
  fun_cases stripChars cs with
  | case1 =>
    rw [stripChars_nil] at h
    cases h
  | case2 rest =>
    rw [stripChars_line] at h
    rcases afterLine_cases rest with ⟨body, rest', -, -, hafter⟩ | ⟨-, hafter⟩
    · rw [hafter, stripChars_cons (by decide)] at h
      exact absurd h (hfront (not_opens_of_isBlank rfl))
    · rw [hafter, stripChars_nil] at h
      cases h
  | case3 rest =>
    obtain ⟨c', out', heq, hc'⟩ := exists_blockLines_append rest (stripChars (afterBlock rest))
    rw [stripChars_block, heq] at h
    exact absurd h (hfront (not_opens_of_isBlank (isBlank_of_isBlank hc')))
  | case4 c' rest hline hblock hquote =>
    rw [stripChars.eq_4 c' rest hline hblock, if_pos hquote] at h
    exact absurd (List.cons.inj h).1.symm hkept.2.1
  | case5 c' rest hline hblock hquote hcomma =>
    obtain ⟨c'', out', heq, hc''⟩ :=
      exists_stripChars_of_closesNext (Bool.and_eq_true_iff.1 hcomma).2
    rw [stripChars.eq_4 c' rest hline hblock, if_neg hquote, if_pos hcomma, heq] at h
    exact absurd h (hfront hc'')
  | case6 c' rest hline hblock hquote hcomma =>
    rw [stripChars.eq_4 c' rest hline hblock, if_neg hquote, if_neg hcomma] at h
    obtain ⟨rfl, rfl⟩ := List.cons.inj h
    exact ⟨rest, rfl, rfl⟩

/-- Characters that could not come from gaps stand together in the text if they do in what is
left. -/
theorem exists_of_stripChars_eq_append {word out : List Char}
    (hword : ∀ c ∈ word, Kept c ∧ Opens c) (h : stripChars cs = word ++ out) :
    ∃ rest, cs = word ++ rest ∧ out = stripChars rest := by
  induction word generalizing cs with
  | nil => exact ⟨cs, rfl, h.symm⟩
  | cons c word ih =>
    obtain ⟨⟨hkept, hopens⟩, hword⟩ := List.forall_mem_cons.1 hword
    obtain ⟨rest, rfl, hrest⟩ := exists_of_stripChars_eq_cons hkept hopens h
    obtain ⟨rest', rfl, hout⟩ := ih hword hrest.symm
    exact ⟨rest', rfl, hout⟩

/-! ## Strict texts -/

/-- A symbol that is no string goes on with characters that could not come from a gap. -/
theorem Symbol.exists_chars (s : Symbol) : ∃ c tail, s.chars = c :: tail ∧
    Token.isBlank c = false ∧ ((∃ pieces, s = .literal (.string pieces)) ∨
      c ≠ '"' ∧ ∀ d ∈ tail, Kept d ∧ Opens d) := by
  cases s with
  | literal l =>
    cases l with
    | null => exact ⟨_, _, rfl, rfl, .inr (by simp [Kept, Opens, Text.isBlank])⟩
    | bool b =>
      cases b <;> exact ⟨_, _, rfl, rfl, .inr (by simp [Kept, Opens, Text.isBlank])⟩
    | string pieces => exact ⟨_, _, rfl, rfl, .inl ⟨pieces, rfl⟩⟩
    | number n =>
      obtain ⟨quoted, v, c, tail, hchars, hblank, -⟩ := (Literal.number n).exists_isRead
      have hall : ∀ d ∈ n.chars, Kept d ∧ Opens d :=
        n.forall_mem_chars (fun d hd => ⟨kept_of_isDigit hd, opens_of_isDigit hd⟩)
          (by simp [Kept, Opens, Text.isBlank])
      change n.chars = c :: tail at hchars
      rw [hchars] at hall
      obtain ⟨hc, htail⟩ := List.forall_mem_cons.1 hall
      exact ⟨c, tail, hchars, hblank, .inr ⟨hc.1.2.1, htail⟩⟩
  | _ => exact ⟨_, [], rfl, rfl, .inr ⟨by decide, List.forall_mem_nil _⟩⟩

/-- The empty text spells no symbols. -/
theorem Spaced.eq_nil (h : Spaced (fun _ => Blank) symbols []) : symbols = [] := by
  generalize hnil : [] = text at h
  cases h with
  | nil => rfl
  | @cons g s rest cs =>
    obtain ⟨c, tail, hchars, -⟩ := s.exists_chars
    rw [hchars] at hnil
    simp at hnil

/-- A text still spells its symbols without a blank at its front. -/
theorem Spaced.of_blank {c : Char} (hc : Token.isBlank c = true)
    (h : Spaced (fun _ => Blank) symbols (c :: cs)) : Spaced (fun _ => Blank) symbols cs := by
  generalize htext : c :: cs = text at h
  cases h with
  | nil hg =>
    subst htext
    exact .nil (List.forall_mem_cons.1 hg).2
  | @cons g s rest cs' hg hrest =>
    cases g with
    | nil =>
      obtain ⟨c', tail, hchars, hc', -⟩ := s.exists_chars
      rw [hchars] at htext
      obtain rfl := (List.cons.inj htext).1
      rw [hc] at hc'
      cases hc'
    | cons c' g =>
      rw [(List.cons.inj htext).2]
      exact .cons (List.forall_mem_cons.1 hg).2 hrest

/-- A text still spells its symbols without the blanks at its front. -/
theorem Spaced.of_blanks (hg : Blank g) (h : Spaced (fun _ => Blank) symbols (g ++ cs)) :
    Spaced (fun _ => Blank) symbols cs := by
  induction g with
  | nil => exact h
  | cons c g ih =>
    obtain ⟨hc, hg⟩ := List.forall_mem_cons.1 hg
    exact ih hg (h.of_blank hc)

/-- Nothing that starts with a character that is no blank is blank. -/
theorem not_blank_cons {c : Char} (hc : Token.isBlank c = false) : ¬ Blank (c :: g) := by
  intro hg
  rw [(List.forall_mem_cons.1 hg).1] at hc
  cases hc

/-- A text that starts with no gap starts with a symbol. -/
theorem Spaced.exists_front {sep : (atEnd : Bool) → List Char → Prop} {c : Char}
    (hsep : ∀ atEnd g, ¬ sep atEnd (c :: g)) (h : Spaced sep symbols (c :: cs)) :
    ∃ s rest tail cs', symbols = s :: rest ∧ s.chars = c :: tail ∧ cs = tail ++ cs' ∧
      Spaced sep rest cs' := by
  generalize htext : c :: cs = text at h
  cases h with
  | nil hg =>
    subst htext
    exact absurd hg (hsep _ _)
  | @cons g s rest cs' hg hrest =>
    cases g with
    | nil =>
      obtain ⟨c', tail, hchars, -⟩ := s.exists_chars
      rw [List.nil_append, hchars] at htext
      obtain ⟨rfl, rfl⟩ := List.cons.inj htext
      exact ⟨s, rest, tail, cs', rfl, hchars, rfl, hrest⟩
    | cons c' g =>
      obtain rfl := (List.cons.inj htext).1
      exact absurd hg (hsep _ _)

/-! ## Strings -/

/-- A string is closed where its end is first seen, or nowhere. -/
theorem afterLiteral_cases (cs : List Char) :
    (∃ body, Inside body ∧ cs = body ++ '"' :: afterLiteral cs) ∨
      (literalBody cs = cs ∧ afterLiteral cs = []) := by
  fun_induction afterLiteral cs with
  | case1 => exact .inr ⟨rfl, rfl⟩
  | case2 c rest ih =>
    rcases ih with ⟨body, hbody, heq⟩ | ⟨hbody, hafter⟩
    · exact .inl ⟨'\\' :: c :: body, (inside_escape c).append hbody, congrArg ('\\' :: c :: ·) heq⟩
    · exact .inr ⟨congrArg ('\\' :: c :: ·) hbody, hafter⟩
  | case3 c rest hescape hc =>
    exact .inl ⟨[], fun _ => ⟨rfl, rfl⟩, by rw [eq_of_beq hc]; rfl⟩
  | case4 c rest hescape hc ih =>
    have hbody : literalBody (c :: rest) = c :: literalBody rest := by
      rw [literalBody, if_neg hc]
      exact hescape
    by_cases hbackslash : c = '\\'
    · -- A backslash that escapes nothing is the end of the text.
      cases rest with
      | nil => exact .inr ⟨hbody, rfl⟩
      | cons d rest => exact (hescape d rest hbackslash rfl).elim
    · rcases ih with ⟨body, hinside, heq⟩ | ⟨hrest, hafter⟩
      · have hplain := inside_plain ⟨mt beq_iff_eq.2 hc, hbackslash⟩
        exact .inl ⟨c :: body, hplain.append hinside, congrArg (c :: ·) heq⟩
      · exact .inr ⟨by rw [hbody, hrest], hafter⟩

/-- Where a string ends does not depend on what follows it. -/
theorem Inside.eq {body body' out out' : List Char} (h : Inside body) (h' : Inside body')
    (heq : body ++ '"' :: out = body' ++ '"' :: out') : body = body' ∧ out = out' := by
  have hliteral := congrArg literalBody heq
  have hafter := congrArg afterLiteral heq
  rw [(h _).1, (h' _).1] at hliteral
  rw [(h _).2, (h' _).2] at hafter
  exact ⟨List.append_cancel_right hliteral, hafter⟩

/-- A string that is left stood in the text. -/
theorem eq_of_stripChars_string {pieces : List Piece} {out : List Char}
    (h : stripChars ('"' :: cs) = '"' :: (quotedChars pieces ++ '"' :: out)) :
    cs = quotedChars pieces ++ '"' :: afterLiteral cs ∧ out = stripChars (afterLiteral cs) := by
  have hpieces := inside_quotedChars pieces
  rw [stripChars_quote] at h
  replace h := (List.cons.inj h).2
  rcases afterLiteral_cases cs with ⟨body, hbody, heq⟩ | ⟨hbody, hafter⟩
  · have hliteral : literalBody cs = body ++ ['"'] := by
      rw [heq, (hbody _).1]
      rfl
    rw [hliteral, List.append_assoc] at h
    obtain ⟨rfl, hout⟩ := hbody.eq hpieces h
    exact ⟨heq, hout.symm⟩
  · rw [hbody, hafter, stripChars_nil, List.append_nil] at h
    have hout : afterLiteral cs = out := by
      rw [h, (hpieces _).2]
      rfl
    rw [hafter] at hout ⊢
    rw [stripChars_nil, hout]
    exact ⟨h, rfl⟩

/-! ## Whole texts -/

/-- Symbols that a strict text may have. -/
def Proper (symbols : List Symbol) : Prop :=
  Fitting symbols ∧ ∀ s ∈ symbols, s.isStrict = true

/-- A symbol stands before a text that spells the symbols after it. -/
theorem Proper.tolerates_cons {s : Symbol} (hproper : Proper (s :: symbols))
    (h : Proper symbols → Tolerates symbols cs) : Tolerates (s :: symbols) (s.chars ++ cs) := by
  obtain ⟨hfitting, hstrict⟩ := hproper
  obtain ⟨hs, hstrict⟩ := List.forall_mem_cons.1 hstrict
  exact (h ⟨hfitting.2, hstrict⟩).symbol hfitting hs

/-- A text that spells symbols, but for what is tolerated, if what is left of it spells them. -/
def Restores (cs : List Char) : Prop :=
  ∀ symbols, Proper symbols → Spaced (fun _ => Blank) symbols (stripChars cs) →
    Tolerates symbols cs

namespace Restores

/-- The empty text is restored. -/
theorem nil : Restores [] := by
  intro symbols _ h
  rw [stripChars_nil] at h
  rw [h.eq_nil]
  exact .nil

/-- A text with a line comment at its front is restored if all shorter ones are. -/
theorem line (h : ∀ rest, rest.length < cs.length → Restores rest) :
    Restores ('/' :: '/' :: cs) := by
  intro symbols hproper hspaced
  rw [stripChars_line] at hspaced
  rcases afterLine_cases cs with ⟨body, rest, hbody, rfl, hafter⟩ | ⟨hbody, hafter⟩
  · rw [hafter, stripChars_cons (by decide)] at hspaced
    have hrest := h rest (by simp; omega) symbols hproper (hspaced.of_blank rfl)
    have hgap : Gap false ('/' :: '/' :: body ++ ['\n']) := .line hbody .nil
    simpa using hrest.append_gap hgap
  · rw [hafter, stripChars_nil] at hspaced
    rw [hspaced.eq_nil]
    exact .trailing (.gap (.lastLine hbody))

/-- A text with a block comment at its front is restored if what follows the comment is. -/
theorem block (h : Restores (afterBlock cs)) : Restores ('/' :: '*' :: cs) := by
  intro symbols hproper hspaced
  rw [stripChars_block] at hspaced
  replace hspaced := (hspaced.of_blanks (blank_blockLines cs)).of_blank rfl
  rcases afterBlock_cases cs with ⟨body, hbody, heq⟩ | ⟨hbody, hafter⟩
  · have hgap : Gap false ('/' :: '*' :: body ++ ['*', '/']) := .block hbody .nil
    have hrest := (h symbols hproper hspaced).append_gap hgap
    rw [heq]
    simpa using hrest
  · rw [hafter, stripChars_nil] at hspaced
    rw [hspaced.eq_nil]
    exact .trailing (.unclosed .nil hbody)

/-- A comma that is left out is an extra one. -/
theorem comma (hcloses : closesNext cs = true) (h : Restores cs) : Restores (',' :: cs) := by
  intro symbols hproper hspaced
  rw [stripChars_comma, if_pos hcloses] at hspaced
  exact (h symbols hproper hspaced).extra hcloses

/-- A text with a blank at its front is restored if the rest is. -/
theorem blank {c : Char} (hc : Token.isBlank c = true) (h : Restores cs) :
    Restores (c :: cs) := by
  intro symbols hproper hspaced
  rw [stripChars_cons (kept_of_isBlank hc)] at hspaced
  exact (h symbols hproper (hspaced.of_blank hc)).append_gap (.blank hc .nil)

/-- A text with a string at its front is restored if what follows the string is. -/
theorem string (h : Restores (afterLiteral cs)) : Restores ('"' :: cs) := by
  intro symbols hproper hspaced
  have hquote := stripChars_quote cs
  rw [hquote] at hspaced
  have hfront (_ : Bool) (g : List Char) : ¬ Blank ('"' :: g) := not_blank_cons (by decide)
  obtain ⟨s, symbols, tail, out, rfl, hchars, hout, hrest⟩ := hspaced.exists_front hfront
  obtain ⟨c, tail', hchars', -, hs⟩ := s.exists_chars
  rw [hchars] at hchars'
  obtain ⟨rfl, rfl⟩ := List.cons.inj hchars'
  rcases hs with ⟨pieces, rfl⟩ | ⟨hne, -⟩
  · obtain rfl : quotedChars pieces ++ ['"'] = tail := (List.cons.inj hchars).2
    rw [hout, List.append_assoc, List.singleton_append] at hquote
    obtain ⟨hcs, rfl⟩ := eq_of_stripChars_string hquote
    have hstring := hproper.tolerates_cons fun hproper => h symbols hproper hrest
    rw [hchars, List.cons_append, List.append_assoc, List.singleton_append, ← hcs] at hstring
    exact hstring
  · exact absurd rfl hne

/-- A character that is left starts a symbol, which stands in the text as it is left. -/
theorem symbol {c : Char} (hc : Token.isBlank c = false) (hquote : c ≠ '"')
    (hleft : stripChars (c :: cs) = c :: stripChars cs)
    (h : ∀ rest, rest.length ≤ cs.length → Restores rest) : Restores (c :: cs) := by
  intro symbols hproper hspaced
  rw [hleft] at hspaced
  have hfront (_ : Bool) (g : List Char) : ¬ Blank (c :: g) := not_blank_cons hc
  obtain ⟨s, symbols, tail, out, rfl, hchars, hout, hrest⟩ := hspaced.exists_front hfront
  obtain ⟨c', tail', hchars', -, hs⟩ := s.exists_chars
  rw [hchars] at hchars'
  obtain ⟨rfl, rfl⟩ := List.cons.inj hchars'
  rcases hs with ⟨pieces, rfl⟩ | ⟨-, htail⟩
  · exact absurd (List.cons.inj hchars).1.symm hquote
  · obtain ⟨rest, rfl, rfl⟩ := exists_of_stripChars_eq_append htail hout
    have hsymbol := hproper.tolerates_cons fun hproper => h rest (by simp) symbols hproper hrest
    rw [hchars] at hsymbol
    exact hsymbol

end Restores

/-- What is left of a text tells what the text was, but for what is tolerated. The induction is on
the text as it is stripped; a word or a number is gone through at once. -/
theorem restores (cs : List Char) : Restores cs := by
  induction hn : cs.length using Nat.strongRecOn generalizing cs with
  | ind n ih =>
    subst hn
    fun_cases stripChars cs with
    | case1 => exact .nil
    | case2 rest => exact .line fun rest' hrest' => ih _ (by simp; omega) rest' rfl
    | case3 rest =>
      have hlength := length_afterBlock_le rest
      exact .block (ih _ (by simp; omega) _ rfl)
    | case4 c rest hline hblock hquote =>
      have hlength := length_afterLiteral_le rest
      rw [eq_of_beq hquote]
      exact .string (ih _ (by simp; omega) _ rfl)
    | case5 c rest hline hblock hquote hcomma =>
      obtain ⟨hc, hcloses⟩ := Bool.and_eq_true_iff.1 hcomma
      rw [eq_of_beq hc]
      exact .comma hcloses (ih _ (by simp) rest rfl)
    | case6 c rest hline hblock hquote hcomma =>
      by_cases hc : Token.isBlank c = true
      · exact .blank hc (ih _ (by simp) rest rfl)
      · have hleft : stripChars (c :: rest) = c :: stripChars rest := by
          rw [stripChars.eq_4 c rest hline hblock, if_neg hquote, if_neg hcomma]
        have hrest (rest' : List Char) (hlength : rest'.length ≤ rest.length) :
            Restores rest' := ih _ (by simp; omega) rest' rfl
        exact .symbol (Bool.not_eq_true _ ▸ hc) (mt beq_iff_eq.2 hquote) hleft hrest

end

/-- The symbols of a strict document are those that a strict text may have. -/
theorem Tree.proper (d : Tree) : Proper (d.symbols false) := by
  refine ⟨d.fitting false, ?_⟩
  rw [← d.filter_symbols]
  exact fun s hs => (List.mem_filter.1 hs).2

/-- Without its comments and trailing commas, a text is a strict text of a document exactly if it
was a tolerated text of it. -/
theorem Tree.strict_stripComments_iff {d : Tree} {text : String} :
    d.Strict (stripComments text) ↔ d.Tolerated text := by
  rw [Tree.Strict, stripComments, String.toList_ofList]
  exact ⟨restores _ _ d.proper, Tolerates.stripChars⟩

end Stencil.Json
