import Stencil.Proofs.Json.Restoring

/-!
# Two passes in one

Comments and trailing commas could be removed one after the other: first every comment, of which the
line ends of a block comment and one blank are left, then every comma after which a closing bracket
is the next character that is no blank. Both passes leave strings alone. Going through the text once
comes to the same, whether the text is a document or not.

The first pass sees blanks where the text has comments, so what it makes of a comma is decided by
the text alone; this is the one fact that the two ways have to agree on.
-/

namespace Stencil.Json

/-! ## The passes -/

/-- Characters after the opening quote of a string that do not close it. -/
inductive Unclosing : List Char → Prop
  | nil : Unclosing []
  | plain {c body} : c ≠ '"' → c ≠ '\\' → Unclosing body → Unclosing (c :: body)
  | escape {c body} : Unclosing body → Unclosing ('\\' :: c :: body)

/-- A string at the front of a text and what follows it. A string that is not closed takes up the
rest of the text, of which the last character may be a backslash. -/
inductive Quoted : (literal rest : List Char) → Prop
  | closed {body rest} : Unclosing body → Quoted ('"' :: (body ++ ['"'])) rest
  | unclosed {body} : Unclosing body → Quoted ('"' :: body) []
  | cut {body} : Unclosing body → Quoted ('"' :: (body ++ ['\\'])) []

/-- A comment at the front of a text, what follows it, and what is left in its place. A comment that
is not ended takes up the rest of the text. -/
inductive Comment : (comment rest left : List Char) → Prop
  | line {body rest} : '\n' ∉ body → Comment ('/' :: '/' :: body) ('\n' :: rest) []
  | lastLine {body} : '\n' ∉ body → Comment ('/' :: '/' :: body) [] []
  | block {body rest} : ¬ ['*', '/'] <:+: body →
      Comment ('/' :: '*' :: (body ++ ['*', '/'])) rest (body.filter (· == '\n') ++ [' '])
  | unclosed {body} : ¬ ['*', '/'] <:+: body →
      Comment ('/' :: '*' :: body) [] (body.filter (· == '\n') ++ [' '])

/-- A text with a comment at its front. -/
def StartsComment (cs : List Char) : Prop := ['/', '/'] <+: cs ∨ ['/', '*'] <+: cs

/-- The first pass: what is left of a text once its comments are removed. -/
inductive Uncommented : List Char → List Char → Prop
  | nil : Uncommented [] []
  | quoted {literal rest out} : Quoted literal rest → Uncommented rest out →
      Uncommented (literal ++ rest) (literal ++ out)
  | comment {comment rest left out} : Comment comment rest left → Uncommented rest out →
      Uncommented (comment ++ rest) (left ++ out)
  | other {c rest out} : c ≠ '"' → ¬ StartsComment (c :: rest) → Uncommented rest out →
      Uncommented (c :: rest) (c :: out)

/-- A text of which the first character that is no blank is a closing bracket. -/
def BracketNext (cs : List Char) : Prop :=
  ∃ gap c rest, cs = gap ++ c :: rest ∧ (∀ b ∈ gap, Text.isBlank b = true) ∧ (c = '}' ∨ c = ']')

/-- The second pass: what is left of a text once its trailing commas are removed. -/
inductive Untrailed : List Char → List Char → Prop
  | nil : Untrailed [] []
  | quoted {literal rest out} : Quoted literal rest → Untrailed rest out →
      Untrailed (literal ++ rest) (literal ++ out)
  | comma {rest out} : BracketNext rest → Untrailed rest out → Untrailed (',' :: rest) out
  | other {c rest out} : c ≠ '"' → (c = ',' → ¬ BracketNext rest) → Untrailed rest out →
      Untrailed (c :: rest) (c :: out)

section

variable {cs rest out mid literal comment left : List Char}

/-! ## Strings -/

/-- Characters that do not close a string are inside of it. -/
theorem Unclosing.inside {body : List Char} (h : Unclosing body) : Inside body := by
  induction h with
  | nil => exact fun _ => ⟨rfl, rfl⟩
  | plain hquote hbackslash _ ih => exact (inside_plain ⟨hquote, hbackslash⟩).append ih
  | escape _ ih => exact (inside_escape _).append ih

namespace Quoted

/-- A string at the front of a text is what is taken as one there. -/
theorem exists_cons (h : Quoted literal rest) : ∃ tail, literal = '"' :: tail ∧
    literalBody (tail ++ rest) = tail ∧ afterLiteral (tail ++ rest) = rest := by
  cases h with
  | @closed body rest hbody =>
    obtain ⟨hliteral, hafter⟩ := hbody.inside ('"' :: rest)
    refine ⟨_, rfl, ?_, ?_⟩ <;> rw [List.append_assoc, List.singleton_append]
    · exact hliteral
    · exact hafter
  | unclosed hbody =>
    obtain ⟨hliteral, hafter⟩ := hbody.inside []
    exact ⟨_, rfl, hliteral.trans (List.append_nil _), hafter⟩
  | @cut body hbody =>
    obtain ⟨hliteral, hafter⟩ := hbody.inside ['\\']
    exact ⟨_, rfl, by rwa [List.append_nil], by rwa [List.append_nil]⟩

/-- What follows a string is shorter than the text. -/
theorem length_lt (h : Quoted literal rest) : rest.length < (literal ++ rest).length := by
  obtain ⟨tail, rfl, -⟩ := h.exists_cons
  rw [List.length_append, List.length_cons]
  omega

/-- Where a string ends is seen in the text. -/
theorem unique {literal' rest' : List Char} (h : Quoted literal rest) (h' : Quoted literal' rest')
    (heq : literal ++ rest = literal' ++ rest') : literal = literal' ∧ rest = rest' := by
  obtain ⟨tail, rfl, hliteral, hafter⟩ := h.exists_cons
  obtain ⟨tail', rfl, hliteral', hafter'⟩ := h'.exists_cons
  have htail : tail ++ rest = tail' ++ rest' := (List.cons.inj heq).2
  rw [htail] at hliteral hafter
  rw [← hliteral, ← hafter, hliteral', hafter']
  exact ⟨rfl, rfl⟩

/-- Stripping leaves a string as it is. -/
theorem stripChars (h : Quoted literal rest) :
    stripChars (literal ++ rest) = literal ++ stripChars rest := by
  obtain ⟨tail, rfl, hliteral, hafter⟩ := h.exists_cons
  rw [List.cons_append, stripChars_quote, hliteral, hafter]
  rfl

/-- A string is no closing bracket. -/
theorem closesNext (h : Quoted literal rest) : closesNext (literal ++ rest) = false := by
  obtain ⟨tail, rfl, -⟩ := h.exists_cons
  exact Opens.closesNext (by decide) _

end Quoted

/-- A string goes on up to its closing quote, or up to the end of the text. -/
theorem exists_unclosing (cs : List Char) : ∃ body rest, Unclosing body ∧ cs = body ++ rest ∧
    (rest = [] ∨ rest = ['\\'] ∨ ∃ after, rest = '"' :: after) := by
  fun_induction afterLiteral cs with
  | case1 => exact ⟨[], [], .nil, rfl, .inl rfl⟩
  | case2 c rest ih =>
    obtain ⟨body, rest', hbody, rfl, hrest⟩ := ih
    exact ⟨_, rest', hbody.escape, rfl, hrest⟩
  | case3 c rest hescape hc => exact ⟨[], _, .nil, rfl, .inr (.inr ⟨rest, by rw [eq_of_beq hc]⟩)⟩
  | case4 c rest hescape hc ih =>
    by_cases hbackslash : c = '\\'
    · -- A backslash that escapes nothing is the end of the text.
      cases rest with
      | nil => exact ⟨[], _, .nil, rfl, .inr (.inl (by rw [hbackslash]))⟩
      | cons d rest => exact (hescape d rest hbackslash rfl).elim
    · obtain ⟨body, rest', hbody, rfl, hrest⟩ := ih
      exact ⟨_, rest', .plain (mt beq_iff_eq.2 hc) hbackslash hbody, rfl, hrest⟩

/-- After a quote there is a string. -/
theorem exists_quoted (cs : List Char) :
    ∃ literal rest, '"' :: cs = literal ++ rest ∧ Quoted literal rest := by
  obtain ⟨body, rest, hbody, rfl, rfl | rfl | ⟨after, rfl⟩⟩ := exists_unclosing cs
  · exact ⟨'"' :: body, [], by simp, .unclosed hbody⟩
  · exact ⟨_, [], (List.append_nil _).symm, .cut hbody⟩
  · exact ⟨'"' :: (body ++ ['"']), after, by simp, .closed hbody⟩

/-! ## Comments -/

/-- Of a block comment that is not ended the line ends are left. -/
theorem blockLines_of_unclosed {body : List Char} (h : ¬ ['*', '/'] <:+: body) :
    blockLines body = body.filter (· == '\n') := by
  fun_induction blockLines body with
  | case1 => rfl
  | case2 rest => exact absurd ⟨[], rest, rfl⟩ h
  | case3 c rest _ hc ih => rw [List.filter_cons, if_pos hc, ih (not_infix_of_cons h), eq_of_beq hc]
  | case4 c rest _ hc ih => rw [List.filter_cons, if_neg hc, ih (not_infix_of_cons h)]

namespace Comment

/-- What follows a comment is shorter than the text. -/
theorem length_lt (h : Comment comment rest left) : rest.length < (comment ++ rest).length := by
  have hpos : 0 < comment.length := by cases h <;> exact Nat.succ_pos _
  rw [List.length_append]
  omega

/-- Line ends and a blank are left of a comment, if anything is. -/
theorem blank (h : Comment comment rest left) : Blank left := by
  have hlines (body : List Char) : Blank (body.filter (· == '\n') ++ [' ']) := by
    refine List.forall_mem_append.2 ⟨fun c hc => ?_, List.forall_mem_singleton.2 rfl⟩
    rw [eq_of_beq (List.mem_filter.1 hc).2]
    rfl
  cases h with
  | line => exact nofun
  | lastLine => exact nofun
  | block => exact hlines _
  | unclosed => exact hlines _

/-- Stripping a text with a comment at its front leaves what is left in place of the comment. -/
theorem stripChars (h : Comment comment rest left) :
    stripChars (comment ++ rest) = left ++ stripChars rest := by
  cases h with
  | line hbody =>
    exact (stripChars_line _).trans (congrArg Json.stripChars (afterLine_append hbody _))
  | lastLine hbody =>
    exact (stripChars_line _).trans (congrArg Json.stripChars (afterLine_append hbody _))
  | block hbody =>
    simp only [List.cons_append, List.append_assoc, List.nil_append, stripChars_block,
      afterBlock_append hbody, blockLines_append hbody]
  | unclosed hbody =>
    rw [List.append_nil, stripChars_block, afterBlock_of_unclosed hbody,
      blockLines_of_unclosed hbody, List.append_assoc]
    rfl

/-- Whether a bracket closes next is seen through a comment. -/
theorem closesNext (h : Comment comment rest left) :
    closesNext (comment ++ rest) = closesNext rest := by
  cases h with
  | line hbody =>
    exact (closesNext_line _).trans (congrArg Json.closesNext (afterLine_append hbody _))
  | lastLine hbody =>
    exact (closesNext_line _).trans (congrArg Json.closesNext (afterLine_append hbody _))
  | block hbody =>
    simp only [List.cons_append, List.append_assoc, List.nil_append, closesNext_block,
      afterBlock_append hbody]
  | unclosed hbody =>
    rw [List.append_nil, closesNext_block, afterBlock_of_unclosed hbody]

end Comment

/-- A text that starts like a comment starts with one. -/
theorem exists_comment (h : StartsComment cs) :
    ∃ comment rest left, cs = comment ++ rest ∧ Comment comment rest left := by
  rcases h with ⟨tail, rfl⟩ | ⟨tail, rfl⟩
  · rcases afterLine_cases tail with ⟨body, rest, hbody, rfl, -⟩ | ⟨hbody, -⟩
    · exact ⟨'/' :: '/' :: body, '\n' :: rest, _, rfl, .line hbody⟩
    · exact ⟨_, [], _, (List.append_nil _).symm, .lastLine hbody⟩
  · rcases afterBlock_cases tail with ⟨body, hbody, heq⟩ | ⟨hbody, -⟩
    · refine ⟨'/' :: '*' :: (body ++ ['*', '/']), afterBlock tail, _, ?_, .block hbody⟩
      simpa using heq
    · exact ⟨_, [], _, (List.append_nil _).symm, .unclosed hbody⟩

/-! ## Other characters -/

section

variable {c : Char}

/-- A character that starts no string and no comment is kept, unless it is a trailing comma. -/
theorem stripChars_other (hquote : c ≠ '"') (hcomment : ¬ StartsComment (c :: rest)) :
    stripChars (c :: rest) =
      if c = ',' ∧ closesNext rest = true then stripChars rest else c :: stripChars rest := by
  rw [stripChars.eq_4 c rest, if_neg (mt eq_of_beq hquote)]
  · simp only [Bool.and_eq_true, beq_iff_eq]
  · rintro tail rfl rfl
    exact hcomment (.inl ⟨tail, rfl⟩)
  · rintro tail rfl rfl
    exact hcomment (.inr ⟨tail, rfl⟩)

/-- Where no comment starts, the next character that is no blank decides whether a bracket closes
next. -/
theorem closesNext_other (hcomment : ¬ StartsComment (c :: rest)) :
    closesNext (c :: rest) =
      if Text.isBlank c then closesNext rest else c == '}' || c == ']' := by
  rw [closesNext.eq_4 c rest]
  · rintro tail rfl rfl
    exact hcomment (.inl ⟨tail, rfl⟩)
  · rintro tail rfl rfl
    exact hcomment (.inr ⟨tail, rfl⟩)

/-- No bracket comes next at the end of a text. -/
theorem not_bracketNext_nil : ¬ BracketNext [] := by
  rintro ⟨gap, c, rest, heq, -⟩
  simp at heq

/-- The first character that is no blank decides whether a bracket comes next. -/
theorem bracketNext_cons : BracketNext (c :: rest) ↔
    if Text.isBlank c then BracketNext rest else c = '}' ∨ c = ']' := by
  constructor
  · rintro ⟨gap, b, after, heq, hgap, hb⟩
    cases gap with
    | nil =>
      obtain ⟨rfl, rfl⟩ := List.cons.inj heq
      have hblank : Text.isBlank c = false := by rcases hb with rfl | rfl <;> rfl
      rwa [hblank, if_neg Bool.false_ne_true]
    | cons d gap =>
      obtain ⟨rfl, rfl⟩ := List.cons.inj heq
      obtain ⟨hc, hgap⟩ := List.forall_mem_cons.1 hgap
      rw [if_pos hc]
      exact ⟨gap, b, after, rfl, hgap, hb⟩
  · intro h
    split at h
    · rename_i hc
      obtain ⟨gap, b, after, rfl, hgap, hb⟩ := h
      exact ⟨c :: gap, b, after, rfl, List.forall_mem_cons.2 ⟨hc, hgap⟩, hb⟩
    · exact ⟨[], c, rest, rfl, nofun, h⟩

/-- Whether a bracket comes next is seen through blanks. -/
theorem bracketNext_append {gap : List Char} (h : Blank gap) :
    BracketNext (gap ++ rest) ↔ BracketNext rest := by
  induction gap with
  | nil => rfl
  | cons c gap ih =>
    obtain ⟨hc, hgap⟩ := List.forall_mem_cons.1 h
    rw [List.cons_append, bracketNext_cons, if_pos (isBlank_of_isBlank hc), ih hgap]

end

/-! ## Both passes -/

/-- What the second pass makes of a comma can be told from the text that the first one was given. -/
theorem Uncommented.closesNext_iff (h : Uncommented cs mid) :
    closesNext cs = true ↔ BracketNext mid := by
  induction h with
  | nil =>
    rw [closesNext_nil]
    exact iff_of_false Bool.false_ne_true not_bracketNext_nil
  | quoted hliteral _ _ =>
    rw [hliteral.closesNext]
    obtain ⟨tail, rfl, -⟩ := hliteral.exists_cons
    refine iff_of_false Bool.false_ne_true ?_
    rw [List.cons_append, bracketNext_cons, if_neg (by decide)]
    decide
  | comment hcomment _ ih => rw [hcomment.closesNext, ih, bracketNext_append hcomment.blank]
  | other _ hcomment _ ih =>
    rw [closesNext_other hcomment, bracketNext_cons]
    split
    · exact ih
    · rw [Bool.or_eq_true, beq_iff_eq, beq_iff_eq]

namespace Untrailed

/-- Nothing is left of an empty text by the second pass. -/
theorem eq_nil (h : Untrailed [] out) : out = [] := by
  generalize htext : [] = text at h
  cases h with
  | nil => rfl
  | quoted hliteral _ =>
    obtain ⟨tail, rfl, -⟩ := hliteral.exists_cons
    cases htext
  | _ => cases htext

/-- Outside of strings the second pass removes trailing commas only. -/
theorem cons_inv {c : Char} (hquote : c ≠ '"') (h : Untrailed (c :: mid) out) :
    (c = ',' ∧ BracketNext mid ∧ Untrailed mid out) ∨
      ((c = ',' → ¬ BracketNext mid) ∧ ∃ out', out = c :: out' ∧ Untrailed mid out') := by
  generalize htext : c :: mid = text at h
  cases h with
  | nil => cases htext
  | quoted hliteral _ =>
    obtain ⟨tail, rfl, -⟩ := hliteral.exists_cons
    exact absurd (List.cons.inj htext).1 hquote
  | comma hnext hrest =>
    obtain ⟨rfl, rfl⟩ := List.cons.inj htext
    exact .inl ⟨rfl, hnext, hrest⟩
  | other _ hcomma hrest =>
    obtain ⟨rfl, rfl⟩ := List.cons.inj htext
    exact .inr ⟨hcomma, _, rfl, hrest⟩

/-- The second pass keeps the blanks at the front of a text. -/
theorem of_blank {gap : List Char} (hgap : Blank gap) (h : Untrailed (gap ++ mid) out) :
    ∃ out', out = gap ++ out' ∧ Untrailed mid out' := by
  induction gap generalizing out with
  | nil => exact ⟨out, rfl, h⟩
  | cons c gap ih =>
    obtain ⟨hc, hgap⟩ := List.forall_mem_cons.1 hgap
    obtain ⟨-, hquote, hcomma⟩ := kept_of_isBlank hc
    rcases cons_inv hquote h with ⟨rfl, -⟩ | ⟨-, out', rfl, hrest⟩
    · exact absurd rfl hcomma
    · obtain ⟨out', rfl, hmid⟩ := ih hgap hrest
      exact ⟨out', rfl, hmid⟩

/-- The second pass keeps a string at the front of a text. -/
theorem of_quoted (hliteral : Quoted literal mid) (h : Untrailed (literal ++ mid) out) :
    ∃ out', out = literal ++ out' ∧ Untrailed mid out' := by
  generalize htext : literal ++ mid = text at h
  cases h with
  | nil =>
    obtain ⟨tail, rfl, -⟩ := hliteral.exists_cons
    cases htext
  | quoted hliteral' hrest =>
    obtain ⟨rfl, rfl⟩ := hliteral.unique hliteral' htext
    exact ⟨_, rfl, hrest⟩
  | comma _ _ =>
    obtain ⟨tail, rfl, -⟩ := hliteral.exists_cons
    cases (List.cons.inj htext).1
  | other hquote _ _ =>
    obtain ⟨tail, rfl, -⟩ := hliteral.exists_cons
    exact absurd (List.cons.inj htext).1.symm hquote

end Untrailed

/-- A string stays one when what follows it is changed, unless it is not closed. -/
theorem Quoted.before (h : Quoted literal rest) (hrest : rest = [] → mid = []) :
    Quoted literal mid := by
  cases h with
  | closed hbody => exact .closed hbody
  | unclosed hbody =>
    rw [hrest rfl]
    exact .unclosed hbody
  | cut hbody =>
    rw [hrest rfl]
    exact .cut hbody

/-- Nothing is left of an empty text by the first pass. -/
theorem Uncommented.eq_nil (h : Uncommented [] mid) : mid = [] := by
  generalize htext : [] = text at h
  cases h with
  | nil => rfl
  | quoted hliteral _ =>
    obtain ⟨tail, rfl, -⟩ := hliteral.exists_cons
    cases htext
  | comment hcomment _ => cases hcomment <;> cases htext
  | other => cases htext

/-- Both passes, one after the other, leave what is left by both at once. -/
theorem Uncommented.stripChars_eq (h : Uncommented cs mid) (h' : Untrailed mid out) :
    stripChars cs = out := by
  -- Along the first pass, with what the second one leaves of the rest still open.
  induction h generalizing out with
  | nil => rw [stripChars_nil, h'.eq_nil]
  | quoted hliteral hrest ih =>
    have hmid := hliteral.before fun hnil => (hnil ▸ hrest).eq_nil
    obtain ⟨out', rfl, hout⟩ := h'.of_quoted hmid
    rw [hliteral.stripChars, ih hout]
  | comment hcomment _ ih =>
    obtain ⟨out', rfl, hout⟩ := h'.of_blank hcomment.blank
    rw [hcomment.stripChars, ih hout]
  | other hquote hcomment hrest ih =>
    rw [stripChars_other hquote hcomment]
    rcases h'.cons_inv hquote with ⟨rfl, hnext, hout⟩ | ⟨hcomma, out', rfl, hout⟩
    · rw [if_pos ⟨rfl, hrest.closesNext_iff.2 hnext⟩, ih hout]
    · rw [if_neg fun hc => hcomma hc.1 (hrest.closesNext_iff.1 hc.2), ih hout]

/-! ## Every text can be passed through -/

/-- The first pass leaves something of every text. -/
theorem exists_uncommented (cs : List Char) : ∃ mid, Uncommented cs mid := by
  induction hn : cs.length using Nat.strongRecOn generalizing cs with
  | ind n ih =>
    subst hn
    cases cs with
    | nil => exact ⟨[], .nil⟩
    | cons c rest =>
      by_cases hquote : c = '"'
      · obtain ⟨literal, after, heq, hliteral⟩ := exists_quoted rest
        rw [hquote, heq] at ih ⊢
        obtain ⟨mid, hmid⟩ := ih _ hliteral.length_lt after rfl
        exact ⟨_, .quoted hliteral hmid⟩
      by_cases hcomment : StartsComment (c :: rest)
      · obtain ⟨comment, after, left, heq, hcomment⟩ := exists_comment hcomment
        rw [heq] at ih ⊢
        obtain ⟨mid, hmid⟩ := ih _ hcomment.length_lt after rfl
        exact ⟨_, .comment hcomment hmid⟩
      · obtain ⟨mid, hmid⟩ := ih _ (Nat.lt_succ_self _) rest rfl
        exact ⟨_, .other hquote hcomment hmid⟩

/-- The second pass leaves something of every text. -/
theorem exists_untrailed (cs : List Char) : ∃ out, Untrailed cs out := by
  induction hn : cs.length using Nat.strongRecOn generalizing cs with
  | ind n ih =>
    subst hn
    cases cs with
    | nil => exact ⟨[], .nil⟩
    | cons c rest =>
      by_cases hquote : c = '"'
      · obtain ⟨literal, after, heq, hliteral⟩ := exists_quoted rest
        rw [hquote, heq] at ih ⊢
        obtain ⟨out, hout⟩ := ih _ hliteral.length_lt after rfl
        exact ⟨_, .quoted hliteral hout⟩
      obtain ⟨out, hout⟩ := ih _ (Nat.lt_succ_self _) rest rfl
      by_cases hcomma : c = ',' ∧ BracketNext rest
      · rw [hcomma.1]
        exact ⟨out, .comma hcomma.2 hout⟩
      · exact ⟨_, .other hquote (not_and.1 hcomma) hout⟩

end

/-- Removing comments and trailing commas at once comes to removing first the comments and then the
trailing commas, for every text. -/
theorem stripComments_eq_iff (text out : String) : stripComments text = out ↔
    ∃ mid, Uncommented text.toList mid ∧ Untrailed mid out.toList := by
  constructor
  · rintro rfl
    obtain ⟨mid, hmid⟩ := exists_uncommented text.toList
    obtain ⟨left, hleft⟩ := exists_untrailed mid
    refine ⟨mid, hmid, ?_⟩
    rw [stripComments, String.toList_ofList, hmid.stripChars_eq hleft]
    exact hleft
  · rintro ⟨mid, hmid, hout⟩
    rw [stripComments, hmid.stripChars_eq hout, String.ofList_toList]

end Stencil.Json
