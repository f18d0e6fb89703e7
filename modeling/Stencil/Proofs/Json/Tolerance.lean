import Stencil.Proofs.Json.Stripping

/-!
# What is tolerated

A text whose comments and trailing commas are removed is a strict text of a document only if nothing
else was wrong with it: apart from blanks and comments between its symbols, and from a comma before
a closing bracket, it spells the document itself. Two things are tolerated that a lenient text does
not have: the comma may stand in an empty container, and a block comment that is never closed may
take up the end of the text.
-/

namespace Stencil.Json

/-- Blanks and comments between symbols. The end of a text may close a block comment. -/
inductive LooseGap : (atEnd : Bool) → List Char → Prop
  | gap {atEnd g} : Gap atEnd g → LooseGap atEnd g
  | unclosed {g body} : Gap false g → ¬ ['*', '/'] <:+: body →
      LooseGap true (g ++ '/' :: '*' :: body)

/-- A text that spells symbols, and at most one comma more before each closing bracket. -/
def Tolerates (symbols : List Symbol) (cs : List Char) : Prop :=
  ∃ written, written.filter Symbol.isStrict = symbols ∧ Fitting written ∧
    Spaced LooseGap written cs

/-- A text that is a document, but for what is tolerated. -/
def Tree.Tolerated (d : Tree) (text : String) : Prop :=
  Tolerates (d.symbols false) text.toList

section

variable {atEnd : Bool} {g g' body cs rest : List Char} {symbols : List Symbol} {s : Symbol}

/-! ## Gaps -/

/-- Gaps follow each other. -/
theorem Gap.append (h : Gap false g) (h' : Gap atEnd g') : Gap atEnd (g ++ g') := by
  generalize hfalse : false = b at h
  induction h with
  | nil => exact h'
  | blank hc _ ih => exact .blank hc (ih hfalse)
  | line hbody _ ih =>
    rw [List.append_assoc]
    exact .line hbody (ih hfalse)
  | lastLine => cases hfalse
  | block hbody _ ih =>
    rw [List.append_assoc]
    exact .block hbody (ih hfalse)

/-- A gap may stand before a loose one. -/
theorem LooseGap.append (h : Gap false g) (h' : LooseGap atEnd g') : LooseGap atEnd (g ++ g') := by
  cases h' with
  | gap h' => exact .gap (h.append h')
  | unclosed h' hbody =>
    rw [← List.append_assoc]
    exact .unclosed (h.append h') hbody

/-- A loose gap that does not end the text is a gap. -/
theorem LooseGap.gap_of_inside (h : LooseGap false g) : Gap false g := by
  cases h with
  | gap h => exact h

/-- A gap may be put before a text that spells symbols. -/
theorem Spaced.append_gap (hg : Gap false g) (h : Spaced LooseGap symbols cs) :
    Spaced LooseGap symbols (g ++ cs) := by
  cases h with
  | nil h => exact .nil (.append hg h)
  | cons h hrest =>
    rw [← List.append_assoc, ← List.append_assoc]
    exact .cons (.append hg h) hrest

/-- A character before an open comment closes it only together with a slash. -/
theorem not_infix_cons {c : Char} (h : ¬ ['*', '/'] <:+: body)
    (hc : c = '*' → ∀ tail, body ≠ '/' :: tail) : ¬ ['*', '/'] <:+: c :: body := by
  rw [List.infix_cons_iff]
  rintro (⟨tail, heq⟩ | hbody)
  · obtain ⟨rfl, hbody⟩ := List.cons.inj heq
    exact hc rfl tail hbody.symm
  · exact h hbody

/-- A block comment is closed where its end is first seen, or nowhere. -/
theorem afterBlock_cases (cs : List Char) :
    (∃ body, ¬ ['*', '/'] <:+: body ∧ cs = body ++ '*' :: '/' :: afterBlock cs) ∨
      (¬ ['*', '/'] <:+: cs ∧ afterBlock cs = []) := by
  have hnil : ¬ ['*', '/'] <:+: ([] : List Char) := by simp
  fun_induction afterBlock cs with
  | case1 => exact .inr ⟨hnil, rfl⟩
  | case2 rest => exact .inl ⟨[], hnil, rfl⟩
  | case3 c rest hclose ih =>
    rcases ih with ⟨body, hbody, heq⟩ | ⟨hrest, hafter⟩
    · refine .inl ⟨c :: body, not_infix_cons hbody fun hc tail htail => ?_, congrArg (c :: ·) heq⟩
      rw [htail] at heq
      exact hclose _ hc heq
    · exact .inr ⟨not_infix_cons hrest fun hc tail => hclose tail hc, hafter⟩

/-- The line ends of a block comment are blank. -/
theorem blank_blockLines (cs : List Char) : Blank (blockLines cs) := by
  fun_induction blockLines cs with
  | case1 => exact nofun
  | case2 => exact nofun
  | case3 c rest _ hc ih => exact List.forall_mem_cons.2 ⟨rfl, ih⟩
  | case4 c rest _ hc ih => exact ih

/-- Nothing follows a block comment that is never closed. -/
theorem afterBlock_of_unclosed (h : ¬ ['*', '/'] <:+: body) : afterBlock body = [] := by
  rcases afterBlock_cases body with ⟨body', -, heq⟩ | ⟨-, hnil⟩
  · exact absurd ⟨body', afterBlock body, by simpa using heq.symm⟩ h
  · exact hnil

/-! ## What comes after a comma -/

/-- No closing bracket is found in a gap. -/
theorem Gap.closesNext (h : Gap atEnd g) : closesNext g = false := by
  have hnil : Json.closesNext [] = false := closesNext_nil
  induction h with
  | nil => exact hnil
  | @blank atEnd c g hc _ ih =>
    rw [closesNext_cons (kept_of_isBlank hc).1, if_pos (isBlank_of_isBlank hc), ih]
  | @line atEnd body g hbody _ ih =>
    rw [List.cons_append, List.cons_append, closesNext_line, afterLine_append hbody]
    exact (closesNext_cons (by decide) g).trans ih
  | @lastLine body hbody =>
    rw [closesNext_line, ← List.append_nil body, afterLine_append hbody]
    exact hnil
  | block hbody _ ih =>
    rw [List.cons_append, List.cons_append, closesNext_block, afterBlock_append hbody, ih]

/-- No bracket closes next in a loose gap. -/
theorem LooseGap.closesNext (h : LooseGap atEnd g) : closesNext g = false := by
  cases h with
  | gap h => exact h.closesNext
  | unclosed h hbody =>
    rw [closesNext_gap h rfl, closesNext_block, afterBlock_of_unclosed hbody]
    exact closesNext_nil

/-- A comment that is never closed leaves its line ends and a blank. -/
theorem LooseGap.vanishes : Vanishes LooseGap where
  strip h := by
    cases h with
    | gap h => exact exists_stripChars_gap h
    | @unclosed g body h hbody =>
      obtain ⟨g', hblank, hstrip⟩ := exists_stripChars_gap h
      have hlines : Blank (blockLines body ++ [' ']) :=
        List.forall_mem_append.2 ⟨blank_blockLines body, List.forall_mem_singleton.2 rfl⟩
      refine ⟨_, List.forall_mem_append.2 ⟨hblank, hlines⟩, fun rest hrest => ?_⟩
      rw [hrest rfl, List.append_nil, hstrip _ (fun h => absurd h Bool.false_ne_true),
        stripChars_block, afterBlock_of_unclosed hbody, List.append_assoc, List.append_assoc]
      rfl
  closesNext h := closesNext_gap h.gap_of_inside rfl

/-- A bracket closes next in a text if it is the first symbol of it. -/
theorem Spaced.closesNext_eq (h : Spaced LooseGap symbols cs) :
    Json.closesNext cs = symbols.head?.any Symbol.closes := by
  cases symbols with
  | nil =>
    cases h with
    | nil hg => exact hg.closesNext
  | cons s rest => exact h.closesNext LooseGap.vanishes

/-! ## Tolerated texts -/

/-- Of the symbols of a text the first is an extra comma, or the first strict one. -/
theorem head?_filter_isStrict (written : List Symbol) :
    written.head? = some .extra ∨ written.head? = (written.filter Symbol.isStrict).head? := by
  cases written with
  | nil => exact .inr rfl
  | cons s written =>
    cases s with
    | extra => exact .inl rfl
    | _ => exact .inr rfl

namespace Tolerates

theorem nil : Tolerates [] [] := ⟨[], rfl, trivial, .nil (.gap .nil)⟩

/-- A gap may be put before a text that is tolerated. -/
theorem append_gap (hg : Gap false g) (h : Tolerates symbols cs) : Tolerates symbols (g ++ cs) := by
  obtain ⟨written, hfilter, hfitting, hspaced⟩ := h
  exact ⟨written, hfilter, hfitting, hspaced.append_gap hg⟩

/-- A comma before a closing bracket is tolerated. -/
theorem extra (hcloses : closesNext cs = true) (h : Tolerates symbols cs) :
    Tolerates symbols (',' :: cs) := by
  obtain ⟨written, hfilter, hfitting, hspaced⟩ := h
  rw [hspaced.closesNext_eq, Option.any_eq_true] at hcloses
  exact ⟨.extra :: written, hfilter, ⟨hcloses, hfitting⟩, .cons (.gap .nil) hspaced⟩

/-- A strict symbol may be put before a text that is tolerated. -/
theorem symbol (hfitting : Fitting (s :: symbols)) (hstrict : s.isStrict = true)
    (h : Tolerates symbols cs) : Tolerates (s :: symbols) (s.chars ++ cs) := by
  obtain ⟨written, rfl, hwritten, hspaced⟩ := h
  refine ⟨s :: written, ?_, ⟨?_, hwritten⟩, .cons (.gap .nil) hspaced⟩
  · rw [List.filter_cons, if_pos hstrict]
  · rcases head?_filter_isStrict written with hextra | hhead
    · rw [hextra]
      cases s with
      | extra => cases hstrict
      | comma => exact ⟨.extra, rfl, rfl⟩
      | literal l => exact fun _ hs => Option.some.inj hs ▸ rfl
      | _ => trivial
    · rw [hhead]
      exact hfitting.1

/-- What is tolerated goes, and blanks are left between the symbols. -/
theorem stripChars (h : Tolerates symbols cs) :
    Spaced (fun _ => Blank) symbols (stripChars cs) := by
  obtain ⟨written, rfl, hfitting, hspaced⟩ := h
  exact hspaced.stripChars LooseGap.vanishes hfitting

/-- The end of a text may end a comment. -/
theorem trailing (h : LooseGap true cs) : Tolerates [] cs := ⟨[], rfl, trivial, .nil h⟩

end Tolerates

end

end Stencil.Json
