import Stencil.Proofs.Template.Literal
import Stencil.Proofs.Text.Blank
import Stencil.Template.Parser

/-!
# The words of an action

The words of an action are names and strings with blanks around them. A text reads as some words up
to its closing braces exactly if it spells those words, any two of them apart, and a mark that trims
what follows has a blank before it.
-/

namespace Stencil.Template

open Text

/-- A word as it is written: a name, a string between quotes, or any text between raw marks. -/
inductive Spelled : List Char → Word → Prop
  | name {c cs} : isNameStart c = true → (∀ d ∈ cs, isNameChar d = true) →
      Spelled (c :: cs) (.name (String.ofList (c :: cs)))
  | quoted {body s} : Literal.Spells body (Utf8.encode (String.toList s)) →
      Spelled ('"' :: (body ++ ['"'])) (.text s)
  | raw {body} : rawMark ∉ body →
      Spelled (rawMark :: (body ++ [rawMark])) (.text (String.ofList body))

/-- A text of blanks only. -/
def Blanks (cs : List Char) : Prop := ∀ c ∈ cs, isSpace c = true

/-- The words of an action as they are written: with blanks around them, and at least one between
any two. -/
inductive Spread : List Char → List Word → Prop
  | none {gap} : Blanks gap → Spread gap []
  | word {gap cs w rest words} : Blanks gap → Spelled cs w → Spread rest words →
      (words ≠ [] → Starts isSpace rest) → Spread (gap ++ cs ++ rest) (w :: words)

/-- The mark of an action that trims the text beside it. -/
def trimMark (trims : Bool) : List Char := if trims then ['-'] else []

/-! ## Single words -/

/-- A character of names is no blank. -/
theorem isSpace_of_isNameChar {c : Char} (h : isNameChar c = true) : isSpace c = false := by
  rw [Bool.eq_false_iff]
  intro hs
  simp only [isSpace, Bool.or_eq_true, beq_iff_eq] at hs
  rcases hs with ((rfl | rfl) | rfl) | rfl <;> exact absurd h (by decide)

theorem isNameChar_of_isNameStart {c : Char} (h : isNameStart c = true) : isNameChar c = true := by
  rw [isNameChar, h, Bool.true_or]

/-- A raw text is read up to the next raw mark. -/
theorem readRaw_eq_ok_iff {cs rest : List Char} {s : String} :
    readRaw cs = .ok (s, rest) ↔
      ∃ body, cs = body ++ rawMark :: rest ∧ rawMark ∉ body ∧ s = String.ofList body := by
  unfold readRaw
  constructor
  · intro h
    split at h
    · cases h
    · rename_i c tail hd
      obtain ⟨rfl, rfl⟩ := Prod.mk.inj (Except.ok.inj h)
      -- What stops the search is the mark itself.
      have hc : c = rawMark := by
        have := List.head?_dropWhile_not (· != rawMark) cs
        rw [hd] at this
        simpa using this
      subst hc
      refine ⟨cs.takeWhile (· != rawMark), ?_, fun hm => ?_, rfl⟩
      · rw [← hd, List.takeWhile_append_dropWhile]
      · simpa using List.mem_takeWhile_imp hm
  · rintro ⟨body, rfl, hm, rfl⟩
    have hb : ∀ c ∈ body, (c != rawMark) = true := by
      rintro c hc
      rw [bne_iff_ne]
      rintro rfl
      exact hm hc
    rw [List.dropWhile_append_of_pos hb, List.takeWhile_append_of_pos hb]
    simp

/-- A word starts with neither a blank nor any mark that has a meaning between words. -/
theorem Spelled.starts {cs : List Char} {w : Word} (h : Spelled cs w) :
    ∃ c body, cs = c :: body ∧ c ≠ '}' ∧ c ≠ '-' ∧ c ≠ '/' ∧ isSpace c = false := by
  cases h with
  | @name c body hc _ =>
    have hne : ∀ d, isNameStart d = false → c ≠ d := by
      rintro d hd rfl
      rw [hc] at hd
      cases hd
    exact ⟨c, body, rfl, hne _ (by decide), hne _ (by decide), hne _ (by decide),
      isSpace_of_isNameChar (isNameChar_of_isNameStart hc)⟩
  | quoted _ => exact ⟨_, _, rfl, by decide, by decide, by decide, rfl⟩
  | raw _ => exact ⟨_, _, rfl, by decide, by decide, by decide, rfl⟩

/-- A word does not end with a blank. -/
theorem Spelled.not_ends {cs : List Char} {w : Word} (h : Spelled cs w) : ¬ Ends isSpace cs := by
  cases h with
  | @name c body hc hbody =>
    rintro ⟨d, hd, hs⟩
    have hn : isNameChar d = true := by
      rcases List.mem_cons.1 (List.mem_of_getLast? hd) with rfl | hm
      · exact isNameChar_of_isNameStart hc
      · exact hbody d hm
    rw [isSpace_of_isNameChar hn] at hs
    cases hs
  | quoted _ =>
    rw [← List.cons_append, ends_concat]
    decide
  | raw _ =>
    rw [← List.cons_append, ends_concat]
    decide

/-- A word is read as it is spelled, if a name is not followed by more of a name. -/
theorem readWord_of_spelled {w : Word} {c : Char} {cs rest : List Char} (h : Spelled (c :: cs) w)
    (hrest : ∀ d ∈ rest.head?, isNameChar d = false) : readWord c (cs ++ rest) = .ok (w, rest) := by
  unfold readWord
  simp only [beq_iff_eq]
  generalize hcs : c :: cs = all at h
  cases h with
  | @name d body hd hbody =>
    obtain ⟨rfl, rfl⟩ := List.cons.inj hcs
    have hq : c ≠ '"' := by
      rintro rfl
      exact absurd hd (by decide)
    have hr : c ≠ rawMark := by
      rintro rfl
      exact absurd hd (by decide)
    -- The name stops where it should, since no character of names follows.
    have htake : rest.takeWhile isNameChar = [] := by
      cases rest with
      | nil => rfl
      | cons d rest => rw [List.takeWhile_cons, hrest d rfl]; rfl
    have hdrop : rest.dropWhile isNameChar = rest := by
      cases rest with
      | nil => rfl
      | cons d rest => rw [List.dropWhile_cons, hrest d rfl]; rfl
    rw [if_neg hq, if_neg hr, if_pos hd, List.takeWhile_append_of_pos hbody,
      List.dropWhile_append_of_pos hbody, htake, hdrop, List.append_nil]
  | @quoted body s hs =>
    obtain ⟨rfl, rfl⟩ := List.cons.inj hcs
    rw [if_pos rfl, List.append_assoc, List.singleton_append,
      Literal.read_eq_ok_iff.2 ⟨body, rfl, hs⟩]
    rfl
  | @raw body hm =>
    obtain ⟨rfl, rfl⟩ := List.cons.inj hcs
    rw [if_neg (by decide), if_pos rfl, List.append_assoc, List.singleton_append,
      readRaw_eq_ok_iff.2 ⟨body, rfl, hm, rfl⟩]
    rfl

/-- A word that is read is spelled at the front of the text. -/
theorem spelled_of_readWord {w : Word} {c : Char} {cs rest : List Char}
    (h : readWord c cs = .ok (w, rest)) :
    ∃ body, cs = body ++ rest ∧ Spelled (c :: body) w := by
  unfold readWord at h
  simp only [beq_iff_eq] at h
  split at h
  · rename_i hc
    subst hc
    obtain ⟨_, hr, ⟨⟩⟩ := map_eq_ok_iff.1 h
    obtain ⟨body, rfl, hs⟩ := Literal.read_eq_ok_iff.1 hr
    exact ⟨body ++ ['"'], by simp, .quoted hs⟩
  split at h
  · rename_i hc
    subst hc
    obtain ⟨_, hr, ⟨⟩⟩ := map_eq_ok_iff.1 h
    obtain ⟨body, rfl, hm, hs⟩ := readRaw_eq_ok_iff.1 hr
    rw [hs]
    exact ⟨body ++ [rawMark], by simp, .raw hm⟩
  split at h
  · rename_i hc
    obtain ⟨rfl, rfl⟩ := Prod.mk.inj (Except.ok.inj h)
    exact ⟨_, List.takeWhile_append_dropWhile.symm, .name hc fun d hd => List.mem_takeWhile_imp hd⟩
  · cases h

/-! ## Words up to the closing braces -/

/-- Words may have a blank before them. -/
theorem Spread.blank {c : Char} {cs : List Char} {words : List Word} (hc : isSpace c = true)
    (h : Spread cs words) : Spread (c :: cs) words := by
  cases h with
  | none hg => exact .none (List.forall_mem_cons.2 ⟨hc, hg⟩)
  | @word gap cs w rest words hg hw hr hs =>
    show Spread (c :: gap ++ cs ++ rest) (w :: words)
    exact .word (List.forall_mem_cons.2 ⟨hc, hg⟩) hw hr hs

/-- Words do not start like a trim mark or a comment. -/
theorem Spread.starts {cs : List Char} {words : List Word} (h : Spread cs words)
    (hne : words ≠ []) : ∃ c rest, cs = c :: rest ∧ c ≠ '-' ∧ c ≠ '/' := by
  cases h with
  | none => exact absurd rfl hne
  | @word gap cs w rest words hg hw _ _ =>
    cases gap with
    | nil =>
      obtain ⟨c, body, rfl, _, hminus, hslash, _⟩ := hw.starts
      exact ⟨c, body ++ rest, rfl, hminus, hslash⟩
    | cons c gap =>
      have hc := hg c List.mem_cons_self
      refine ⟨c, gap ++ cs ++ rest, rfl, ?_, ?_⟩ <;> rintro rfl <;> cases hc

/-- Words remain as they are without a blank before them. -/
theorem Spread.tail {c : Char} {cs : List Char} {words : List Word} (hc : isSpace c = true)
    (h : Spread (c :: cs) words) : Spread cs words := by
  generalize hall : c :: cs = all at h
  cases h with
  | none hg =>
    subst hall
    exact .none fun d hd => hg d (List.mem_cons_of_mem _ hd)
  | @word gap body w rest words hg hw hr hs =>
    cases gap with
    | nil =>
      obtain ⟨d, body, rfl, _, _, _, hd⟩ := hw.starts
      rw [(List.cons.inj hall).1, hd] at hc
      cases hc
    | cons d gap =>
      rw [(List.cons.inj hall).2]
      exact .word (fun d hd => hg d (List.mem_cons_of_mem _ hd)) hw hr hs

/-- A blank before words is read over. -/
theorem readWords_blank {spaced : Bool} {c : Char} {cs : List Char} (hc : isSpace c = true) :
    readWords spaced (c :: cs) = readWords true cs := by
  have hclose : ∀ rest, c = '}' → cs = '}' :: rest → False := by
    rintro rest rfl _
    cases hc
  have hminus : (c == '-') = false := by
    rw [beq_eq_false_iff_ne]
    rintro rfl
    cases hc
  rw [readWords]
  · simp [hminus, hc]
  · exact hclose

/-- Blanks before words are read over, and separate them. -/
theorem readWords_of_blanks {spaced : Bool} {gap cs : List Char} (h : Blanks gap) :
    readWords spaced (gap ++ cs) = readWords (spaced || !gap.isEmpty) cs := by
  induction gap generalizing spaced with
  | nil => rw [List.isEmpty_nil, Bool.not_true, Bool.or_false, List.nil_append]
  | cons c gap ih =>
    obtain ⟨hc, hg⟩ := List.forall_mem_cons.1 h
    rw [List.cons_append, readWords_blank hc, ih hg, List.isEmpty_cons]
    simp

/-- A word after a blank is read as the first of the words that follow. -/
theorem readWords_of_spelled {cs rest : List Char} {w : Word} (h : Spelled cs w)
    (hrest : ∀ d ∈ rest.head?, isNameChar d = false) :
    readWords true (cs ++ rest) =
      (readWords false rest).map fun r => { r with words := w :: r.words } := by
  obtain ⟨c, body, rfl, hbrace, hminus, _, hs⟩ := h.starts
  have hword := readWord_of_spelled h hrest
  rw [List.cons_append, readWords]
  · simp only [beq_eq_false_iff_ne.2 hminus, hs, Bool.false_and, Bool.not_true,
      Bool.false_eq_true, if_false]
    split
    · rename_i hf
      rw [hword] at hf
      cases hf
    · rename_i hw
      rw [hword] at hw
      obtain ⟨rfl, rfl⟩ := Prod.mk.inj (Except.ok.inj hw)
      rfl
  · rintro tail rfl
    exact absurd rfl hbrace

/-- Closing braces end the words, after a mark only if a blank stands before it. -/
theorem readWords_close {spaced right : Bool} {rest : List Char}
    (h : right = true → spaced = true) :
    readWords spaced (trimMark right ++ '}' :: '}' :: rest) = .ok ⟨[], right, rest⟩ := by
  cases right with
  | false => rw [trimMark, if_neg (by decide), List.nil_append, readWords]
  | true =>
    obtain rfl := h rfl
    rw [trimMark, if_pos rfl, List.singleton_append, readWords]
    · rfl
    · rintro tail h
      cases h

/-- What stands after a word is nothing or starts with a blank. -/
theorem Spread.eq_nil_or_starts {cs : List Char} {words : List Word} (h : Spread cs words)
    (hs : words ≠ [] → Starts isSpace cs) : cs = [] ∨ Starts isSpace cs := by
  cases h with
  | none hg =>
    cases cs with
    | nil => exact .inl rfl
    | cons c cs => exact .inr (starts_cons.2 (hg c List.mem_cons_self))
  | word => exact .inr (hs (List.cons_ne_nil _ _))

/-- A name ends where the next blank, the trim mark or the closing braces stand. -/
theorem isNameChar_eq_false_of_head? {after rest : List Char} {right : Bool}
    (h : after = [] ∨ Starts isSpace after) :
    ∀ d ∈ (after ++ (trimMark right ++ '}' :: '}' :: rest)).head?, isNameChar d = false := by
  rintro d hd
  rcases h with rfl | ⟨c, hc, hs⟩
  · cases right with
    | false =>
      obtain rfl := Option.some.inj hd
      rfl
    | true =>
      obtain rfl := Option.some.inj hd
      rfl
  · obtain ⟨tail, rfl⟩ := List.head?_eq_some_iff.1 hc
    obtain rfl := Option.some.inj hd
    rw [Bool.eq_false_iff]
    intro hn
    rw [isSpace_of_isNameChar hn] at hs
    cases hs

/-- Words are read as they are spread, given a blank before the first and before a trim mark. -/
theorem readWords_of_spread {spaced right : Bool} {inner rest : List Char} {words : List Word}
    (h : Spread inner words) (hstart : spaced = false → words ≠ [] → Starts isSpace inner)
    (hend : right = true → Ends isSpace inner ∨ inner = [] ∧ spaced = true) :
    readWords spaced (inner ++ (trimMark right ++ '}' :: '}' :: rest)) =
      .ok ⟨words, right, rest⟩ := by
  induction h generalizing spaced with
  | @none gap hg =>
    rw [readWords_of_blanks hg]
    refine readWords_close fun hr => ?_
    rcases hend hr with he | ⟨_, hs⟩
    · cases gap with
      | nil => exact absurd he ends_nil
      | cons c gap => rw [List.isEmpty_cons, Bool.not_false, Bool.or_true]
    · rw [hs, Bool.true_or]
  | @word gap cs w after words hg hw hr hs ih =>
    obtain ⟨c, body, rfl, _, _, _, hc⟩ := hw.starts
    -- A word may stand here: a blank was read before, or there is one in the gap.
    have hspaced : (spaced || !gap.isEmpty) = true := by
      cases gap with
      | nil =>
        cases spaced with
        | true => rfl
        | false =>
          have := starts_cons.1 (hstart rfl (List.cons_ne_nil _ _))
          rw [hc] at this
          cases this
      | cons d gap => rw [List.isEmpty_cons, Bool.not_false, Bool.or_true]
    -- No word ends in a blank, so the one that the trim mark asks for stands after this word.
    have hend' : right = true → Ends isSpace after ∨ after = [] ∧ false = true := by
      intro hright
      rcases hend hright with he | ⟨he, _⟩
      · cases after with
        | nil =>
          rw [List.append_nil, ends_append (List.cons_ne_nil _ _)] at he
          exact absurd he hw.not_ends
        | cons d after => exact .inl ((ends_append (List.cons_ne_nil _ _)).1 he)
      · simp at he
    rw [List.append_assoc, List.append_assoc, readWords_of_blanks hg, hspaced,
      readWords_of_spelled hw (isNameChar_eq_false_of_head? (hr.eq_nil_or_starts hs)),
      ih (fun _ => hs) hend']
    rfl

/-- What reads as words spells them. -/
theorem spread_of_readWords {spaced : Bool} {cs : List Char} {r : Words}
    (h : readWords spaced cs = .ok r) :
    ∃ inner, cs = inner ++ (trimMark r.trimsRight ++ '}' :: '}' :: r.rest) ∧ Spread inner r.words ∧
      (spaced = false → r.words ≠ [] → Starts isSpace inner) ∧
      (r.trimsRight = true → Ends isSpace inner ∨ inner = [] ∧ spaced = true) := by
  -- One case for each branch of the reader; what was spread is put together from the end.
  fun_induction readWords spaced cs generalizing r with
  | case1 => cases h
  | case2 spaced rest =>
    cases h
    exact ⟨[], rfl, .none fun _ hc => absurd hc List.not_mem_nil, fun _ hw => absurd rfl hw,
      fun hr => absurd hr Bool.false_ne_true⟩
  | case3 spaced c rest _ hc =>
    cases h
    simp only [Bool.and_eq_true, beq_iff_eq] at hc
    obtain ⟨⟨rfl, hs⟩, htake⟩ := hc
    refine ⟨[], ?_, .none fun _ hc => absurd hc List.not_mem_nil, fun _ hw => absurd rfl hw,
      fun _ => .inr ⟨rfl, hs⟩⟩
    have := (List.take_append_drop 2 rest).symm
    rw [htake] at this
    exact congrArg ('-' :: ·) this
  -- A blank: the trim mark may ask for one before it, and it may be this one.
  | case4 spaced c rest _ _ hc ih =>
    obtain ⟨inner, rfl, hs, _, hend⟩ := ih h
    refine ⟨c :: inner, rfl, hs.blank hc, fun _ _ => starts_cons.2 hc, fun hr => .inl ?_⟩
    rcases hend hr with he | ⟨rfl, _⟩
    · cases inner with
      | nil => exact absurd he ends_nil
      | cons d inner =>
        show Ends isSpace ([c] ++ d :: inner)
        exact (ends_append (List.cons_ne_nil d inner)).2 he
    · show Ends isSpace ([] ++ [c])
      exact ends_concat.2 hc
  | case5 => cases h
  | case6 => cases h
  -- A word, which takes a blank before it unless it is the first.
  | case7 spaced c rest _ _ _ hspaced w after hw ih =>
    obtain ⟨r', hr, rfl⟩ := map_eq_ok_iff.1 h
    obtain ⟨inner, rfl, hs, hstart, hend⟩ := ih hr
    obtain ⟨body, rfl, hspelled⟩ := spelled_of_readWord hw
    have hword : Spread ([] ++ (c :: body) ++ inner) (w :: r'.words) :=
      .word (fun _ hc => absurd hc List.not_mem_nil) hspelled hs (hstart rfl)
    refine ⟨c :: body ++ inner, ?_, hword, ?_, ?_⟩
    · simp
    · rintro rfl
      simp at hspaced
    · intro hright
      rcases hend hright with he | ⟨_, hf⟩
      · refine .inl ((ends_append ?_).2 he)
        rintro rfl
        exact ends_nil he
      · cases hf

/-- A text reads as the words that are spread in it up to its closing braces. -/
theorem readWords_eq_ok_iff {spaced : Bool} {cs : List Char} {r : Words} :
    readWords spaced cs = .ok r ↔
      ∃ inner, cs = inner ++ (trimMark r.trimsRight ++ '}' :: '}' :: r.rest) ∧
        Spread inner r.words ∧ (spaced = false → r.words ≠ [] → Starts isSpace inner) ∧
        (r.trimsRight = true → Ends isSpace inner ∨ inner = [] ∧ spaced = true) := by
  constructor
  · exact spread_of_readWords
  · rintro ⟨inner, rfl, hs, hstart, hend⟩
    exact readWords_of_spread hs hstart hend

end Stencil.Template
