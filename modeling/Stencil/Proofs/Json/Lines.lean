import Stencil.Proofs.Json.Locating
import Stencil.Proofs.Json.Passes
import Stencil.Proofs.Text.Split

/-!
# Lines stay in place

Removing comments and trailing commas takes characters out of a line and puts blanks into it, and
never touches the end of a line. So a text keeps its lines, each of them with what it had or less,
and the line that a fault is in is that line of the text which it is found in afterwards.
-/

namespace Stencil.Json

/-- A text that comes from another one: characters are taken out of lines, and blanks are put into
them. -/
inductive InPlace : (out cs : List Char) → Prop
  | nil : InPlace [] []
  | kept {c out cs} : InPlace out cs → InPlace (c :: out) (c :: cs)
  | taken {c out cs} : c ≠ '\n' → InPlace out cs → InPlace out (c :: cs)
  | blank {c out cs} : c ≠ '\n' → Text.isBlank c = true → InPlace out cs → InPlace (c :: out) cs

/-- What is left of a line: blanks apart, no character that the line does not have, and in the same
order. -/
def LineOf (out line : List Char) : Prop :=
  (out.filter fun c => !Text.isBlank c).Sublist line

variable {cs out rest comment left : List Char} {c : Char}

namespace LineOf

theorem nil : LineOf [] [] := List.Sublist.refl _

/-- A character of the line may be kept. -/
theorem kept (h : LineOf out cs) : LineOf (c :: out) (c :: cs) := by
  unfold LineOf
  rw [List.filter_cons]
  split
  · exact h.cons_cons c
  · exact h.cons c

theorem taken (h : LineOf out cs) : LineOf out (c :: cs) := h.cons c

/-- A blank may be put into the line. -/
theorem blank (hc : Text.isBlank c = true) (h : LineOf out cs) : LineOf (c :: out) cs := by
  unfold LineOf
  rwa [List.filter_cons_of_neg (by simp [hc])]

end LineOf

/-- Lists stay related if their heads are changed alike. -/
theorem forall₂_modifyHead {α β : Type} {R : α → β → Prop} {f : α → α} {g : β → β}
    (hfg : ∀ {a b}, R a b → R (f a) (g b)) {as : List α} {bs : List β} (h : List.Forall₂ R as bs) :
    List.Forall₂ R (as.modifyHead f) (bs.modifyHead g) := by
  cases h with
  | nil => exact .nil
  | cons h hs => exact .cons (hfg h) hs

namespace InPlace

/-- Line ends are neither taken out nor put in. -/
theorem count_eq (h : InPlace out cs) : out.count '\n' = cs.count '\n' := by
  induction h with
  | nil => rfl
  | kept _ ih => rw [List.count_cons, List.count_cons, ih]
  | taken hc _ ih => rw [List.count_cons_of_ne hc, ih]
  | blank hc _ _ ih => rw [List.count_cons_of_ne hc, ih]

/-- What is left has as many lines, each of them what is left of its own. -/
theorem lines (h : InPlace out cs) :
    List.Forall₂ LineOf (Text.split '\n' out) (Text.split '\n' cs) := by
  induction h with
  | nil => exact .cons .nil .nil
  | @kept c out cs _ ih =>
    by_cases hc : c = '\n'
    · rw [hc, Text.split_cons_self, Text.split_cons_self]
      exact .cons .nil ih
    · rw [Text.split_cons_of_ne hc, Text.split_cons_of_ne hc]
      exact forall₂_modifyHead LineOf.kept ih
  | @taken c out cs hc _ ih =>
    rw [Text.split_cons_of_ne hc]
    simpa using forall₂_modifyHead (f := id) LineOf.taken ih
  | @blank c out cs hc hblank _ ih =>
    rw [Text.split_cons_of_ne hc]
    simpa using forall₂_modifyHead (g := id) (LineOf.blank hblank) ih

/-- The line ends of a comment may be all that is left of it. -/
theorem body (h : InPlace out rest) (body : List Char) :
    InPlace (body.filter (· == '\n') ++ out) (body ++ rest) := by
  induction body with
  | nil => exact h
  | cons c body ih =>
    rw [List.filter_cons]
    split
    · exact ih.kept
    · rename_i hc
      exact ih.taken (by simpa using hc)

/-- Taking a comment out of a text keeps its lines in place. -/
theorem of_comment (h : InPlace out rest) (hcomment : Comment comment rest left) :
    InPlace (left ++ out) (comment ++ rest) := by
  have hslash : '/' ≠ '\n' := by decide
  have hstar : '*' ≠ '\n' := by decide
  have hnone {body : List Char} (hbody : '\n' ∉ body) : body.filter (· == '\n') = [] := by
    simpa [List.filter_eq_nil_iff] using fun c hc (heq : c = '\n') => hbody (heq ▸ hc)
  have hblock {rest : List Char} (h : InPlace out rest) (body : List Char) :
      InPlace (body.filter (· == '\n') ++ [' '] ++ out) ('/' :: '*' :: body ++ rest) := by
    rw [List.append_assoc]
    exact (((h.blank (by decide) rfl).body body).taken hstar).taken hslash
  cases hcomment with
  | @line body rest hbody =>
    have hleft := h.body body
    rw [hnone hbody] at hleft
    exact (hleft.taken hslash).taken hslash
  | @lastLine body hbody =>
    have hleft := h.body body
    rw [hnone hbody] at hleft
    exact (hleft.taken hslash).taken hslash
  | @block body rest =>
    have hend := hblock ((h.taken hslash).taken hstar) body
    simpa using hend
  | unclosed => exact hblock h _

/-- What both texts begin with stays in place. -/
theorem append (h : InPlace out rest) (same : List Char) :
    InPlace (same ++ out) (same ++ rest) := by
  induction same with
  | nil => exact h
  | cons c same ih => exact ih.kept

end InPlace

/-- Stripping keeps every line in its place. -/
theorem inPlace_stripChars (cs : List Char) : InPlace (stripChars cs) cs := by
  obtain ⟨mid, h⟩ := exists_uncommented cs
  -- The first pass goes through the text as the scanner does.
  induction h with
  | nil =>
    rw [stripChars_nil]
    exact .nil
  | quoted hliteral _ ih =>
    rw [hliteral.stripChars]
    exact ih.append _
  | comment hcomment _ ih =>
    rw [hcomment.stripChars]
    exact ih.of_comment hcomment
  | other hquote hcomment _ ih =>
    rw [stripChars_other hquote hcomment]
    split
    · rename_i h
      rw [h.1]
      exact ih.taken (by decide)
    · exact ih.kept

/-- Without its comments and trailing commas a text has the lines it had, and each of them has no
character that is no blank but its own, in their order. So a document that cannot be read goes wrong
in the line of the text that the fault tells. -/
theorem lines_in_place (text : String) :
    (stripComments text).toList.count '\n' = text.toList.count '\n' ∧
      List.Forall₂ LineOf (Text.split '\n' (stripComments text).toList)
        (Text.split '\n' text.toList) ∧
      ∀ shape fault, read shape (stripComments text) = .error fault →
        ∃ k out line, fault.position.line = k + 1 ∧
          (Text.split '\n' (stripComments text).toList)[k]? = some out ∧
          (Text.split '\n' text.toList)[k]? = some line ∧ LineOf out line := by
  have hplace : InPlace (stripComments text).toList text.toList := by
    rw [stripComments, String.toList_ofList]
    exact inPlace_stripChars _
  refine ⟨hplace.count_eq, hplace.lines, fun shape fault h => ?_⟩
  obtain ⟨hfirst, hlast⟩ := within_of_read h
  obtain ⟨k, hk⟩ : ∃ k, fault.position.line = k + 1 := ⟨_, (Nat.sub_add_cancel hfirst).symm⟩
  have hout : k < (Text.split '\n' (stripComments text).toList).length := by
    rw [Text.length_split]
    omega
  have hline : k < (Text.split '\n' text.toList).length := hplace.lines.length_eq ▸ hout
  exact ⟨k, _, _, hk, List.getElem?_eq_getElem hout, List.getElem?_eq_getElem hline,
    hplace.lines.get hout hline⟩

end Stencil.Json
