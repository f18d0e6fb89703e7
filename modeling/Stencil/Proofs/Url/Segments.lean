import Stencil.Proofs.Text.Split
import Stencil.Proofs.Url.Percent
import Stencil.Url.Segments

/-!
# Texts as segments of paths

A text becomes one segment of a path, from which it can be read back, unless it stands for a
directory once the characters that no address has are left out.
-/

namespace Stencil.Url

open Text

/-- A text without the characters that are left out of addresses. -/
def remaining (text : String) : List Char := text.toList.filter (!isLeftOut ·)

/-- The segment that a text becomes. -/
def segmentOf (text : String) : List Char := percentEncode inSpecialSegment (remaining text)

/-- A text that names something in a directory, also without the characters that are left out. -/
structure Names (text : String) : Prop where
  ne_nil : remaining text ≠ []
  ne_dot : remaining text ≠ ['.']
  ne_doubleDot : remaining text ≠ ['.', '.']

variable {text : String} {segments : List (List Char)}

/-! ## Segments and texts -/

/-- Texts become the same segment if the same remains of them. -/
theorem segmentOf_eq_iff {text' : String} :
    segmentOf text = segmentOf text' ↔ remaining text = remaining text' :=
  (percentEncode_injective rfl).eq_iff

theorem slash_not_mem_segmentOf (text : String) : '/' ∉ segmentOf text :=
  not_mem_percentEncode rfl (by decide) (by decide) _

theorem Names.segmentOf_ne_nil (h : Names text) : segmentOf text ≠ [] :=
  mt (percentEncode_eq_nil_iff rfl).1 h.ne_nil

/-- A segment that stays where it is is a dot, also with its digits. -/
theorem isDot_iff {segment : List Char} :
    isDot segment = true ↔ segment ∈ [['.'], ['%', '2', 'e'], ['%', '2', 'E']] := by
  simp [isDot, or_assoc]

/-- Every spelling of a dot reads as a dot, so no other text becomes one. -/
theorem remaining_of_isDot (h : isDot (segmentOf text) = true) : remaining text = ['.'] := by
  have hdecode : ∀ segment ∈ [['.'], ['%', '2', 'e'], ['%', '2', 'E']],
      percentDecode (Utf8.encode segment) = Utf8.encode ['.'] := by
    decide
  have := hdecode _ (isDot_iff.1 h)
  rw [segmentOf, percentDecode_percentEncode rfl] at this
  exact Utf8.encode_injective this

/-- Only two dots become a segment that goes up. -/
theorem remaining_of_isDoubleDot (h : isDoubleDot (segmentOf text) = true) :
    remaining text = ['.', '.'] := by
  have hdecode : ∀ a ∈ [['.'], ['%', '2', 'e'], ['%', '2', 'E']],
      ∀ b ∈ [['.'], ['%', '2', 'e'], ['%', '2', 'E']],
        percentDecode (Utf8.encode (a ++ b)) = Utf8.encode ['.', '.'] := by
    decide
  simp only [isDoubleDot, List.any_eq_true, Bool.and_eq_true, isDot_iff] at h
  obtain ⟨n, _, ha, hb⟩ := h
  have := hdecode _ ha _ hb
  rw [List.take_append_drop, segmentOf, percentDecode_percentEncode rfl] at this
  exact Utf8.encode_injective this

theorem Names.isDot_eq_false (h : Names text) : isDot (segmentOf text) = false :=
  Bool.eq_false_iff.2 fun hd => h.ne_dot (remaining_of_isDot hd)

theorem Names.isDoubleDot_eq_false (h : Names text) : isDoubleDot (segmentOf text) = false :=
  Bool.eq_false_iff.2 fun hd => h.ne_doubleDot (remaining_of_isDoubleDot hd)

/-! ## Going on from a directory -/

/-- The segments that stand before those of the files in a directory. -/
def asDirectory (segments : List (List Char)) : List (List Char) :=
  if segments = [[]] then [] else segments

/-- A segment that is not empty is a directory as it stands. -/
theorem asDirectory_append {segment : List Char} (h : segment ≠ []) :
    asDirectory (segments ++ [segment]) = segments ++ [segment] := by
  rw [asDirectory, if_neg]
  intro he
  rw [← List.nil_append [[]]] at he
  exact h (List.singleton_inj.1 (List.append_inj_right' he rfl))

/-- A text that names something becomes the last segment. -/
theorem Names.pushSegment (h : Names text) :
    pushSegment segments text = asDirectory segments ++ [segmentOf text] := by
  have hdot : ¬ (text == "." || text == "..") = true := by
    rw [Bool.or_eq_true, beq_iff_eq, beq_iff_eq]
    rintro (rfl | rfl)
    · exact h.ne_dot rfl
    · exact h.ne_doubleDot rfl
  have hbefore : (if segments == [[]] then [] else segments) = asDirectory segments := by
    simp only [asDirectory, beq_iff_eq]
  rw [Url.pushSegment, if_neg hdot, hbefore]
  show place (asDirectory segments) [segmentOf text] = _
  simp [place, closing, enter, h.isDot_eq_false, h.isDoubleDot_eq_false]

/-- Texts that name something become the last segments, in their order. -/
theorem foldl_pushSegment {texts : List String} (h : ∀ text ∈ texts, Names text)
    (hne : texts ≠ []) :
    texts.foldl pushSegment segments = asDirectory segments ++ texts.map segmentOf := by
  induction texts generalizing segments with
  | nil => exact absurd rfl hne
  | cons text texts ih =>
    obtain ⟨ht, hrest⟩ := List.forall_mem_cons.1 h
    rw [List.foldl_cons, ht.pushSegment, List.map_cons]
    cases texts with
    | nil => rfl
    | cons next texts =>
      rw [ih hrest (List.cons_ne_nil _ _), asDirectory_append ht.segmentOf_ne_nil,
        List.append_assoc, List.singleton_append]

/-! ## Paths and addresses -/

/-- The part of a path below a directory can be read off the path. -/
theorem Path.text_append_inj (dir : List (List Char)) {xs ys : List (List Char)}
    (hx : ∀ s ∈ xs, '/' ∉ s) (hy : ∀ s ∈ ys, '/' ∉ s)
    (h : (Path.segments (dir ++ xs)).text = (Path.segments (dir ++ ys)).text) : xs = ys := by
  simp only [Path.text, List.flatMap_append, List.append_cancel_left_eq] at h
  have := congrArg (split '/') h
  rw [split_flatMap hx, split_flatMap hy] at this
  exact (List.cons.inj this).2

/-- Whether a path could be taken for an authority is decided above any file in it. -/
theorem Path.take_two_append (dir xs ys : List (List Char)) {x y : List Char} (hx : x ≠ [])
    (hx' : '/' ∉ x) (hy : y ≠ []) (hy' : '/' ∉ y) :
    ((Path.segments (dir ++ x :: xs)).text.take 2 == ['/', '/']) =
      ((Path.segments (dir ++ y :: ys)).text.take 2 == ['/', '/']) := by
  have hfirst {s : List Char} {rest : List (List Char)} (hs : s ≠ []) (hs' : '/' ∉ s) :
      ((Path.segments (s :: rest)).text.take 2 == ['/', '/']) = false := by
    cases s with
    | nil => exact absurd rfl hs
    | cons c s =>
      have hc : c ≠ '/' := by
        rintro rfl
        exact hs' List.mem_cons_self
      simp [Path.text, hc]
  cases dir with
  | nil => rw [List.nil_append, List.nil_append, hfirst hx hx', hfirst hy hy']
  | cons d dir =>
    cases d with
    | nil => cases dir <;> simp [Path.text]
    | cons c d => simp [Path.text]

/-- Addresses that differ below a directory have different texts. -/
theorem text_append_inj {u : Url} {dir xs ys : List (List Char)} {x y : List Char}
    (hx : ∀ s ∈ x :: xs, s ≠ [] ∧ '/' ∉ s) (hy : ∀ s ∈ y :: ys, s ≠ [] ∧ '/' ∉ s)
    (h : ({ u with path := .segments (dir ++ x :: xs) } : Url).text =
      ({ u with path := .segments (dir ++ y :: ys) } : Url).text) : x :: xs = y :: ys := by
  obtain ⟨hx₀, hx₁⟩ := hx x List.mem_cons_self
  obtain ⟨hy₀, hy₁⟩ := hy y List.mem_cons_self
  refine Path.text_append_inj dir (fun s hs => (hx s hs).2) (fun s hs => (hy s hs).2) ?_
  have hchars := congrArg String.toList h
  simp only [text, String.toList_ofList, chars] at hchars
  rw [Path.take_two_append dir xs ys hx₀ hx₁ hy₀ hy₁] at hchars
  simpa using hchars

end Stencil.Url
