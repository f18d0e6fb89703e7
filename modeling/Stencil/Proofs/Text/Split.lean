import Stencil.Text.Split

/-!
# Pieces and texts

A text and its pieces determine each other, as long as the separator stands in no piece.
-/

namespace Stencil.Text

variable {separator : Char} {cs : List Char} {pieces : List (List Char)}

/-- Splitting at a character is splitting as lists do. -/
theorem split_eq_splitOn : split separator cs = cs.splitOn separator := by
  induction cs with
  | nil => rfl
  | cons c cs ih =>
    rw [split, List.splitOn_cons_eq_if_modifyHead, ih]
    split
    · rfl
    · cases hs : cs.splitOn separator with
      | nil => exact absurd hs (List.splitOn_ne_nil _ _)
      | cons piece pieces => rfl

/-- A separator at the front leaves an empty first piece. -/
theorem split_cons_self (separator : Char) (cs : List Char) :
    split separator (separator :: cs) = [] :: split separator cs := by
  rw [split, if_pos (beq_self_eq_true separator)]

/-- Any other character at the front belongs to the first piece. -/
theorem split_cons_of_ne {c : Char} (h : c ≠ separator) (cs : List Char) :
    split separator (c :: cs) = (split separator cs).modifyHead (c :: ·) := by
  rw [split, if_neg (by simpa using h)]
  cases hs : split separator cs with
  | nil => exact absurd hs (split_ne_nil _ _)
  | cons piece pieces => rfl

/-- A text without separators is its only piece. -/
theorem split_of_not_mem (h : separator ∉ cs) : split separator cs = [cs] := by
  induction cs with
  | nil => rfl
  | cons c cs ih =>
    rw [List.mem_cons, not_or] at h
    rw [split_cons_of_ne (Ne.symm h.1), ih h.2]
    rfl

/-- The pieces of two texts with a separator between them are those of both. -/
theorem split_append_cons (separator : Char) (cs ds : List Char) :
    split separator (cs ++ separator :: ds) = split separator cs ++ split separator ds := by
  simp only [split_eq_splitOn, List.splitOn_append_cons_self]

/-- Pieces that follow each other are joined to their joined texts with a separator between
these. -/
theorem intercalate_append (separator : Char) {as bs : List (List Char)} (ha : as ≠ [])
    (hb : bs ≠ []) : [separator].intercalate (as ++ bs) =
      [separator].intercalate as ++ separator :: [separator].intercalate bs := by
  induction as with
  | nil => exact absurd rfl ha
  | cons a as ih =>
    by_cases has : as = []
    · rw [has, List.singleton_append, List.intercalate_cons_of_ne_nil hb,
        List.intercalate_singleton, List.append_assoc, List.singleton_append]
    · have hne : as ++ bs ≠ [] := List.append_ne_nil_of_left_ne_nil has bs
      rw [List.cons_append, List.intercalate_cons_of_ne_nil hne, ih has,
        List.intercalate_cons_of_ne_nil has]
      simp only [List.append_assoc]

/-- There is one piece more than there are separators. -/
theorem length_split (separator : Char) (cs : List Char) :
    (split separator cs).length = cs.count separator + 1 := by
  induction cs with
  | nil => rfl
  | cons c cs ih =>
    by_cases hc : c = separator
    · rw [hc, split_cons_self, List.length_cons, ih, List.count_cons_self]
    · rw [split_cons_of_ne hc, List.length_modifyHead, ih, List.count_cons_of_ne hc]

/-- No piece holds a separator. -/
theorem not_mem_of_mem_split {piece : List Char} (h : piece ∈ split separator cs) :
    separator ∉ piece := by
  induction cs generalizing piece with
  | nil =>
    rw [List.mem_singleton.1 h]
    exact List.not_mem_nil
  | cons c cs ih =>
    rw [split] at h
    split at h
    · rcases List.mem_cons.1 h with rfl | h
      · exact List.not_mem_nil
      · exact ih h
    · rename_i hc
      cases hs : split separator cs with
      | nil => exact absurd hs (split_ne_nil _ _)
      | cons first rest =>
        rw [hs] at h ih
        rcases List.mem_cons.1 h with rfl | h
        · rw [List.mem_cons, not_or]
          refine ⟨?_, ih List.mem_cons_self⟩
          rintro rfl
          exact hc (beq_self_eq_true _)
        · exact ih (List.mem_cons_of_mem _ h)

/-- A text with the separator before each piece is cut into these pieces, after an empty one. -/
theorem split_flatMap (h : ∀ piece ∈ pieces, separator ∉ piece) :
    split separator (pieces.flatMap (separator :: ·)) = [] :: pieces := by
  rw [split_eq_splitOn]
  cases pieces with
  | nil => rfl
  | cons piece rest =>
    have hjoin : (piece :: rest).flatMap (separator :: ·) =
        separator :: [separator].intercalate (piece :: rest) := by
      induction rest generalizing piece with
      | nil => simp
      | cons next rest ih =>
        have hrest := ih next fun p hp => h p (List.mem_cons_of_mem _ hp)
        rw [List.flatMap_cons, hrest, List.intercalate_cons_cons]
        simp
    rw [hjoin, List.splitOn_cons_eq_if_modifyHead, if_pos (beq_self_eq_true _),
      List.splitOn_intercalate _ h (List.cons_ne_nil _ _)]

end Stencil.Text
