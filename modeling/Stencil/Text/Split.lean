/-!
# Splitting texts

A text is cut at every occurrence of a separator, so that it has one piece more than separators.
-/

namespace Stencil.Text

/-- The pieces of a text between the occurrences of a separator. -/
def split (separator : Char) : List Char → List (List Char)
  | [] => [[]]
  | c :: rest =>
    if c == separator then [] :: split separator rest
    else
      match split separator rest with
      | [] => [[c]]
      | piece :: pieces => (c :: piece) :: pieces

/-- The pieces of a string. -/
def splitString (separator : Char) (s : String) : List String :=
  (split separator s.toList).map String.ofList

theorem split_ne_nil (separator : Char) (cs : List Char) : split separator cs ≠ [] := by
  fun_cases split separator cs <;> simp [*]

/-- The pieces with the separator between them are the text again. -/
theorem intercalate_split (separator : Char) (cs : List Char) :
    [separator].intercalate (split separator cs) = cs := by
  fun_induction split separator cs with
  | case1 => rfl
  | case2 c rest h ih =>
    have hc : c = separator := by simpa using h
    cases hs : split separator rest with
    | nil => exact absurd hs (split_ne_nil _ _)
    | cons p ps =>
      rw [hs] at ih
      simp [List.intercalate, List.intersperse] at ih ⊢
      simp [hc, ih]
  | case3 c rest _ hs => exact absurd hs (split_ne_nil _ _)
  | case4 c rest _ p ps hs ih =>
    rw [hs] at ih
    cases ps <;> simp_all [List.intercalate, List.intersperse]

end Stencil.Text
