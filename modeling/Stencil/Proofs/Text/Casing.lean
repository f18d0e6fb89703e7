import Stencil.Proofs.Text.Numeral
import Stencil.Proofs.Text.Split
import Stencil.Text.Casing

/-!
# Texts with the same letters

The case of letters neither hides a dot nor makes one. So texts with the same letters are cut at
dots into pieces with the same letters.
-/

namespace Stencil.Text

/-- Texts have the same letters if they are the same in lower case. -/
theorem sameLetters_iff {s t : String} :
    sameLetters s t = true ↔ lower s.toList = lower t.toList :=
  beq_iff_eq

theorem sameLetters_symm {s t : String} (h : sameLetters s t = true) : sameLetters t s = true :=
  sameLetters_iff.2 (sameLetters_iff.1 h).symm

/-- Texts with the letters of a third one have the same letters. -/
theorem sameLetters_trans {s t u : String} (h : sameLetters s t = true)
    (h' : sameLetters t u = true) : sameLetters s u = true :=
  sameLetters_iff.2 ((sameLetters_iff.1 h).trans (sameLetters_iff.1 h'))

/-- Only a dot becomes a dot in lower case. -/
theorem foldCase_eq_dot_iff {c : Char} : foldCase c = '.' ↔ c = '.' := by
  unfold foldCase
  split
  · rename_i h
    simp only [Bool.and_eq_true, decide_eq_true_eq, le_iff_toNat_le, Char.reduceToNat] at h
    have hvalid : (c.toNat + 32).isValidChar := .inl (by omega)
    have hlower : (Char.ofNat (c.toNat + 32)).toNat = c.toNat + 32 := by
      rw [Char.ofNat, dif_pos hvalid]
      rfl
    rw [← Char.toNat_inj, ← Char.toNat_inj, hlower]
    simp only [Char.reduceToNat]
    omega
  · exact Iff.rfl

theorem dot_mem_lower {cs : List Char} : '.' ∈ lower cs ↔ '.' ∈ cs := by
  simp [lower, foldCase_eq_dot_iff]

/-- Texts with the same letters hold dots alike. -/
theorem dot_mem_of_sameLetters {s t : String} (h : sameLetters s t = true) (hs : '.' ∈ s.toList) :
    '.' ∈ t.toList := by
  rwa [← dot_mem_lower, ← sameLetters_iff.1 h, dot_mem_lower]

/-- The pieces between dots are in lower case those of the text in lower case. -/
theorem split_lower (cs : List Char) : split '.' (lower cs) = (split '.' cs).map lower := by
  induction cs with
  | nil => rfl
  | cons c cs ih =>
    rw [lower, List.map_cons, ← lower]
    by_cases hc : c = '.'
    · rw [foldCase_eq_dot_iff.2 hc, hc, split_cons_self, split_cons_self, ih]
      rfl
    · rw [split_cons_of_ne (mt foldCase_eq_dot_iff.1 hc), split_cons_of_ne hc, ih]
      cases split '.' cs <;> rfl

/-- Texts with the same letters have pieces with the same letters. -/
theorem splitString_sameLetters {s t : String} (h : sameLetters s t = true) :
    List.Forall₂ (fun a b => sameLetters a b = true) (splitString '.' s) (splitString '.' t) := by
  have hpieces : (split '.' s.toList).map lower = (split '.' t.toList).map lower := by
    rw [← split_lower, ← split_lower, sameLetters_iff.1 h]
  rw [splitString, splitString, List.forall₂_map_left_iff, List.forall₂_map_right_iff]
  rw [← List.forall₂_eq_eq_eq, List.forall₂_map_left_iff, List.forall₂_map_right_iff] at hpieces
  refine hpieces.imp fun a b hab => ?_
  rw [sameLetters_iff, String.toList_ofList, String.toList_ofList]
  exact hab

end Stencil.Text
