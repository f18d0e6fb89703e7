import Mathlib.Data.List.Basic
import Mathlib.Data.List.TakeWhile
import Stencil.Text.Blank

/-!
# Trimming

A trimmed text is the one between the longest runs of blanks at its ends: it differs from the whole
by blanks only, and has none left at the ends that are trimmed.
-/

namespace Stencil.Text

variable {p : Char → Bool} {c : Char} {cs ds kept : List Char}

/-- A text that starts with a character of a class. -/
def Starts (p : Char → Bool) (cs : List Char) : Prop := ∃ c ∈ cs.head?, p c = true

/-- A text that ends with a character of a class. -/
def Ends (p : Char → Bool) (cs : List Char) : Prop := ∃ c ∈ cs.getLast?, p c = true

instance : Decidable (Starts p cs) :=
  decidable_of_iff (cs.head?.any p = true) (Option.any_eq_true _ _)

instance : Decidable (Ends p cs) :=
  decidable_of_iff (cs.getLast?.any p = true) (Option.any_eq_true _ _)

@[simp] theorem starts_cons : Starts p (c :: cs) ↔ p c = true := by simp [Starts]

@[simp] theorem ends_nil : ¬ Ends p [] := by simp [Ends]

@[simp] theorem ends_concat : Ends p (cs ++ [c]) ↔ p c = true := by simp [Ends]

theorem ends_append (h : ds ≠ []) : Ends p (cs ++ ds) ↔ Ends p ds := by
  rw [Ends, List.getLast?_append_of_ne_nil _ h, Ends]

theorem starts_reverse : Starts p cs.reverse ↔ Ends p cs := by
  rw [Starts, List.head?_reverse, Ends]

/-- What is left at the end of a text is all of it but a run of blanks, and starts with none. -/
theorem trimStart_eq_iff :
    trimStart p cs = kept ↔
      ∃ gap, cs = gap ++ kept ∧ (∀ c ∈ gap, p c = true) ∧ ¬ Starts p kept := by
  unfold trimStart
  constructor
  · rintro rfl
    refine ⟨cs.takeWhile p, List.takeWhile_append_dropWhile.symm,
      fun c hc => List.mem_takeWhile_imp hc, ?_⟩
    rintro ⟨c, hc, hp⟩
    have := List.head?_dropWhile_not p cs
    rw [Option.mem_def.1 hc] at this
    simp [hp] at this
  · rintro ⟨gap, rfl, hg, hk⟩
    rw [List.dropWhile_append_of_pos hg]
    cases kept with
    | nil => rfl
    | cons c kept => rw [List.dropWhile_cons_of_neg (mt starts_cons.2 hk)]

/-- What is left at the start of a text is all of it but a run of blanks, and ends with none. -/
theorem trimEnd_eq_iff :
    trimEnd p cs = kept ↔ ∃ gap, cs = kept ++ gap ∧ (∀ c ∈ gap, p c = true) ∧ ¬ Ends p kept := by
  have hreverse : trimEnd p cs = kept ↔ trimStart p cs.reverse = kept.reverse :=
    List.reverse_eq_iff
  have hall {gap : List Char} : (∀ c ∈ gap.reverse, p c = true) ↔ ∀ c ∈ gap, p c = true :=
    forall_congr' fun _ => by rw [List.mem_reverse]
  rw [hreverse, trimStart_eq_iff, starts_reverse]
  constructor
  · rintro ⟨gap, hcs, hg, hk⟩
    refine ⟨gap.reverse, ?_, hall.2 hg, hk⟩
    rw [← List.reverse_reverse cs, hcs, List.reverse_append, List.reverse_reverse]
  · rintro ⟨gap, rfl, hg, hk⟩
    exact ⟨gap.reverse, List.reverse_append, hall.2 hg, hk⟩

/-- Trimming the start takes off characters of the class, and all that stand there. -/
theorem trimStart_spec (p : Char → Bool) (cs : List Char) : ∃ gap, cs = gap ++ trimStart p cs ∧
    (∀ c ∈ gap, p c = true) ∧ ¬ Starts p (trimStart p cs) :=
  trimStart_eq_iff.1 rfl

/-- Trimming the end takes off characters of the class, and all that stand there. -/
theorem trimEnd_spec (p : Char → Bool) (cs : List Char) : ∃ gap, cs = trimEnd p cs ++ gap ∧
    (∀ c ∈ gap, p c = true) ∧ ¬ Ends p (trimEnd p cs) :=
  trimEnd_eq_iff.1 rfl

/-- Trimming the start does not reach into a part that does not start with the class. -/
theorem trimStart_append (h : ¬ Starts p ds) :
    trimStart p (cs ++ ds) = trimStart p cs ++ ds := by
  obtain ⟨gap, hcs, hgap, hkept⟩ := trimStart_spec p cs
  refine trimStart_eq_iff.2 ⟨gap, ?_, hgap, ?_⟩
  · rw [← List.append_assoc, ← hcs]
  · cases hk : trimStart p cs with
    | nil => exact h
    | cons c kept =>
      rw [hk] at hkept
      exact mt starts_cons.1 (mt starts_cons.2 hkept)

/-- Trimming the end does not reach into a part that does not end with the class. -/
theorem trimEnd_append (h : ¬ Ends p cs) :
    trimEnd p (cs ++ ds) = cs ++ trimEnd p ds := by
  obtain ⟨gap, hds, hgap, hkept⟩ := trimEnd_spec p ds
  refine trimEnd_eq_iff.2 ⟨gap, ?_, hgap, ?_⟩
  · rw [List.append_assoc, ← hds]
  · by_cases hk : trimEnd p ds = []
    · rw [hk, List.append_nil]
      exact h
    · rw [ends_append hk]
      exact hkept

/-- It makes no difference which side of a text is trimmed first. -/
theorem trimEnd_trimStart :
    trimEnd p (trimStart p cs) = trimStart p (trimEnd p cs) := by
  obtain ⟨gap, hcs, hgap, hstart⟩ := trimStart_spec p cs
  generalize trimStart p cs = mid at hcs hstart
  subst hcs
  obtain ⟨gap', hmid, hgap', hend⟩ := trimEnd_spec p mid
  by_cases hk : trimEnd p mid = []
  -- A text of blanks only is trimmed away from either side.
  · rw [hk, List.nil_append] at hmid
    have hblank : trimEnd p (gap ++ mid) = [] := by
      refine trimEnd_eq_iff.2 ⟨gap ++ mid, rfl, fun c hc => ?_, ends_nil⟩
      exact (List.mem_append.1 hc).elim (hgap c) fun hc => hgap' c (hmid ▸ hc)
    rw [hk, hblank]
    rfl
  · have hall : trimEnd p (gap ++ mid) = gap ++ trimEnd p mid := by
      refine trimEnd_eq_iff.2 ⟨gap', by rw [List.append_assoc, ← hmid], hgap', ?_⟩
      rwa [ends_append hk]
    rw [hall]
    refine (trimStart_eq_iff.2 ⟨gap, rfl, hgap, ?_⟩).symm
    obtain ⟨c, kept, hc⟩ := List.exists_cons_of_ne_nil hk
    rw [hmid, hc, List.cons_append, starts_cons] at hstart
    rwa [hc, starts_cons]

end Stencil.Text
