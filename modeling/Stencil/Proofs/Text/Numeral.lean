import Mathlib.Data.List.Forall2
import Stencil.Text.Hex

/-!
# Numerals

A numeral is a sequence of digits, the most significant first. Hexadecimal digits may be of either
case.
-/

namespace Stencil.Text

/-- Characters are ordered as their numbers are. -/
theorem le_iff_toNat_le {c d : Char} : c ≤ d ↔ c.toNat ≤ d.toNat := by
  rw [Char.le_def, UInt32.le_iff_toNat_le]
  rfl

/-- A digit of a base, in either case, and its value. -/
def IsDigit (base : Nat) (c : Char) (v : Nat) : Prop :=
  v < base ∧ (c = Nat.digitChar v ∨ c = (Nat.digitChar v).toUpper)

/-- The number that digits with some values spell. -/
def positional (base : Nat) (values : List Nat) : Nat :=
  values.foldl (fun n v => n * base + v) 0

/-- Digits of a base and the number that they spell. -/
def Numeral (base : Nat) (ds : List Char) (n : Nat) : Prop :=
  ∃ values, List.Forall₂ (IsDigit base) ds values ∧ positional base values = n

/-- A hexadecimal digit has the value that it is read as. -/
theorem hexValue?_eq_some_iff {c : Char} {v : Nat} : hexValue? c = some v ↔ IsDigit 16 c v := by
  constructor
  · intro h
    have hdec : ∀ v < 10, (Nat.digitChar v).toNat = v + 48 := by decide
    have hlow : ∀ v < 16, 10 ≤ v → (Nat.digitChar v).toNat = v + 87 := by decide
    have hupper : ∀ v < 16, 10 ≤ v → (Nat.digitChar v).toUpper.toNat = v + 55 := by decide
    simp only [hexValue?, Bool.and_eq_true, decide_eq_true_eq, le_iff_toNat_le,
      Char.reduceToNat] at h
    repeat' split at h
    · obtain rfl := Option.some.inj h
      refine ⟨by omega, .inl (Char.toNat_inj.1 ?_)⟩
      rw [hdec _ (by omega)]
      omega
    · obtain rfl := Option.some.inj h
      refine ⟨by omega, .inl (Char.toNat_inj.1 ?_)⟩
      rw [hlow _ (by omega) (by omega)]
      omega
    · obtain rfl := Option.some.inj h
      refine ⟨by omega, .inr (Char.toNat_inj.1 ?_)⟩
      rw [hupper _ (by omega) (by omega)]
      omega
    · cases h
  · rintro ⟨hv, h⟩
    have hlow : ∀ v < 16, hexValue? (Nat.digitChar v) = some v := by decide
    have hupper : ∀ v < 16, hexValue? (Nat.digitChar v).toUpper = some v := by decide
    rcases h with rfl | rfl
    · exact hlow v hv
    · exact hupper v hv

/-- Hexadecimal digits are read as the number that they spell. -/
theorem hexNumber?_eq_some_iff {ds : List Char} {n : Nat} :
    hexNumber? ds = some n ↔ Numeral 16 ds n := by
  -- The digits read so far are kept as a number, so the induction is over any such number.
  suffices h : ∀ m, ds.foldlM (fun n c => (hexValue? c).map (n * 16 + ·)) m = some n ↔
      ∃ values, List.Forall₂ (IsDigit 16) ds values ∧
        values.foldl (fun n v => n * 16 + v) m = n from h 0
  induction ds with
  | nil => simp
  | cons c ds ih =>
    intro m
    simp only [List.foldlM_cons, Option.bind_eq_bind, Option.bind_eq_some_iff,
      Option.map_eq_some_iff, hexValue?_eq_some_iff, List.forall₂_cons_left_iff]
    constructor
    · rintro ⟨_, ⟨v, hv, rfl⟩, h⟩
      obtain ⟨values, hds, hn⟩ := (ih _).1 h
      exact ⟨v :: values, ⟨v, values, hv, hds, rfl⟩, hn⟩
    · rintro ⟨_, ⟨v, values, hv, hds, rfl⟩, hn⟩
      exact ⟨_, ⟨v, hv, rfl⟩, (ih _).2 ⟨values, hds, hn⟩⟩

end Stencil.Text
