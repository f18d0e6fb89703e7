/-!
# Lenses

A place inside a thing, as a way to read it and a way to write it.
-/

namespace Stencil

/-- A place of type `β` inside things of type `α`. -/
structure Lens (α β : Type) where
  get : α → β
  set : β → α → α

namespace Lens

variable {α β γ : Type}

/-- The place inside a place. -/
def inside (outer : Lens α β) (inner : Lens β γ) : Lens α γ where
  get a := inner.get (outer.get a)
  set c a := outer.set (inner.set c (outer.get a)) a

/-- What is written is read back, what was read may be written back, and the last writing counts. -/
structure Lawful (l : Lens α β) : Prop where
  get_set : ∀ b a, l.get (l.set b a) = b
  set_get : ∀ a, l.set (l.get a) a = a
  set_set : ∀ b c a, l.set c (l.set b a) = l.set c a

/-- A place inside a place obeys the laws when both do. -/
theorem Lawful.inside {outer : Lens α β} {inner : Lens β γ} (ho : outer.Lawful)
    (hi : inner.Lawful) : (outer.inside inner).Lawful where
  get_set c a := by simp [Lens.inside, ho.get_set, hi.get_set]
  set_get a := by simp [Lens.inside, hi.set_get, ho.set_get]
  set_set b c a := by simp [Lens.inside, ho.get_set, hi.set_set, ho.set_set]

end Lens

end Stencil
