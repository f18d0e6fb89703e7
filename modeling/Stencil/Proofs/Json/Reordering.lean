import Mathlib.Data.List.Perm.Basic
import Stencil.Proofs.Texts

/-!
# Documents in another order

The texts of a document are visited in the order of its items and of the names of its fields. In a
reordered document items stand elsewhere in their list, or fields have other names, so that the same
texts are visited in another order.
-/

namespace Stencil.Json.Value

variable {σ : Type}

/-! ## Replaced texts -/

/-- The document with another text in the place of each of its texts. -/
def replace (value : String → String) (d : Value) : Value :=
  ((d.mapTexts fun t => (pure (value t) : StateM Unit String)).run ()).1

/-- Texts that are mapped one by one have the values of each. -/
theorem outputs_pure (value : String → String) (texts : List String) :
    outputs (fun t => (pure (value t) : StateM Unit String)) texts () = texts.map value := by
  induction texts with
  | nil => rfl
  | cons t rest ih => exact congrArg (value t :: ·) ih

/-- A visit that returns a value for each text makes the document with these values of it. -/
theorem output_eq_replace {visit : String → StateM σ String} {value : String → String} {d : Value}
    {s : σ} (h : outputs visit d.texts s = d.texts.map value) :
    ((d.mapTexts visit).run s).1 = d.replace value :=
  output_mapTexts d (h.trans (outputs_pure value d.texts).symm)

/-! ## Reordered documents -/

/-- The texts of items are those of each item. -/
theorem textsItems_eq_flatMap (items : List Value) : textsItems items = items.flatMap texts := by
  induction items with
  | nil => rfl
  | cons v rest ih => rw [textsItems, ih, List.flatMap_cons]

/-- The texts of fields are those of each value. -/
theorem textsFields_eq_flatMap (fields : List (String × Value)) :
    textsFields fields = (fields.map (·.2)).flatMap texts := by
  induction fields with
  | nil => rfl
  | cons e rest ih => rw [textsFields, ih, List.map_cons, List.flatMap_cons]

/-- Documents that differ in the order of the items of their lists and in the names of the fields of
their tables, and so in the order of those. -/
inductive Reordered : Value → Value → Prop
  | refl (v) : Reordered v v
  | trans {v w x} : Reordered v w → Reordered w x → Reordered v x
  | items {items items'} : items.Perm items' → Reordered (.list items) (.list items')
  | fields {fields fields'} : (fields.map (·.2)).Perm (fields'.map (·.2)) →
      Reordered (.table fields) (.table fields')
  | item {before after v w} : Reordered v w →
      Reordered (.list (before ++ v :: after)) (.list (before ++ w :: after))
  | field {before after name v w} : Reordered v w →
      Reordered (.table (before ++ (name, v) :: after)) (.table (before ++ (name, w) :: after))

namespace Reordered

variable {v w : Value}

/-- A reordered document has the same texts, in another order. -/
theorem texts_perm (h : Reordered v w) : v.texts.Perm w.texts := by
  induction h with
  | refl v => exact List.Perm.refl _
  | trans _ _ ih ih' => exact ih.trans ih'
  | items h =>
    rw [texts, texts, textsItems_eq_flatMap, textsItems_eq_flatMap]
    exact h.flatMap fun _ _ => List.Perm.refl _
  | fields h =>
    rw [texts, texts, textsFields_eq_flatMap, textsFields_eq_flatMap]
    exact h.flatMap fun _ _ => List.Perm.refl _
  | item _ ih =>
    rw [texts, texts, textsItems_eq_flatMap, textsItems_eq_flatMap]
    simp only [List.flatMap_append, List.flatMap_cons]
    exact (ih.append_right _).append_left _
  | field _ ih =>
    rw [texts, texts, textsFields_eq_flatMap, textsFields_eq_flatMap]
    simp only [List.map_append, List.map_cons, List.flatMap_append, List.flatMap_cons]
    exact (ih.append_right _).append_left _

end Reordered

end Stencil.Json.Value
