import Stencil.Json.Strings
import Stencil.Texts

/-!
# The texts of things

A visit of a thing visits its texts one after the other: the state it ends with is the state that
visiting each of the texts in turn ends with, and what becomes of a document is settled by what the
visits of its texts return.
-/

namespace Stencil

/-- Things whose texts are known: visiting the thing is visiting its texts one after the other. -/
class LawfulTexts (α : Type) [Texts α] where
  texts : α → List String
  state_mapTexts : ∀ {σ : Type} (visit : String → StateM σ String) (x : α) (s : σ),
    ((Texts.mapTexts visit x).run s).2 = (texts x).foldl (fun s t => ((visit t).run s).2) s

instance : LawfulTexts String where
  texts s := [s]
  state_mapTexts _ _ _ := rfl

section

variable {σ : Type}

/-- What visiting some texts one after the other returns. -/
def outputs (visit : String → StateM σ String) : List String → σ → List String
  | [], _ => []
  | t :: rest, s => ((visit t).run s).1 :: outputs visit rest ((visit t).run s).2

/-- Every text has an output. -/
theorem length_outputs (visit : String → StateM σ String) (texts : List String) (s : σ) :
    (outputs visit texts s).length = texts.length := by
  induction texts generalizing s with
  | nil => rfl
  | cons t rest ih => rw [outputs, List.length_cons, List.length_cons, ih]

/-- The outputs of texts that follow each other follow each other, from where the first ones left
off. -/
theorem outputs_append (visit : String → StateM σ String) (before after : List String) (s : σ) :
    outputs visit (before ++ after) s = outputs visit before s ++
      outputs visit after (before.foldl (fun s t => ((visit t).run s).2) s) := by
  induction before generalizing s with
  | nil => rfl
  | cons t rest ih => rw [List.cons_append, outputs, ih, outputs, List.cons_append, List.foldl_cons]

/-- Visits that return the same for some texts and then for others return the same for each. -/
theorem outputs_append_inj {τ : Type} {visit : String → StateM σ String}
    {visit' : String → StateM τ String} {before after : List String} {s : σ} {s' : τ}
    (h : outputs visit (before ++ after) s = outputs visit' (before ++ after) s') :
    outputs visit before s = outputs visit' before s' ∧
      outputs visit after (before.foldl (fun s t => ((visit t).run s).2) s) =
        outputs visit' after (before.foldl (fun s t => ((visit' t).run s).2) s') := by
  rw [outputs_append, outputs_append] at h
  exact List.append_inj h (by rw [length_outputs, length_outputs])

end

/-- Things that hold, after a visit, what the visit returned for each of their texts, and that
nothing but this tells from what they were. -/
class FaithfulTexts (α : Type) [Texts α] extends LawfulTexts α where
  texts_mapTexts : ∀ {σ : Type} (visit : String → StateM σ String) (x : α) (s : σ),
    texts ((Texts.mapTexts visit x).run s).1 = outputs visit (texts x) s
  output_mapTexts : ∀ {σ τ : Type} {visit : String → StateM σ String}
    {visit' : String → StateM τ String} {x : α} {s : σ} {s' : τ},
    outputs visit (texts x) s = outputs visit' (texts x) s' →
      ((Texts.mapTexts visit x).run s).1 = ((Texts.mapTexts visit' x).run s').1

instance : FaithfulTexts String where
  texts_mapTexts _ _ _ := rfl
  output_mapTexts h := (List.cons.inj h).1

namespace Json.Value

mutual

/-- The texts of a document, in the order in which they are visited. -/
def texts : Value → List String
  | .text s => [s]
  | .list items => textsItems items
  | .table fields => textsFields fields
  | .null => []
  | .bool _ => []
  | .number _ => []

/-- The texts of the items of a list. -/
def textsItems : List Value → List String
  | [] => []
  | v :: rest => v.texts ++ textsItems rest

/-- The texts of the fields of a table. -/
def textsFields : List (String × Value) → List String
  | [] => []
  | (_, v) :: rest => v.texts ++ textsFields rest

end

variable {σ : Type} (visit : String → StateM σ String)

mutual

/-- Visiting a document comes to its texts one after the other. -/
theorem state_mapTexts (v : Value) (s : σ) :
    ((v.mapTexts visit).run s).2 = v.texts.foldl (fun s t => ((visit t).run s).2) s := by
  cases v with
  | text t => rfl
  | list items => exact state_mapTextsItems items s
  | table fields => exact state_mapTextsFields fields s
  | null => rfl
  | bool b => rfl
  | number n => rfl

/-- Visiting items comes to their texts one after the other. -/
theorem state_mapTextsItems (items : List Value) (s : σ) :
    ((mapTextsItems visit items).run s).2 =
      (textsItems items).foldl (fun s t => ((visit t).run s).2) s := by
  cases items with
  | nil => rfl
  | cons v rest =>
    rw [textsItems, List.foldl_append, ← state_mapTexts v s, ← state_mapTextsItems rest]
    rfl

/-- Visiting fields comes to their texts one after the other. -/
theorem state_mapTextsFields (fields : List (String × Value)) (s : σ) :
    ((mapTextsFields visit fields).run s).2 =
      (textsFields fields).foldl (fun s t => ((visit t).run s).2) s := by
  cases fields with
  | nil => rfl
  | cons e rest =>
    obtain ⟨name, v⟩ := e
    rw [textsFields, List.foldl_append, ← state_mapTexts v s, ← state_mapTextsFields rest]
    rfl

end

/-! ## What becomes of a document -/

section

variable {τ : Type} {visit : String → StateM σ String} {visit' : String → StateM τ String}

mutual

/-- Visits that return the same for the texts of a document make the same document of it. -/
theorem output_mapTexts (v : Value) {s : σ} {s' : τ}
    (h : outputs visit v.texts s = outputs visit' v.texts s') :
    ((v.mapTexts visit).run s).1 = ((v.mapTexts visit').run s').1 := by
  cases v with
  | text t => exact congrArg Value.text (List.cons.inj h).1
  | list items => exact congrArg Value.list (output_mapTextsItems items h)
  | table fields => exact congrArg Value.table (output_mapTextsFields fields h)
  | null => rfl
  | bool b => rfl
  | number n => rfl

/-- Items that are visited with the same outputs become the same. -/
theorem output_mapTextsItems (items : List Value) {s : σ} {s' : τ}
    (h : outputs visit (textsItems items) s = outputs visit' (textsItems items) s') :
    ((mapTextsItems visit items).run s).1 = ((mapTextsItems visit' items).run s').1 := by
  cases items with
  | nil => rfl
  | cons v rest =>
    obtain ⟨hv, hrest⟩ := outputs_append_inj h
    rw [← state_mapTexts, ← state_mapTexts] at hrest
    exact congr (congrArg List.cons (output_mapTexts v hv)) (output_mapTextsItems rest hrest)

/-- Fields that are visited with the same outputs become the same. -/
theorem output_mapTextsFields (fields : List (String × Value)) {s : σ} {s' : τ}
    (h : outputs visit (textsFields fields) s = outputs visit' (textsFields fields) s') :
    ((mapTextsFields visit fields).run s).1 = ((mapTextsFields visit' fields).run s').1 := by
  cases fields with
  | nil => rfl
  | cons e rest =>
    obtain ⟨name, v⟩ := e
    obtain ⟨hv, hrest⟩ := outputs_append_inj h
    rw [← state_mapTexts, ← state_mapTexts] at hrest
    exact congr (congrArg (fun v rest => (name, v) :: rest) (output_mapTexts v hv))
      (output_mapTextsFields rest hrest)

end

end

mutual

/-- A visited document holds what the visit returned, each in the place of its text. -/
theorem texts_mapTexts (v : Value) (s : σ) :
    ((v.mapTexts visit).run s).1.texts = outputs visit v.texts s := by
  cases v with
  | text t => rfl
  | list items => exact texts_mapTextsItems items s
  | table fields => exact texts_mapTextsFields fields s
  | null => rfl
  | bool b => rfl
  | number n => rfl

/-- The texts of items after a visit are its outputs. -/
theorem texts_mapTextsItems (items : List Value) (s : σ) :
    textsItems ((mapTextsItems visit items).run s).1 = outputs visit (textsItems items) s := by
  cases items with
  | nil => rfl
  | cons v rest =>
    rw [textsItems, outputs_append, ← state_mapTexts, ← texts_mapTexts, ← texts_mapTextsItems]
    rfl

/-- The texts of fields after a visit are the outputs. -/
theorem texts_mapTextsFields (fields : List (String × Value)) (s : σ) :
    textsFields ((mapTextsFields visit fields).run s).1 =
      outputs visit (textsFields fields) s := by
  cases fields with
  | nil => rfl
  | cons e rest =>
    obtain ⟨name, v⟩ := e
    rw [textsFields, outputs_append, ← state_mapTexts, ← texts_mapTexts, ← texts_mapTextsFields]
    rfl

end

instance : LawfulTexts Value where
  texts := texts
  state_mapTexts visit v s := state_mapTexts visit v s

instance : FaithfulTexts Value where
  texts_mapTexts visit v s := texts_mapTexts visit v s
  output_mapTexts {_ _ _ _ v _ _} h := output_mapTexts v h

end Json.Value

end Stencil
