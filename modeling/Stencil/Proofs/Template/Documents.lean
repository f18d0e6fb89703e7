import Stencil.Proofs.Template.Diagnostics
import Stencil.Proofs.Template.Grammar

/-!
# Rendered documents

A session over a document gives the document back with other texts in the places of those that hold
a placeholder, and with nothing else changed. Texts without a placeholder are passed over, but they
might as well be evaluated: they come to themselves and leave the session alone.

A document that is a single text is rendered like the text by itself. Only where the text does not
pass its checks is it a marker in the document, while by itself it stays as it is.
-/

namespace Stencil

namespace Json.Value

/-! ## Copies of a document -/

mutual

/-- Documents that have everything in common but their texts, of which each is related to the one in
the same place. -/
inductive Copies (R : String → String → Prop) : Value → Value → Prop
  | null : Copies R .null .null
  | bool {b} : Copies R (.bool b) (.bool b)
  | number {n} : Copies R (.number n) (.number n)
  | text {s t} : R s t → Copies R (.text s) (.text t)
  | list {items items'} : CopiesItems R items items' → Copies R (.list items) (.list items')
  | table {fields fields'} : CopiesFields R fields fields' →
      Copies R (.table fields) (.table fields')

/-- Lists of the same length with copies in the same places. -/
inductive CopiesItems (R : String → String → Prop) : List Value → List Value → Prop
  | nil : CopiesItems R [] []
  | cons {v w rest rest'} : Copies R v w → CopiesItems R rest rest' →
      CopiesItems R (v :: rest) (w :: rest')

/-- Fields with the same names in the same order, and copies under them. -/
inductive CopiesFields (R : String → String → Prop) :
    List (String × Value) → List (String × Value) → Prop
  | nil : CopiesFields R [] []
  | cons {name v w rest rest'} : Copies R v w → CopiesFields R rest rest' →
      CopiesFields R ((name, v) :: rest) ((name, w) :: rest')

end

section

variable {σ : Type} {R : String → String → Prop} {visit : String → StateM σ String}

mutual

/-- A visit that returns a related text for every text makes a copy of a document. -/
theorem copies_mapTexts (h : ∀ t s, R t ((visit t).run s).1) (v : Value) (s : σ) :
    Copies R v ((v.mapTexts visit).run s).1 := by
  cases v with
  | text t => exact .text (h t s)
  | list items => exact .list (copies_mapTextsItems h items s)
  | table fields => exact .table (copies_mapTextsFields h fields s)
  | null => exact .null
  | bool b => exact .bool
  | number n => exact .number

/-- Visiting the items of a list copies them. -/
theorem copies_mapTextsItems (h : ∀ t s, R t ((visit t).run s).1) (items : List Value) (s : σ) :
    CopiesItems R items ((mapTextsItems visit items).run s).1 := by
  cases items with
  | nil => exact .nil
  | cons v rest => exact .cons (copies_mapTexts h v s) (copies_mapTextsItems h rest _)

/-- Visiting the fields of a table copies them. -/
theorem copies_mapTextsFields (h : ∀ t s, R t ((visit t).run s).1)
    (fields : List (String × Value)) (s : σ) :
    CopiesFields R fields ((mapTextsFields visit fields).run s).1 := by
  cases fields with
  | nil => exact .nil
  | cons e rest =>
    obtain ⟨name, v⟩ := e
    exact .cons (copies_mapTexts h v s) (copies_mapTextsFields h rest _)

end

end

end Json.Value

namespace Template

variable {σ : Type} {registry : Registry σ}

/-! ## Texts that are passed over -/

/-- A text has a placeholder just if there are opening braces in it. -/
theorem Session.hasPlaceholder_eq_false_iff {text : String} :
    hasPlaceholder text = false ↔ Plain text.toList := by
  rw [hasPlaceholder, Option.isSome_eq_false_iff, Option.isNone_iff_eq_none]
  exact ⟨plain_of_splitOpen, fun h => by rw [splitOpen_of_plain h]⟩

namespace Session

/-- Renders one text of a thing, whether it holds a placeholder or not. -/
def renderEvery (registry : Registry σ) (text : String) : StateM (Session σ) String := fun s =>
  match evaluate registry maxDepth text s with
  | (.ok value, s) => (value, s)
  | (.error e, s) => s.fail e

/-- Passing over a text without a placeholder is rendering it. -/
theorem renderEvery_eq_renderLeaf (registry : Registry σ) :
    renderEvery registry = renderLeaf registry := by
  funext text s
  rw [renderEvery, renderLeaf]
  by_cases hp : hasPlaceholder text = true
  · exact (if_pos hp).symm
  · rw [evaluate_of_not_hasPlaceholder (Bool.eq_false_iff.2 hp), if_neg hp]

/-- A text without opening braces is rendered to itself. -/
theorem renderLeaf_of_plain {text : String} (h : Plain text.toList) (s : Session σ) :
    (renderLeaf registry text).run s = (text, s) := by
  show renderLeaf registry text s = (text, s)
  rw [renderLeaf, if_neg (Bool.eq_false_iff.1 (hasPlaceholder_eq_false_iff.2 h))]

/-! ## Single texts -/

/-- What becomes of a text in a document is what becomes of it by itself, unless it does not pass
its checks. -/
theorem renderLeaf_output (text : String) (s : Session σ) :
    ((renderLeaf registry text).run s).1 =
      match registry.read text with
      | .error e => e.marker
      | .ok _ => (renderText registry text s).1 := by
  cases hread : registry.read text with
  | error e => rw [renderLeaf_of_read_error hread]
  | ok nodes => rw [renderLeaf_of_read_ok hread, renderText, evaluate_of_read_ok hread]

/-- A text by itself that does not pass its checks stays as it is, and the session ends with what is
wrong with it. -/
theorem render_of_read_error {text : String} {e : Error} (h : registry.read text = .error e)
    (world : σ) : render registry text world = (⟨text, some e⟩, world) := by
  rw [render, renderText, evaluate_of_read_error h]
  rfl

/-- What a session over a document keeps and what it does, compared with sessions over texts. -/
structure KeepsShape (registry : Registry σ) (world : σ) : Prop where
  /-- The document that comes of it has the same names, lists, numbers, booleans and nulls, and the
  same text wherever there are no opening braces in it. -/
  copies : ∀ d : Json.Value, d.Copies (fun text output => Plain text.toList → output = text)
    (renderAll registry d world).1.output
  /-- A text without opening braces comes to itself at any depth, and neither the memo nor the
  errors nor the surroundings change. -/
  plain : ∀ text, Plain text.toList → ∀ n s, evaluate registry n text s = (.ok text, s)
  /-- Passing over such texts makes no difference for whatever thing holds them. -/
  unobserved : ∀ {α : Type} [Texts α] (thing : α), renderAll registry thing world =
    ending ((Texts.mapTexts (renderEvery registry) thing).run (start world))
  /-- A document that is a single text goes through the same session as the text by itself. -/
  session : ∀ text, (Subject.thing (Json.Value.text text)).session registry world =
    (Subject.text text).session registry world
  /-- It ends with the same error and the same surroundings, and with the same text if that passes
  its checks. Otherwise it becomes the marker of what is wrong, and the text by itself stays. -/
  single : ∀ text, ∃ output,
    renderAll registry (Json.Value.text text) world =
        (⟨.text output, (render registry text world).1.error⟩, (render registry text world).2) ∧
      (∀ nodes, registry.read text = .ok nodes → output = (render registry text world).1.output) ∧
      ∀ e, registry.read text = .error e →
        output = e.marker ∧ render registry text world = (⟨text, some e⟩, world)

/-- Every session over a document keeps its shape, and renders a single text as the text by
itself. -/
theorem documents_keep_shape (registry : Registry σ) (world : σ) : KeepsShape registry world where
  copies d := by
    refine Json.Value.copies_mapTexts (fun text s hplain => ?_) d (start world)
    rw [renderLeaf_of_plain hplain]
  plain text h := evaluate_of_not_hasPlaceholder (hasPlaceholder_eq_false_iff.2 h) registry
  unobserved thing := by rw [renderEvery_eq_renderLeaf, renderAll]
  session text := by rw [Subject.session_eq_renderTexts, Subject.session_eq_renderTexts]; rfl
  single text := by
    have houtput := @renderLeaf_output _ registry text (start world)
    have hstate := renderLeaf_state registry text (start world)
    refine ⟨((renderLeaf registry text).run (start world)).1, ?_, fun nodes hread => ?_,
      fun e hread => ⟨?_, render_of_read_error hread world⟩⟩
    · rw [render, ending, ← hstate]
      rfl
    · rw [houtput, hread]
      rfl
    · rw [houtput, hread]

end Session

end Template

end Stencil
