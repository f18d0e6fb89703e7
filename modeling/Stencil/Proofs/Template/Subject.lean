import Stencil.Proofs.Template.Evaluation
import Stencil.Proofs.Texts

/-!
# What a session renders

A session renders one text, or all texts of a thing whose texts are known. Either way it renders
some texts one after the other, so what holds of every evaluation holds of the whole session.
-/

namespace Stencil

namespace Template

variable {σ : Type}

open Session

/-! ## Texts without placeholders -/

/-- A text without placeholders comes to itself and leaves the session alone. -/
theorem Session.evaluate_of_not_hasPlaceholder {text : String} (h : hasPlaceholder text = false)
    (registry : Registry σ) (n : Nat) (s : Session σ) :
    evaluate registry n text s = (.ok text, s) := by
  have hs : (splitOpen text.toList).2 = none := by
    simpa [hasPlaceholder] using h
  have hp : parse text = .ok (textNodes false false text.toList) := by
    rw [parse, parseFrom]
    split
    · rw [splitOpen_none hs]
    · rename_i body hs'
      rw [hs] at hs'
      cases hs'
  -- The empty text has no nodes, any other one is a single node.
  by_cases he : text.toList = []
  · have hread : registry.read text = .ok [] := by
      rw [Registry.read, hp, textNodes, he]
      rfl
    rw [evaluate_of_read_ok hread]
    have : text = "" := String.toList_injective he
    rw [this]
    rfl
  · have hread : registry.read text = .ok [.text text] := by
      rw [Registry.read, hp]
      simp [textNodes, he, Registry.checkNodes, Except.map]
    rw [evaluate_of_read_ok hread]
    simp [writeNodes, String.join]

/-! ## Sessions over several texts -/

namespace Session

/-- A session after rendering some texts in it. -/
def renderTexts (registry : Registry σ) : List String → Session σ → Session σ
  | [], s => s
  | t :: rest, s => renderTexts registry rest (renderText registry t s).2

/-- Texts are rendered one after the other. -/
theorem renderTexts_eq_foldl (registry : Registry σ) (texts : List String) (s : Session σ) :
    renderTexts registry texts s = texts.foldl (fun s t => (renderText registry t s).2) s := by
  induction texts generalizing s with
  | nil => rfl
  | cons t rest ih => exact ih _

/-- Texts that follow each other are rendered from where the first ones left off. -/
theorem renderTexts_append (registry : Registry σ) (before after : List String) (s : Session σ) :
    renderTexts registry (before ++ after) s =
      renderTexts registry after (renderTexts registry before s) := by
  simp only [renderTexts_eq_foldl, List.foldl_append]

/-- A text of a thing leaves the same session as a text by itself. -/
theorem renderLeaf_state (registry : Registry σ) (text : String) (s : Session σ) :
    ((renderLeaf registry text).run s).2 = (renderText registry text s).2 := by
  have hrun : (renderLeaf registry text).run s = renderLeaf registry text s := rfl
  rw [hrun, renderLeaf, renderText]
  by_cases hp : hasPlaceholder text = true
  · rw [if_pos hp]
    rcases evaluate registry maxDepth text s with ⟨_ | v, s'⟩ <;> rfl
  · rw [Bool.not_eq_true] at hp
    rw [evaluate_of_not_hasPlaceholder hp, if_neg (by simp [hp])]

end Session

/-- What a session renders: one text, or a thing that holds texts. -/
inductive Subject : Type 1
  | text (t : String)
  | thing {α : Type} [Texts α] [LawfulTexts α] (x : α)

namespace Subject

/-- The texts that are rendered, in their order. -/
def texts : Subject → List String
  | .text t => [t]
  | @thing _ _ _ x => LawfulTexts.texts x

/-- The session that rendering ends with. -/
def session (registry : Registry σ) (world : σ) : Subject → Session σ
  | .text t => (renderText registry t (start world)).2
  | @thing _ _ _ x => ((Texts.mapTexts (renderLeaf registry) x).run (start world)).2

/-- The surroundings after a session over the subject. -/
def after (registry : Registry σ) (world : σ) : Subject → σ
  | .text t => (render registry t world).2
  | @thing _ _ _ x => (renderAll registry x world).2

variable {registry : Registry σ} {world : σ}

/-- The surroundings afterwards are those of the session afterwards. -/
theorem after_eq (subject : Subject) :
    subject.after registry world = (subject.session registry world).world := by
  cases subject <;> rfl

/-- A session renders the texts of its subject. -/
theorem session_eq_renderTexts (subject : Subject) :
    subject.session registry world = renderTexts registry subject.texts (start world) := by
  cases subject with
  | text t => rfl
  | thing x =>
    rw [session, texts, LawfulTexts.state_mapTexts, renderTexts_eq_foldl]
    simp only [renderLeaf_state]

/-- The calls that rendering makes at any depth: how many expansions may nest in each, and the
session that it is made in. -/
def Visits (registry : Registry σ) (world : σ) (subject : Subject) (n : Nat) (c : Call)
    (s : Session σ) : Prop :=
  ∃ before t after, subject.texts = before ++ t :: after ∧
    Evaluation.Visits registry ⟨maxDepth, t, renderTexts registry before (start world)⟩ n c s

/-- Every call of a text of the subject is visited, if the text passes its checks. -/
theorem exists_visits (subject : Subject) {t : String} (ht : t ∈ subject.texts) {nodes : List Node}
    (hread : registry.read t = .ok nodes) {c : Call} (hc : .call c ∈ nodes) :
    ∃ s, subject.Visits registry world maxDepth c s := by
  obtain ⟨before, after, hsplit⟩ := List.append_of_mem ht
  obtain ⟨s, hm⟩ := exists_meets (invokeAt registry maxDepth) hc
    (renderTexts registry before (start world))
  exact ⟨s, before, t, after, hsplit, _, .refl, rfl, nodes, hread, hm⟩

end Subject

/-! ## What whole sessions keep -/

namespace Keeps

variable {registry : Registry σ} {V : Nat → Call → Session σ → Prop}
  {R : Session σ → Session σ → Prop}

/-- What every step keeps is kept by rendering a text. -/
theorem renderText (k : Keeps registry V R) {t : String} {s : Session σ}
    (hv : ∀ n c s', Evaluation.Visits registry ⟨maxDepth, t, s⟩ n c s' → V n c s') :
    R s (renderText registry t s).2 := by
  have he := k.evaluate ⟨maxDepth, t, s⟩ hv
  rw [Evaluation.result] at he
  rw [Session.renderText]
  generalize Session.evaluate registry maxDepth t s = r at he ⊢
  obtain ⟨_ | v, s'⟩ := r
  · exact k.trans he (k.record _ _)
  · exact he

/-- What every step keeps is kept by rendering texts. -/
theorem renderTexts (k : Keeps registry V R) {texts : List String} {s : Session σ}
    (hv : ∀ before t after, texts = before ++ t :: after → ∀ n c s',
      Evaluation.Visits registry ⟨maxDepth, t, Session.renderTexts registry before s⟩ n c s' →
        V n c s') :
    R s (Session.renderTexts registry texts s) := by
  induction texts generalizing s with
  | nil => exact k.refl s
  | cons t rest ih =>
    refine k.trans (k.renderText (hv [] t rest rfl)) (ih fun before t' after ht => ?_)
    exact hv (t :: before) t' after (by rw [ht, List.cons_append])

/-- A whole session keeps the relation. -/
theorem session (k : Keeps registry V R) (world : σ) (subject : Subject)
    (hv : ∀ n c s, subject.Visits registry world n c s → V n c s) :
    R (start world) (subject.session registry world) := by
  rw [Subject.session_eq_renderTexts]
  exact k.renderTexts fun before t after ht n c s h => hv n c s ⟨before, t, after, ht, h⟩

end Keeps

/-- Rendering a text extends the session. -/
theorem Session.extends_renderText (registry : Registry σ) (t : String) (s : Session σ) :
    Extends s (renderText registry t s).2 :=
  (keeps_extends registry fun _ _ _ => True).renderText fun _ _ _ _ => trivial

/-- Rendering texts extends the session. -/
theorem Session.extends_renderTexts (registry : Registry σ) (texts : List String)
    (s : Session σ) : Extends s (renderTexts registry texts s) :=
  (keeps_extends registry fun _ _ _ => True).renderTexts fun _ _ _ _ _ _ _ _ => trivial

namespace Subject

variable {registry : Registry σ} {world : σ}

/-- Rendering extends the session that it starts with. -/
theorem extends_session (subject : Subject) :
    Extends (start world) (subject.session registry world) := by
  rw [session_eq_renderTexts]
  exact extends_renderTexts registry subject.texts (start world)

/-- What a call leaves is there at the end of the session. -/
theorem Visits.grows {subject : Subject} {n : Nat} {c : Call} {s : Session σ}
    (h : subject.Visits registry world n c s) :
    Grows (invokeAt registry n c s).2 (subject.session registry world) := by
  obtain ⟨before, t, after, ht, hv⟩ := h
  rw [session_eq_renderTexts, ht, renderTexts_append, Session.renderTexts]
  refine hv.grows.2.trans (Grows.trans ?_ (extends_renderTexts registry after _).grows)
  rw [Evaluation.result, renderText]
  generalize evaluate registry maxDepth t (Session.renderTexts registry before (start world)) = r
  obtain ⟨_ | v, s'⟩ := r
  · exact ⟨List.prefix_append _ _, List.suffix_rfl⟩
  · exact (Extends.refl s').grows

end Subject

end Template

end Stencil
