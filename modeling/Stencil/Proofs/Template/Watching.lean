import Stencil.Proofs.Template.Likeness

/-!
# Watched functions

To count how often functions run, each expanding function of a registry is made to take note of the
key that it is called with. The notes stand beside the surroundings, and watching changes nothing
else: a watched session is the plain one with the notes added.
-/

namespace Stencil.Template

variable {σ α : Type}

open Session

/-- A function that takes note of its key if it expands. -/
def Function.watched (name : String) (f : Function σ) : Function (σ × List CallKey) where
  arity := f.arity
  expands := f.expands
  sideEffects := f.sideEffects
  call args w :=
    let r := f.call args w.1
    (r.1, r.2, if f.expands then w.2 ++ [.of name (" ".intercalate args)] else w.2)

/-- A registry whose expanding functions take note of their keys. -/
def Registry.watched (registry : Registry σ) : Registry (σ × List CallKey) :=
  registry.map fun e => (e.1, e.2.watched e.1)

/-- A watched session without the notes. -/
def Session.plain (s : Session (σ × List CallKey)) : Session σ :=
  ⟨s.memo, s.errors, s.world.1⟩

/-- A step of watched sessions that is a step of plain ones but for the notes. -/
def Agrees (watched : Session (σ × List CallKey) → α × Session (σ × List CallKey))
    (plain : Session σ → α × Session σ) : Prop :=
  ∀ s, plain s.plain = ((watched s).1, (watched s).2.plain)

/-- A watched registry has the watched functions under their names. -/
theorem Registry.get?_watched (registry : Registry σ) (name : String) :
    Table.get? name registry.watched = (Table.get? name registry).map (·.watched name) :=
  Table.get?_map Function.watched name registry

/-! ## Evaluations -/

/-- Surroundings with and without the notes. -/
def Beside (w' : σ × List CallKey) (w : σ) : Prop :=
  w'.1 = w

/-- A watched function is like the function itself. -/
theorem Function.like_watched (name : String) (f : Function σ) :
    Function.Like Beside (f.watched name) f where
  arity := rfl
  expands := rfl
  sideEffects := rfl
  call _ hw := hw ▸ ⟨rfl, rfl⟩

/-- Watched functions are the plain ones but for the notes. -/
theorem Registry.like_watched (registry : Registry σ) :
    Registry.Like Beside registry.watched registry :=
  like_map Function.like_watched registry

/-- Sessions are alike just if the one is the other with notes. -/
theorem Session.like_beside_iff {s' : Session (σ × List CallKey)} {s : Session σ} :
    Session.Like Beside s' s ↔ s = s'.plain := by
  refine ⟨fun h => ?_, fun h => h ▸ ⟨rfl, rfl, rfl⟩⟩
  obtain ⟨memo, errors, world⟩ := s
  obtain ⟨rfl, rfl, rfl⟩ := h
  rfl

/-- Watching changes no evaluation. -/
theorem agrees_evaluate (registry : Registry σ) (n : Nat) (text : String) :
    Agrees (evaluate registry.watched n text) (evaluate registry n text) := by
  intro s
  obtain ⟨hv, hs⟩ := alike_evaluate registry.like_watched n text s s.plain (like_beside_iff.2 rfl)
  exact Prod.ext hv.symm (like_beside_iff.1 hs)

/-! ## Sessions -/

/-- Watching does not change how texts are rendered. -/
theorem renderTexts_watched (registry : Registry σ) (texts : List String)
    (s : Session (σ × List CallKey)) :
    (renderTexts registry.watched texts s).plain = renderTexts registry texts s.plain := by
  induction texts generalizing s with
  | nil => rfl
  | cons t rest ih =>
    have ht : (renderText registry.watched t s).2.plain = (renderText registry t s.plain).2 := by
      rw [renderText, renderText, agrees_evaluate registry maxDepth t s]
      generalize evaluate registry.watched maxDepth t s = r
      obtain ⟨e | v, s'⟩ := r <;> rfl
    rw [renderTexts, renderTexts, ih, ht]

/-- A watched session is the plain one with the notes added. -/
theorem Subject.session_watched (registry : Registry σ) (world : σ) (notes : List CallKey)
    (subject : Subject) : (subject.session registry.watched (world, notes)).plain =
      subject.session registry world := by
  rw [session_eq_renderTexts, session_eq_renderTexts, renderTexts_watched]
  rfl

end Stencil.Template
