import Stencil.Proofs.Template.Failure
import Stencil.Proofs.Template.Trace

/-!
# What a failed session shows

A session goes on after an error. It renders every text of a thing, and what it renders tells all
that went wrong: where an error was recorded, there stands its marker, and everything around it is
in its place. The session ends with an error if any was recorded, and then with the first one.
-/

namespace Stencil.Template

variable {σ : Type}

open Session

/-- What became of a text of a thing. -/
inductive Leaf where
  /-- The text did not pass its checks, and nothing of it ran. -/
  | rejected (text : String) (error : Error)
  /-- The nodes of the text were written. -/
  | evaluated (text : String) (traces : List Trace)

namespace Leaf

/-- The text that it became of. -/
def text : Leaf → String
  | rejected t _ => t
  | evaluated t _ => t

/-- What was written for the text. -/
def written : Leaf → String
  | rejected _ e => e.marker
  | evaluated _ traces => String.join (traces.map Trace.written)

/-- The errors that were recorded for the text, depth first and from left to right. -/
def errors : Leaf → List Error
  | rejected _ e => [e]
  | evaluated _ traces => traces.flatMap Trace.errors

/-- Every error shows in what was written for the text, and also where it was recorded. -/
def Honest (l : Leaf) : Prop :=
  (∀ e ∈ l.errors, Shows l.written e) ∧
    match l with
    | rejected _ _ => True
    | evaluated _ traces => ∀ t ∈ traces, t.Honest

/-- A text that was evaluated is honest if its nodes are. -/
theorem honest_evaluated {text : String} {traces : List Trace} (h : ∀ t ∈ traces, t.Honest) :
    (evaluated text traces).Honest := by
  refine ⟨fun e he => ?_, h⟩
  obtain ⟨t, ht, he⟩ := List.mem_flatMap.1 he
  exact (h t ht t .self e he).join (List.mem_map_of_mem ht)

/-- A text that was rejected is honest, since its marker tells the error. -/
theorem honest_rejected (text : String) (e : Error) : (rejected text e).Honest := by
  refine ⟨fun e' he => ?_, trivial⟩
  rw [List.mem_singleton.1 he]
  exact shows_marker e

end Leaf

namespace Session

/-- What becomes of some texts of a thing, one after the other, between the session before and the
session after. -/
inductive Leaves (registry : Registry σ) : List String → Session σ → List Leaf → Session σ → Prop
  | nil {s} : Leaves registry [] s [] s
  | rejected {t e rest s leaves s'} : registry.read t = .error e →
      Leaves registry rest (s.record e) leaves s' →
      Leaves registry (t :: rest) s (.rejected t e :: leaves) s'
  | evaluated {t nodes rest s traces s₁ leaves s'} : registry.read t = .ok nodes →
      Traces registry maxDepth nodes s traces s₁ → Leaves registry rest s₁ leaves s' →
      Leaves registry (t :: rest) s (.evaluated t traces :: leaves) s'

variable {registry : Registry σ}

/-- A text of a thing that does not pass its checks becomes the marker of what is wrong. -/
theorem renderLeaf_of_read_error {t : String} {e : Error} (h : registry.read t = .error e)
    (s : Session σ) : (renderLeaf registry t).run s = (e.marker, s.record e) := by
  have hp : hasPlaceholder t = true := by
    by_contra hp
    have he := evaluate_of_not_hasPlaceholder (Bool.eq_false_iff.2 hp) registry 0 s
    rw [evaluate_of_read_error h] at he
    cases he
  have hrun : (renderLeaf registry t).run s = renderLeaf registry t s := rfl
  rw [hrun, renderLeaf, if_pos hp, evaluate_of_read_error h]
  rfl

/-- A text of a thing that passes its checks is written. -/
theorem renderLeaf_of_read_ok {t : String} {nodes : List Node} (h : registry.read t = .ok nodes)
    (s : Session σ) : (renderLeaf registry t).run s =
      (String.join (writeNodes (invokeAt registry maxDepth) nodes s).1,
        (writeNodes (invokeAt registry maxDepth) nodes s).2) := by
  have hwritten := evaluate_of_read_ok h maxDepth s
  have hrun : (renderLeaf registry t).run s = renderLeaf registry t s := rfl
  rw [hrun, renderLeaf]
  by_cases hp : hasPlaceholder t = true
  · rw [if_pos hp, hwritten]
  · rw [evaluate_of_not_hasPlaceholder (Bool.eq_false_iff.2 hp), Prod.mk.injEq] at hwritten
    rw [if_neg hp, ← hwritten.2, ← Except.ok.inj hwritten.1]

namespace Leaves

variable {texts : List String} {leaves : List Leaf} {s s' : Session σ}

/-- Every text is rendered, in its turn. -/
theorem map_text (h : Leaves registry texts s leaves s') : leaves.map Leaf.text = texts := by
  induction h with
  | nil => rfl
  | rejected _ _ ih => exact congrArg (_ :: ·) ih
  | evaluated _ _ _ ih => exact congrArg (_ :: ·) ih

/-- What became of the texts is what rendering them returns and the session that it ends with. -/
theorem outputs_eq (h : Leaves registry texts s leaves s') :
    outputs (renderLeaf registry) texts s = leaves.map Leaf.written ∧
      texts.foldl (fun s t => ((renderLeaf registry t).run s).2) s = s' := by
  induction h with
  | nil => exact ⟨rfl, rfl⟩
  | rejected hread _ ih =>
    rw [outputs, List.foldl_cons, renderLeaf_of_read_error hread, ih.1, ih.2]
    exact ⟨rfl, rfl⟩
  | evaluated hread htraces _ ih =>
    rw [outputs, List.foldl_cons, renderLeaf_of_read_ok hread, htraces.writeNodes_eq.1, ih.1, ih.2,
      Trace.writtenAll_eq_map]
    exact ⟨rfl, rfl⟩

/-- The errors of the session are those of the texts, in their order. -/
theorem errors_eq (h : Leaves registry texts s leaves s') :
    s'.errors = s.errors ++ leaves.flatMap Leaf.errors := by
  induction h with
  | nil => exact (List.append_nil _).symm
  | rejected _ _ ih =>
    rw [ih, record_errors, List.append_assoc]
    rfl
  | evaluated _ htraces _ ih =>
    rw [ih, htraces.writeNodes_eq.2, List.append_assoc, Trace.errorsAll_eq_flatMap]
    rfl

/-- Every error shows where it was recorded, if all that the memo remembers shows. -/
theorem honest (h : Leaves registry texts s leaves s') (hs : s.Remembers) :
    ∀ l ∈ leaves, l.Honest := by
  induction h with
  | nil => exact fun _ hl => absurd hl List.not_mem_nil
  | rejected _ _ ih => exact List.forall_mem_cons.2 ⟨Leaf.honest_rejected _ _, ih hs⟩
  | evaluated _ htraces _ ih =>
    obtain ⟨hs₁, hhonest⟩ := htraces.honest_of_remembers hs
    exact List.forall_mem_cons.2 ⟨Leaf.honest_evaluated hhonest, ih hs₁⟩

end Leaves

/-- Something becomes of whatever texts are rendered. -/
theorem exists_leaves (registry : Registry σ) (texts : List String) {s : Session σ}
    (hs : s.Remembers) : ∃ leaves s', Leaves registry texts s leaves s' := by
  induction texts generalizing s with
  | nil => exact ⟨[], s, .nil⟩
  | cons t rest ih =>
    cases hread : registry.read t with
    | error e =>
      obtain ⟨leaves, s', h⟩ := ih (s := s.record e) hs
      exact ⟨_, s', .rejected hread h⟩
    | ok nodes =>
      obtain ⟨traces, s₁, htraces⟩ := exists_traces registry maxDepth nodes hs
      obtain ⟨leaves, s', h⟩ := ih (htraces.honest_of_remembers hs).1
      exact ⟨_, s', .evaluated hread htraces h⟩

/-- Nothing fails in silence. Rendering a text that passes its checks writes each of its nodes, and
rendering a thing writes each of its texts, whatever failed before. Texts and literals stand as they
are. Where an error was recorded for a text or a call, at any depth, its marker stands in what was
written for it. The session ends with the first of all errors that were recorded, depth first and
from left to right, and so without an error only if none was. -/
theorem failures_show (registry : Registry σ) (world : σ) :
    (∀ text nodes, registry.read text = .ok nodes → ∃ traces s',
      Traces registry maxDepth nodes (start world) traces s' ∧
      traces.map Trace.node = nodes ∧ (∀ t ∈ traces, t.Honest) ∧
      s'.errors = traces.flatMap Trace.errors ∧
      render registry text world =
        (⟨String.join (traces.map Trace.written), (traces.flatMap Trace.errors).head?⟩,
          s'.world)) ∧
    ∀ {α : Type} [Texts α] [FaithfulTexts α] (thing : α), ∃ leaves s',
      Leaves registry (LawfulTexts.texts thing) (start world) leaves s' ∧
      leaves.map Leaf.text = LawfulTexts.texts thing ∧ (∀ l ∈ leaves, l.Honest) ∧
      s'.errors = leaves.flatMap Leaf.errors ∧
      LawfulTexts.texts (renderAll registry thing world).1.output = leaves.map Leaf.written ∧
      (renderAll registry thing world).1.error = (leaves.flatMap Leaf.errors).head? ∧
      (renderAll registry thing world).2 = s'.world := by
  -- A new session remembers nothing, so all that it remembers shows.
  have hs := remembers_start world
  refine ⟨fun text nodes hread => ?_, fun {α} _ _ thing => ?_⟩
  · obtain ⟨traces, s', h⟩ := exists_traces registry maxDepth nodes hs
    exact ⟨traces, s', h, h.map_node, (h.honest_of_remembers hs).2, h.render_eq hread⟩
  · obtain ⟨leaves, s', h⟩ := exists_leaves registry (LawfulTexts.texts thing) hs
    have herrors : s'.errors = leaves.flatMap Leaf.errors := h.errors_eq
    have hstate : ((Texts.mapTexts (renderLeaf registry) thing).run (start world)).2 = s' := by
      rw [LawfulTexts.state_mapTexts, h.outputs_eq.2]
    refine ⟨leaves, s', h, h.map_text, h.honest hs, herrors, ?_, ?_, ?_⟩
    · rw [renderAll, ending, FaithfulTexts.texts_mapTexts, h.outputs_eq.1]
    · rw [renderAll, ending, hstate, herrors]
    · rw [renderAll, ending, hstate]

/-- A placeholder for itself: the error is found where it expands itself, and shows through the
expansion around it. -/
theorem failures_show_selfReferring :
    selfReferring.read (placeholder "a") = .ok [.call ⟨"cfg", ["a"], 1⟩] ∧
      ∃ traces s', Traces selfReferring maxDepth [.call ⟨"cfg", ["a"], 1⟩] (start ()) traces s' ∧
        (∀ t ∈ traces, t.Honest) ∧ (traces.flatMap Trace.errors).head? = some (.cyclic "cfg:a") ∧
        (render selfReferring (placeholder "a") ()).1 =
          ⟨String.join (traces.map Trace.written), some (.cyclic "cfg:a")⟩ := by
  obtain ⟨traces, s', h, -, hhonest, -, hrender⟩ :=
    (failures_show selfReferring ()).1 _ _ read_selfReferring
  have hfirst : (traces.flatMap Trace.errors).head? = some (.cyclic "cfg:a") := by
    have herror : (render selfReferring (placeholder "a") ()).1.error =
        some (.cyclic "cfg:a") := by decide +kernel
    rw [hrender] at herror
    exact herror
  exact ⟨read_selfReferring, traces, s', h, hhonest, hfirst, by rw [hrender, hfirst]⟩

end Session

end Stencil.Template
