import Stencil.Command.Run
import Stencil.Proofs.Template.Completeness
import Stencil.Proofs.Upload.Sending

/-!
# What rendering means

A session over the standard functions renders a text to what the text means, with fixed answers for
lookups and any uploader behind `upload`. It may add files to the uploader while it does; since
those have the addresses that they would have had at first, its functions are steady.
-/

namespace Stencil.Template

open Session Upload

/-- Commands render with fixed answers for lookups, and over an uploader. -/
theorem command_registry (r : Settings.Resolved) :
    Command.registry r = .answering r.lookup Uploader.register r.ns := rfl

/-- The standard functions are steady over an uploader: whatever files were added, each has the
address that it would have had. -/
theorem steady_uploading (answer : Domain → String → Except Error String) (ns : Namespace)
    {u : Uploader} (hu : u.Placed) :
    (Registry.answering answer Uploader.register ns).Steady (fun _ => True)
      (fun w => w.Placed ∧ w.address = u.address) u where
  here := ⟨hu, rfl⟩
  answers := by
    intro w name f hw _ hf args
    rcases Registry.get?_standard hf with h | h | h | h | h | h | h <;> rw [h.2]
    all_goals try rfl
    show ((w.add _).1.mapError _) = ((u.add _).1.mapError _)
    rw [Uploader.add_answer hw.1, Uploader.add_answer hu, hw.2]
  keeps := by
    intro w name f hw hf args
    rcases Registry.get?_standard hf with h | h | h | h | h | h | h <;> rw [h.2]
    all_goals try exact hw
    exact ⟨Uploader.placed_add hw.1 _, (Uploader.address_add w _).trans hw.2⟩

/-- A session over one text without an error has rendered what the text comes to. -/
theorem expands_of_render {σ : Type} {registry : Registry σ} {P : σ → Prop} {world : σ}
    (hk : registry.Keyed) (hs : registry.Steady (fun _ => True) P world) {text : String}
    (h : (render registry text world).1.error = none) :
    Expands registry world text (render registry text world).1.output := by
  have hsound := Evaluation.sound (e := ⟨maxDepth, text, start world⟩) hk hs
    (fun _ _ _ _ => trivial) (.start hs)
  rw [Evaluation.result] at hsound
  rw [render, ending, renderText] at h ⊢
  generalize evaluate registry maxDepth text (start world) = r at h hsound ⊢
  obtain ⟨e | v, s⟩ := r
  · simp at h
  · exact hsound.2 v rfl (List.head?_eq_none_iff.1 h)

/-- A text that comes to something with no more nesting than a session allows is rendered to it. -/
theorem render_of_expandsWithin {σ : Type} {registry : Registry σ} {P : σ → Prop} {world : σ}
    (hk : registry.Keyed) (hs : registry.Steady (fun _ => True) P world) {text out : String}
    (h : ExpandsWithin registry world maxDepth text out) :
    (render registry text world).1 = ⟨out, none⟩ := by
  have hempty : Unsettled registry world maxDepth (start world).memo.inFlight :=
    fun _ _ hmem => absurd hmem List.not_mem_nil
  obtain ⟨s, he, hc⟩ := complete hk hs maxDepth (Nat.le_refl _) h (.start hs) hempty
  rw [render, renderText, he]
  simp only [ending, hc.errors, List.head?_nil]

/-- A session over the standard functions and any uploader renders a text to what it means: without
an error only to that, and without an error whenever expanding calls nest no deeper than allowed. -/
theorem render_meaning (answer : Domain → String → Except Error String) (ns : Namespace)
    {u : Uploader} (hu : u.Reachable) (text : String) :
    ((render (.answering answer Uploader.register ns) text u).1.error = none →
      Expands (.answering answer Uploader.register ns) u text
        (render (.answering answer Uploader.register ns) text u).1.output) ∧
    ∀ out, ExpandsWithin (.answering answer Uploader.register ns) u maxDepth text out →
      (render (.answering answer Uploader.register ns) text u).1 = ⟨out, none⟩ :=
  have hk := Registry.keyed_answering answer Uploader.register ns
  have hs := steady_uploading answer ns hu.placed
  ⟨expands_of_render hk hs, fun _ => render_of_expandsWithin hk hs⟩

/-- A value that refers to another value, over an uploader that takes no files. -/
theorem render_meaning_chain :
    Expands (.answering (fun _ key => .ok (if key = "a" then placeholder "b" else key))
      Uploader.register ⟨⟨[]⟩⟩) (.disabled "off") (placeholder "a") "b" := by
  have h := (render_meaning (fun _ key => .ok (if key = "a" then placeholder "b" else key))
    ⟨⟨[]⟩⟩ (.disabled "off") (placeholder "a")).1 (by decide +kernel)
  have hout : (render (.answering (fun _ key => .ok (if key = "a" then placeholder "b" else key))
      Uploader.register ⟨⟨[]⟩⟩) (placeholder "a") (.disabled "off")).1.output = "b" := by
    decide +kernel
  rwa [hout] at h

end Stencil.Template
