import Stencil.Proofs.Template.Reference
import Stencil.Proofs.Template.Subject
import Stencil.Upload.Plan

/-!
# Effects end with the first error

Once a session has an error, no call of an expanding function with side effects runs that function:
it comes to what is remembered, or to the error that it was skipped. So what only such functions
change stays, to the end of the session, as it was when the error was recorded; in a session over an
uploader these are the files of its plan.

A function that does not expand is held back by nothing, whether it has side effects or not.
-/

namespace Stencil.Template

variable {σ : Type} {registry : Registry σ}

open Session

/-! ## From a call to the end -/

namespace Keeps

variable {R : Session σ → Session σ → Prop}

/-- What every step keeps is kept by a call. -/
theorem invokeAt_all (k : Keeps registry (fun _ _ _ => True) R) (n : Nat) (c : Call)
    (s : Session σ) : R s (Session.invokeAt registry n c s).2 :=
  k.invokeAt trivial fun {m f raw} _ _ _ =>
    k.evaluate ⟨m, raw, s.launched c f⟩ fun _ _ _ _ => trivial

/-- What every step keeps is kept by rendering texts. -/
theorem renderTexts_all (k : Keeps registry (fun _ _ _ => True) R) (texts : List String)
    (s : Session σ) : R s (Session.renderTexts registry texts s) :=
  k.renderTexts fun _ _ _ _ _ _ _ _ => trivial

/-- What every step keeps is kept from the end of a call to the end of the nodes around it. -/
theorem after_meets (k : Keeps registry (fun _ _ _ => True) R) {n : Nat} {nodes : List Node}
    {s s' : Session σ} {c : Call} (h : Meets (Session.invokeAt registry n) nodes s c s') :
    R (Session.invokeAt registry n c s').2
      (writeNodes (Session.invokeAt registry n) nodes s).2 := by
  induction h with
  | call => exact writeNodes_rel k.refl k.trans fun c s' _ => k.invokeAt_all n c s'
  | afterCall _ ih => exact ih
  | afterText _ ih => exact ih
  | afterLiteral _ ih => exact ih

variable (complete : ∀ s key value error, R s (Session.complete s key value error).2)

include complete

/-- What a nested evaluation leaves lasts to the end of the outer one. -/
theorem after_nests (k : Keeps registry (fun _ _ _ => True) R) {e e' : Evaluation σ}
    (h : Evaluation.Nests registry e e') : R (e'.result registry).2 (e.result registry).2 := by
  obtain ⟨⟨nodes, hread, hm⟩, hn, ho, hraw⟩ := h
  rename_i n c s f raw
  have hcall : R (Session.evaluate registry n raw (s.launched c f)).2
      (Session.invokeAt registry e.headroom c s).2 := by
    rw [hn, invokeAt_of_opens ho, hraw]
    dsimp only
    generalize Session.evaluate registry n raw (s.launched c f) = r
    obtain ⟨err | v, s'⟩ := r
    · exact k.trans (k.record _ _) (complete _ _ _ _)
    · exact complete _ _ _ _
  refine k.trans hcall ?_
  rw [Evaluation.result, evaluate_of_read_ok hread]
  exact k.after_meets hm

/-- What every step keeps is kept from the end of an evaluation to the end of one around it. -/
theorem after_nested (k : Keeps registry (fun _ _ _ => True) R) {e e' : Evaluation σ}
    (h : Relation.ReflTransGen (Evaluation.Nests registry) e e') :
    R (e'.result registry).2 (e.result registry).2 := by
  induction h with
  | refl => exact k.refl _
  | tail _ hlast ih => exact k.trans (k.after_nests complete hlast) ih

/-- What a call leaves lasts to the end of the evaluation that makes it at any depth. -/
theorem after_visits (k : Keeps registry (fun _ _ _ => True) R) {e : Evaluation σ} {n : Nat}
    {c : Call} {s : Session σ} (h : e.Visits registry n c s) :
    R (Session.invokeAt registry n c s).2 (e.result registry).2 := by
  obtain ⟨e', hn, rfl, nodes, hread, hm⟩ := h
  refine k.trans ?_ (k.after_nested complete hn)
  rw [Evaluation.result, evaluate_of_read_ok hread]
  exact k.after_meets hm

/-- What a call leaves lasts to the end of the session. -/
theorem after_call (k : Keeps registry (fun _ _ _ => True) R) {world : σ} {subject : Subject}
    {n : Nat} {c : Call} {s : Session σ} (h : subject.Visits registry world n c s) :
    R (Session.invokeAt registry n c s).2 (subject.session registry world) := by
  obtain ⟨before, t, after, ht, hv⟩ := h
  rw [Subject.session_eq_renderTexts, ht, renderTexts_append, Session.renderTexts]
  refine k.trans (k.after_visits complete hv) (k.trans ?_ (k.renderTexts_all after _))
  rw [Evaluation.result, Session.renderText]
  generalize Session.evaluate registry maxDepth t
    (Session.renderTexts registry before (start world)) = r
  obtain ⟨_ | v, s'⟩ := r
  · exact k.record _ _
  · exact k.refl _

end Keeps

/-! ## After an error -/

/-- A function that does not run after an error. -/
def Function.heldBack (f : Function σ) : Bool := f.expands && f.sideEffects

/-- What the functions that may run after an error leave as it is. -/
def Registry.Leaves {β : Type} (registry : Registry σ) (view : σ → β) : Prop :=
  ∀ name f, Table.get? name registry = some f → f.heldBack = false → ∀ args w,
    view (f.call args w).2 = view w

/-- What is seen of the surroundings stays once there is an error. -/
structure Settled {β : Type} (view : σ → β) (s s' : Session σ) : Prop where
  errors : s.errors <+: s'.errors
  world : s.errors ≠ [] → view s'.world = view s.world

/-- What is settled over two steps is settled over both. -/
theorem Settled.trans {β : Type} {view : σ → β} {a b c : Session σ} (h : Settled view a b)
    (h' : Settled view b c) : Settled view a c := by
  refine ⟨h.errors.trans h'.errors, fun ha => ?_⟩
  have hb : b.errors ≠ [] := fun hb => ha (List.prefix_nil.1 (hb ▸ h.errors))
  rw [h'.world hb, h.world ha]

theorem Settled.complete {β : Type} {view : σ → β} (s : Session σ) (key : CallKey) (value : String)
    (error : Option Error) : Settled view s (s.complete key value error).2 :=
  ⟨List.prefix_rfl, fun _ => rfl⟩

/-- A call that opens after an error is not held back. -/
theorem Session.Opens.heldBack {c : Call} {s : Session σ} {f : Function σ}
    (ho : Opens registry c s f) (hs : s.errors ≠ []) : f.heldBack = false := by
  have hallowed := ho.allowed
  rw [Bool.and_eq_false_iff, Bool.not_eq_false', List.isEmpty_iff] at hallowed
  rw [Function.heldBack, hallowed.resolve_right hs, Bool.and_false]

/-- Every step leaves what is seen of the surroundings as it is once there is an error. -/
theorem keeps_settled {β : Type} {view : σ → β} (hview : registry.Leaves view)
    (V : Nat → Call → Session σ → Prop) : Keeps registry V (Settled view) where
  refl s := ⟨List.prefix_rfl, fun _ => rfl⟩
  trans := .trans
  record s e := ⟨List.prefix_append _ _, fun _ => rfl⟩
  plain := by
    intro n c s f _ hf hx
    refine ⟨List.prefix_rfl, fun _ => hview c.name f hf ?_ c.args s.world⟩
    rw [Function.heldBack, hx]
    rfl
  finish := by
    intro n c s f s' value error _ ho h _
    exact ⟨h.errors, fun hs =>
      (h.world hs).trans (hview c.name f ho.found (ho.heldBack hs) c.args s.world)⟩

/-- What an error puts an end to. -/
structure EndsEffects (registry : Registry σ) (world : σ) (subject : Subject) : Prop where
  /-- After an error, a call of an expanding function with side effects comes to what is remembered
  or to the error that it was skipped, and nothing else happens. -/
  skips : ∀ n c s f, subject.Visits registry world n c s →
    Table.get? c.name registry = some f → f.heldBack = true → s.errors ≠ [] →
      (∃ o, s.memo.lookup c.key = some o ∧ invokeAt registry n c s = (o.value, s.replay o)) ∨
        invokeAt registry n c s =
          s.fail (.upload (c.key.text ++ " skipped after earlier error"))
  /-- What only such functions change is at the end as every call left it that an error was recorded
  before or in. -/
  stays : ∀ {β : Type} (view : σ → β), registry.Leaves view →
    ∀ n c s, subject.Visits registry world n c s → (invokeAt registry n c s).2.errors ≠ [] →
      view (subject.session registry world).world = view (invokeAt registry n c s).2.world
  /-- It is at the end as it was after any of the texts that an error was recorded in or before. -/
  staysBetween : ∀ {β : Type} (view : σ → β), registry.Leaves view →
    ∀ before after, subject.texts = before ++ after →
      (renderTexts registry before (start world)).errors ≠ [] →
        view (subject.session registry world).world =
          view (renderTexts registry before (start world)).world

/-- After an error, every session ends what it puts an end to. -/
theorem endsEffects (registry : Registry σ) (world : σ) (subject : Subject) :
    EndsEffects registry world subject where
  skips := by
    intro n c s f _ hf hheld hs
    have hsame {g : Function σ} (hg : Table.get? c.name registry = some g) : g = f :=
      Option.some.inj (hg.symm.trans hf)
    -- A function that is held back does not open, so it was remembered or is skipped.
    have hopens {g : Function σ} (ho : Opens registry c s g) : False := by
      have := ho.heldBack hs
      rw [hsame ho.found, hheld] at this
      cases this
    obtain ⟨hexpands, heffects⟩ := Bool.and_eq_true_iff.1 hheld
    have hallowed : (f.sideEffects && !s.errors.isEmpty) ≠ false := by
      rw [heffects, Bool.true_and, Ne, Bool.not_eq_false', List.isEmpty_iff]
      exact hs
    have hm := makes_invokeAt registry n c s
    generalize invokeAt registry n c s = r at hm
    cases hm with
    | unknown hg => cases hg.symm.trans hf
    | plain hg hx _ => exact absurd (hsame hg ▸ hx) (by simp [hexpands])
    | plainFailed hg hx _ => exact absurd (hsame hg ▸ hx) (by simp [hexpands])
    | reused _ _ hl => exact .inl ⟨_, hl, rfl⟩
    | skipped _ _ _ _ => exact .inr rfl
    | tooDeep hg _ _ ha _ => exact absurd (hsame hg ▸ ha) hallowed
    | cyclic hg _ _ ha _ _ => exact absurd (hsame hg ▸ ha) hallowed
    | failed ho _ _ => exact (hopens ho).elim
    | rejected ho _ _ _ => exact (hopens ho).elim
    | expanded ho _ _ _ => exact (hopens ho).elim
  stays view hview n c s hv := (((keeps_settled hview _).after_call Settled.complete hv).world)
  staysBetween view hview before after ht := by
    rw [Subject.session_eq_renderTexts, ht, renderTexts_append]
    exact ((keeps_settled hview _).renderTexts_all after _).world

/-! ## Sessions over an uploader -/

/-- Of the standard functions, only the one that registers files changes the surroundings. -/
theorem Registry.leaves_answering (answer : Domain → String → Except Error String)
    (register : String → σ → Except Error String × σ) (ns : Namespace) :
    (Registry.answering answer register ns).Leaves id := by
  intro name f hf hheld args w
  rcases get?_standard hf with h | h | h | h | h | h | h <;> rw [h.2] at hheld ⊢ <;> first
    | rfl
    | cases hheld

/-- After an error, functions with side effects that expand do not run. So what only they change is
at the end of a session as it was when the error was recorded, and so are the files of an uploader
that the session is over. -/
theorem effects_end_with_error (registry : Registry σ) (world : σ) (subject : Subject)
    (answer : Domain → String → Except Error String) (ns : Namespace) (u : Upload.Uploader) :
    EndsEffects registry world subject ∧
      (∀ n c s, subject.Visits (.answering answer Upload.Uploader.register ns) u n c s →
        (invokeAt (.answering answer Upload.Uploader.register ns) n c s).2.errors ≠ [] →
          (subject.after (.answering answer Upload.Uploader.register ns) u).items =
            (invokeAt (.answering answer Upload.Uploader.register ns) n c s).2.world.items) ∧
      ∀ before after, subject.texts = before ++ after →
        (renderTexts (.answering answer Upload.Uploader.register ns) before (start u)).errors ≠ [] →
          (subject.after (.answering answer Upload.Uploader.register ns) u).items =
            (renderTexts (.answering answer Upload.Uploader.register ns) before
              (start u)).world.items := by
  have hends := endsEffects (.answering answer Upload.Uploader.register ns) u subject
  have hview : (Registry.answering answer Upload.Uploader.register ns).Leaves id :=
    Registry.leaves_answering answer _ ns
  refine ⟨endsEffects registry world subject, fun n c s hv he => ?_, fun before after ht he => ?_⟩
  · rw [Subject.after_eq]
    exact congrArg Upload.Uploader.items (hends.stays id hview n c s hv he)
  · rw [Subject.after_eq]
    exact congrArg Upload.Uploader.items (hends.staysBetween id hview before after ht he)

/-- A function with side effects that does not expand runs after an error. -/
theorem plain_effect_after_error :
    let registry : Registry Nat :=
      [("fail", ⟨.exactly 0, true, false, fun _ w => (.error (.lookup "none"), w)⟩),
        ("touch", ⟨.exactly 0, false, true, fun _ w => (.ok "", w + 1)⟩)]
    (render registry "\x7b\x7bfail\x7d\x7d" 0).1.error = some (.lookup "none") ∧
      (render registry "\x7b\x7bfail\x7d\x7d" 0).2 = 0 ∧
      (render registry "\x7b\x7bfail\x7d\x7d\x7b\x7btouch\x7d\x7d" 0).1.error =
        some (.lookup "none") ∧
      (render registry "\x7b\x7bfail\x7d\x7d\x7b\x7btouch\x7d\x7d" 0).2 = 1 := by
  decide +kernel

end Stencil.Template
