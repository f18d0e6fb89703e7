import Stencil.Proofs.Template.Dependency

/-!
# Sound sessions

A session is sound if every outcome of its memo that carries no error is what its reference comes
to. Evaluation keeps sessions sound, and a call that records no error returns what its reference
comes to: the memo, the keys in flight and the bound on depth show in errors only.
-/

namespace Stencil.Template

variable {σ : Type}

open Session

/-- A session whose memo holds the right value wherever it holds no error. -/
structure Sound (registry : Registry σ) (P : σ → Prop) (world : σ) (s : Session σ) : Prop where
  holds : P s.world
  clean : ∀ r v, registry.Expanding r → (r.key, ⟨v, none⟩) ∈ s.memo.outcomes →
    Comes registry world (Expands registry world) r v

/-- What making a call in a sound session comes to: a sound session, and the right value unless an
error was recorded. -/
structure Answers (registry : Registry σ) (P : σ → Prop) (world : σ) (r : Reference)
    (s : Session σ) (result : String × Session σ) : Prop where
  sound : Sound registry P world result.2
  value : result.2.errors = s.errors → Comes registry world (Expands registry world) r result.1

variable {registry : Registry σ} {names : String → Prop} {P : σ → Prop} {world : σ}

/-! ## Single steps -/

namespace Sound

variable {s : Session σ}

theorem start (hs : registry.Steady names P world) :
    Sound registry P world (Session.start world) :=
  ⟨hs.here, by simp [Session.start, Memo.empty]⟩

theorem record (h : Sound registry P world s) (e : Error) :
    Sound registry P world (s.record e) :=
  ⟨h.holds, h.clean⟩

theorem replay (h : Sound registry P world s) (o : Outcome) :
    Sound registry P world (s.replay o) :=
  ⟨h.holds, h.clean⟩

/-- Running a function keeps a session sound. -/
theorem run (hs : registry.Steady names P world) (h : Sound registry P world s) {name : String}
    {f : Function σ} (hf : Table.get? name registry = some f) (args : List String) :
    Sound registry P world (s.run f args).2 :=
  ⟨hs.keeps h.holds hf args, h.clean⟩

/-- Launching a call keeps a session sound. -/
theorem launched (hs : registry.Steady names P world) (h : Sound registry P world s) {c : Call}
    {f : Function σ} (hf : Table.get? c.name registry = some f) :
    Sound registry P world (s.launched c f) :=
  ⟨hs.keeps h.holds hf c.args, h.clean⟩

/-- The outcome of a call may be remembered if it carries an error or is right. -/
theorem complete (hk : registry.Keyed) (h : Sound registry P world s) {c : Call}
    (hc : registry.Expanding c.reference) {value : String} {error : Option Error}
    (hv : error = none → Comes registry world (Expands registry world) c.reference value) :
    Sound registry P world (s.complete c.key value error).2 := by
  refine ⟨h.holds, fun r v hr hmem => ?_⟩
  rw [complete_memo, Memo.finish, List.mem_cons] at hmem
  rcases hmem with he | hmem
  · rw [Prod.mk.injEq, Outcome.mk.injEq] at he
    obtain rfl := hk r c.reference hr hc he.1
    rw [he.2.1]
    exact hv he.2.2.symm
  · exact h.clean r v hr hmem

/-- A call that opens and fails leaves a sound session. -/
theorem completeFailed (hk : registry.Keyed) (hs : registry.Steady names P world)
    (h : Sound registry P world s) {c : Call} {f : Function σ} (ho : Opens registry c s f)
    (hacc : registry.Accepts c.reference) (e : Error) :
    Sound registry P world ((s.launched c f).completeFailed c.key e).2 :=
  ((h.launched hs ho.found).record e).complete hk (hacc.expanding ho.found ho.expands) (by simp)

end Sound

/-- A session that recorded an error has other errors than before. -/
theorem errors_ne_of_concat {s s' : Session σ} (h : s.errors <+: s'.errors) (e : Error) :
    (s'.record e).errors ≠ s.errors := by
  intro he
  have hl := congrArg List.length he
  have := h.length_le
  simp only [record_errors, List.length_append, List.length_singleton] at hl
  omega

/-- Nothing was recorded if there is no error after those that were there. -/
theorem errors_eq_of_getElem? {s s' : Session σ} (h : s.errors <+: s'.errors) :
    s'.errors[s.errors.length]? = none ↔ s'.errors = s.errors := by
  rw [List.getElem?_eq_none_iff]
  exact ⟨fun hl => (h.eq_of_length_le hl).symm, fun he => Nat.le_of_eq (congrArg List.length he)⟩

/-- Nothing was recorded in the first of two steps if nothing was recorded in both. -/
theorem errors_eq_of_trans {s s' s'' : Session σ} (h : s.errors <+: s'.errors)
    (h' : s'.errors <+: s''.errors) (he : s''.errors = s.errors) : s'.errors = s.errors :=
  (h.eq_of_length_le (Nat.le_trans h'.length_le (Nat.le_of_eq (congrArg List.length he)))).symm

/-! ## Nodes -/

/-- Nodes are written rightly if every call among them is. -/
theorem writeNodes_sound {n : Nat} {nodes : List Node} {s : Session σ}
    (hcall : ∀ c s', Meets (invokeAt registry n) nodes s c s' → Sound registry P world s' →
      Answers registry P world c.reference s' (invokeAt registry n c s'))
    (h : Sound registry P world s) :
    Sound registry P world (writeNodes (invokeAt registry n) nodes s).2 ∧
      ((writeNodes (invokeAt registry n) nodes s).2.errors = s.errors →
        Writes registry world (Expands registry world) nodes
          (String.join (writeNodes (invokeAt registry n) nodes s).1)) := by
  induction nodes generalizing s with
  | nil => exact ⟨h, fun _ => .nil⟩
  | cons node rest ih =>
    cases node with
    | text t =>
      obtain ⟨hs, hw⟩ := ih (fun c s' hm => hcall c s' (.afterText hm)) h
      refine ⟨hs, fun he => ?_⟩
      rw [writeNodes, String.join_cons]
      exact .text (hw he)
    | literal t =>
      obtain ⟨hs, hw⟩ := ih (fun c s' hm => hcall c s' (.afterLiteral hm)) h
      refine ⟨hs, fun he => ?_⟩
      rw [writeNodes, String.join_cons]
      exact .literal (hw he)
    | call c =>
      have hc := hcall c s .call h
      obtain ⟨hs, hw⟩ := ih (fun d s' hm => hcall d s' (.afterCall hm)) hc.sound
      refine ⟨hs, fun he => ?_⟩
      -- Errors are never taken back, so neither the call nor the rest has recorded one.
      have he' := errors_eq_of_trans (extends_invokeAt registry n c s).errors
        (extends_writeNodes n rest _).errors he
      rw [writeNodes, String.join_cons]
      exact .call (hc.value he') (hw (he.trans he'.symm))

/-! ## Evaluations -/

/-- A text is evaluated rightly if every call among its nodes is made rightly. -/
theorem Evaluation.sound_of_calls {e : Evaluation σ}
    (hcall : ∀ c s, e.Calls registry c s → Sound registry P world s →
      Answers registry P world c.reference s (invokeAt registry e.headroom c s))
    (h : Sound registry P world e.session) :
    Sound registry P world (e.result registry).2 ∧
      ∀ v, (e.result registry).1 = .ok v → (e.result registry).2.errors = e.session.errors →
        Expands registry world e.text v := by
  cases hread : registry.read e.text with
  | error err =>
    rw [result, evaluate_of_read_error hread]
    exact ⟨h, fun v hv => by cases hv⟩
  | ok nodes =>
    obtain ⟨hs, hw⟩ := writeNodes_sound
      (fun c s hm hsc => hcall c s ⟨nodes, hread, hm⟩ hsc) h
    rw [result, evaluate_of_read_ok hread]
    refine ⟨hs, fun v hv he => ?_⟩
    rw [← Except.ok.inj hv]
    exact .intro hread (hw he)

/-- A call of a steady function is made rightly if what it returns is evaluated rightly. -/
theorem Sound.answers (hk : registry.Keyed) (hs : registry.Steady names P world) {n : Nat}
    {c : Call} {s : Session σ} (hname : names c.name) (hacc : registry.Accepts c.reference)
    (h : Sound registry P world s)
    (nested : ∀ {m f raw}, n = m + 1 → Opens registry c s f →
      (f.call c.args s.world).1 = .ok raw →
      Sound registry P world (evaluate registry m raw (s.launched c f)).2 ∧
        ∀ v, (evaluate registry m raw (s.launched c f)).1 = .ok v →
          (evaluate registry m raw (s.launched c f)).2.errors = s.errors →
          Expands registry world raw v) :
    Answers registry P world c.reference s (invokeAt registry n c s) := by
  have hfail (e : Error) : Answers registry P world c.reference s (s.fail e) :=
    ⟨h.record e, fun he => absurd he (errors_ne_of_concat List.prefix_rfl e)⟩
  have hm := makes_invokeAt registry n c s
  generalize invokeAt registry n c s = r at hm
  cases hm with
  | unknown _ => exact hfail _
  | plain hf hx hv =>
    rw [hs.answers h.holds hname hf] at hv
    exact ⟨h.run hs hf _, fun _ => .plain hf hx hv⟩
  | plainFailed hf _ _ =>
    exact ⟨(h.run hs hf _).record _, fun he =>
      absurd he (errors_ne_of_concat List.prefix_rfl _)⟩
  | @reused f o hf hx hl =>
    obtain ⟨v, error⟩ := o
    refine ⟨h.replay _, fun he => ?_⟩
    cases error with
    | none => exact h.clean c.reference v (hacc.expanding hf hx) (Memo.mem_of_lookup hl)
    | some e => exact absurd he (errors_ne_of_concat List.prefix_rfl e)
  | skipped _ _ _ _ => exact hfail _
  | tooDeep _ _ _ _ _ => exact hfail _
  | cyclic _ _ _ _ _ _ => exact hfail _
  | failed ho _ _ =>
    exact ⟨h.completeFailed hk hs ho hacc _, fun he =>
      absurd he (errors_ne_of_concat List.prefix_rfl _)⟩
  | rejected ho _ _ _ =>
    exact ⟨h.completeFailed hk hs ho hacc _, fun he =>
      absurd he (errors_ne_of_concat List.prefix_rfl _)⟩
  | @expanded f raw v m s' ho hn hraw he =>
    have hx := Evaluation.extends registry ⟨m, raw, s.launched c f⟩
    obtain ⟨hsound, hright⟩ := nested hn ho hraw
    rw [Evaluation.result, he] at hx
    rw [he] at hsound hright
    rw [hs.answers h.holds hname ho.found] at hraw
    -- The outcome is written without an error just if nothing was recorded inside.
    have hcomes (herr : s'.errors = s.errors) :
        Comes registry world (Expands registry world) c.reference v :=
      .expanding ho.found ho.expands hraw (hright v rfl herr)
    refine ⟨hsound.complete hk (hacc.expanding ho.found ho.expands) fun hnone => ?_, hcomes⟩
    exact hcomes ((errors_eq_of_getElem? hx.errors).1 hnone)

/-- The calls of an evaluation whose functions are all steady are made rightly. -/
theorem Evaluation.Calls.sound (hk : registry.Keyed) (hs : registry.Steady names P world)
    {e : Evaluation σ} (hv : ∀ n c s, e.Visits registry n c s → names c.name) {c : Call}
    {s : Session σ} (hc : e.Calls registry c s) (h : Sound registry P world s) :
    Answers registry P world c.reference s (invokeAt registry e.headroom c s) := by
  obtain ⟨n, text, start⟩ := e
  -- The induction is on the headroom; every nested evaluation has less of it.
  induction n using Nat.strongRecOn generalizing text start c s with
  | ind n ih =>
    refine h.answers hk hs (hv n c s hc.visits) hc.accepts fun {m f raw} hn ho hraw => ?_
    have hnest : Evaluation.Nests registry ⟨n, text, start⟩ ⟨m, raw, s.launched c f⟩ :=
      .intro hc hn ho hraw
    exact Evaluation.sound_of_calls (e := ⟨m, raw, s.launched c f⟩)
      (fun d s' hd hsd => ih m (Nat.lt_of_succ_le (Nat.le_of_eq hn.symm)) hsd raw (s.launched c f)
        (fun n c s hvis => hv n c s (hnest.visits hvis)) hd) (h.launched hs ho.found)

/-- An evaluation whose functions are all steady keeps the session sound, and is right unless it
records an error. -/
theorem Evaluation.sound (hk : registry.Keyed) (hs : registry.Steady names P world)
    {e : Evaluation σ} (hv : ∀ n c s, e.Visits registry n c s → names c.name)
    (h : Sound registry P world e.session) :
    Sound registry P world (e.result registry).2 ∧
      ∀ v, (e.result registry).1 = .ok v → (e.result registry).2.errors = e.session.errors →
        Expands registry world e.text v :=
  sound_of_calls (fun _ _ hc hsc => hc.sound hk hs hv hsc) h

end Stencil.Template
