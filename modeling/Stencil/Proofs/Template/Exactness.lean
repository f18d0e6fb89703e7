import Stencil.Proofs.Template.Soundness

/-!
# Exact sessions

An exact session is sound, and every outcome of its memo that carries an error belongs to a bad
reference. Such an outcome may have been computed inside a cycle and be used outside of it; it is
right there too, since a call that is taken for a cycle leads back to itself through the graph: each
key in flight belongs to a reference that leads to every call of the text at hand.
-/

namespace Stencil.Template

variable {σ : Type}

open Session

/-- A session whose memo holds the right value or a reference that is bad. -/
structure Exact (registry : Registry σ) (P : σ → Prop) (world : σ) (s : Session σ) : Prop
    extends Sound registry P world s where
  faulty : ∀ r v e, registry.Expanding r → (r.key, ⟨v, some e⟩) ∈ s.memo.outcomes →
    Bad registry world r

/-- What making a call in an exact session comes to: an exact session, and an error only if the
reference is bad. -/
structure Decides (registry : Registry σ) (P : σ → Prop) (world : σ) (r : Reference)
    (s : Session σ) (result : String × Session σ) : Prop where
  exact : Exact registry P world result.2
  bad : result.2.errors ≠ s.errors → Bad registry world r

/-- An evaluation in which only the named functions are called, and no error is that of nesting too
deep. -/
def Evaluation.Tame (registry : Registry σ) (names : String → Prop) (e : Evaluation σ) : Prop :=
  ∀ n c s, e.Visits registry n c s →
    names c.name ∧ ∀ key limit, Error.tooDeep key limit ∉ (invokeAt registry n c s).2.errors

/-- Every key in flight belongs to a reference that leads to all calls of the text. -/
def Evaluation.Chained (registry : Registry σ) (world : σ) (e : Evaluation σ) : Prop :=
  ∀ k ∈ e.session.memo.inFlight, ∃ r, registry.Expanding r ∧ r.key = k ∧
    ∀ nodes c, registry.read e.text = .ok nodes → .call c ∈ nodes →
      Relation.TransGen (Refers registry world) r c.reference

/-- The named functions have no side effects. -/
def Registry.Quiet (registry : Registry σ) (names : String → Prop) : Prop :=
  ∀ name f, names name → Table.get? name registry = some f → f.sideEffects = false

variable {registry : Registry σ} {names : String → Prop} {P : σ → Prop} {world : σ}

/-! ## Single steps -/

namespace Exact

variable {s : Session σ}

theorem start (hs : registry.Steady names P world) :
    Exact registry P world (Session.start world) :=
  ⟨.start hs, by simp [Session.start, Memo.empty]⟩

theorem record (h : Exact registry P world s) (e : Error) : Exact registry P world (s.record e) :=
  ⟨h.toSound.record e, h.faulty⟩

/-- Launching a call keeps a session exact. -/
theorem launched (hs : registry.Steady names P world) (h : Exact registry P world s) {c : Call}
    {f : Function σ} (hf : Table.get? c.name registry = some f) :
    Exact registry P world (s.launched c f) :=
  ⟨h.toSound.launched hs hf, h.faulty⟩

end Exact

/-- The memo stays exact if the new outcome carries an error only for a bad reference. -/
theorem faulty_complete (hk : registry.Keyed) {s : Session σ} (h : Exact registry P world s)
    {c : Call} (hc : registry.Expanding c.reference) {value : String} {error : Option Error}
    (hbad : error ≠ none → Bad registry world c.reference) {r : Reference} {v : String} {e : Error}
    (hr : registry.Expanding r)
    (hmem : (r.key, ⟨v, some e⟩) ∈ (s.complete c.key value error).2.memo.outcomes) :
    Bad registry world r := by
  rw [complete_memo, Memo.finish, List.mem_cons] at hmem
  rcases hmem with he | hmem
  · rw [Prod.mk.injEq, Outcome.mk.injEq] at he
    obtain rfl := hk r c.reference hr hc he.1
    exact hbad (by rw [← he.2.2]; simp)
  · exact h.faulty r v e hr hmem

/-- A call of a bad reference that opens and fails leaves an exact session. -/
theorem Exact.completeFailed (hk : registry.Keyed) (hs : registry.Steady names P world)
    {s : Session σ} (h : Exact registry P world s) {c : Call} {f : Function σ}
    (ho : Opens registry c s f) (hacc : registry.Accepts c.reference)
    (hbad : Bad registry world c.reference) (e : Error) :
    Exact registry P world ((s.launched c f).completeFailed c.key e).2 where
  toSound := h.toSound.completeFailed hk hs ho hacc e
  faulty _ _ _ := faulty_complete hk ((h.launched hs ho.found).record e)
    (hacc.expanding ho.found ho.expands) fun _ => hbad

/-- The keys in flight stay chained to the calls of a nested text. -/
theorem Evaluation.Nests.chained (hs : registry.Steady names P world) {e : Evaluation σ}
    (hch : e.Chained registry world) {n : Nat} {c : Call} {s : Session σ} {f : Function σ}
    {raw : String} (hc : e.Calls registry c s) (hname : names c.name) (hP : P s.world)
    (ho : Opens registry c s f) (hraw : (f.call c.args s.world).1 = .ok raw) :
    Chained registry world ⟨n, raw, s.launched c f⟩ := by
  rw [hs.answers hP hname ho.found] at hraw
  have hlinked : e.LinkedBy registry (Refers registry world) := hch
  exact hlinked.nested hc ho fun nodes d => .intro ho.found ho.expands hraw

/-! ## Nodes -/

/-- Writing nodes keeps a session exact and records an error only if a call among them is bad, if so
does every such call. -/
theorem writeNodes_exact {n : Nat} {nodes : List Node} {s : Session σ}
    (hcall : ∀ c s', Meets (invokeAt registry n) nodes s c s' → Exact registry P world s' →
      Decides registry P world c.reference s' (invokeAt registry n c s'))
    (h : Exact registry P world s) :
    Exact registry P world (writeNodes (invokeAt registry n) nodes s).2 ∧
      ((writeNodes (invokeAt registry n) nodes s).2.errors ≠ s.errors →
        ∃ c, .call c ∈ nodes ∧ Bad registry world c.reference) := by
  induction nodes generalizing s with
  | nil => exact ⟨h, fun he => absurd rfl he⟩
  | cons node rest ih =>
    have hlift : (∃ c, Node.call c ∈ rest ∧ Bad registry world c.reference) →
        ∃ c, Node.call c ∈ node :: rest ∧ Bad registry world c.reference :=
      fun ⟨c, hc, hb⟩ => ⟨c, List.mem_cons_of_mem _ hc, hb⟩
    cases node with
    | text t =>
      obtain ⟨hx, hb⟩ := ih (fun c s' hm => hcall c s' (.afterText hm)) h
      exact ⟨hx, fun he => hlift (hb he)⟩
    | literal t =>
      obtain ⟨hx, hb⟩ := ih (fun c s' hm => hcall c s' (.afterLiteral hm)) h
      exact ⟨hx, fun he => hlift (hb he)⟩
    | call c =>
      have hc := hcall c s .call h
      obtain ⟨hx, hb⟩ := ih (fun d s' hm => hcall d s' (.afterCall hm)) hc.exact
      refine ⟨hx, fun he => ?_⟩
      -- The first node that records an error is a call, and this call is bad.
      by_cases hsame : (invokeAt registry n c s).2.errors = s.errors
      · exact hlift (hb fun heq => he (heq.trans hsame))
      · exact ⟨c, List.mem_cons_self, hc.bad hsame⟩

/-! ## Evaluations -/

/-- An evaluation keeps its session exact and records an error only if a call of its text is bad, if
so does every call of it. -/
theorem Evaluation.exact_of_calls {e : Evaluation σ}
    (hcall : ∀ c s, e.Calls registry c s → Exact registry P world s →
      Decides registry P world c.reference s (invokeAt registry e.headroom c s))
    (h : Exact registry P world e.session) :
    Exact registry P world (e.result registry).2 ∧
      ((e.result registry).2.errors ≠ e.session.errors →
        ∃ nodes c, registry.read e.text = .ok nodes ∧ .call c ∈ nodes ∧
          Bad registry world c.reference) := by
  cases hread : registry.read e.text with
  | error err =>
    rw [result, evaluate_of_read_error hread]
    exact ⟨h, fun he => absurd rfl he⟩
  | ok nodes =>
    rw [result, evaluate_of_read_ok hread]
    obtain ⟨hx, hb⟩ := writeNodes_exact (fun c s hm hs => hcall c s ⟨nodes, hread, hm⟩ hs) h
    refine ⟨hx, fun he => ?_⟩
    obtain ⟨c, hc, hbad⟩ := hb he
    exact ⟨nodes, c, rfl, hc, hbad⟩

/-- The calls of a tame evaluation record an error only if they are bad. -/
theorem Evaluation.Calls.decides (hk : registry.Keyed) (hs : registry.Steady names P world)
    (hq : registry.Quiet names) {e : Evaluation σ} (ht : e.Tame registry names)
    (hch : e.Chained registry world) {c : Call} {s : Session σ} (hc : e.Calls registry c s)
    (h : Exact registry P world s) :
    Decides registry P world c.reference s (invokeAt registry e.headroom c s) := by
  obtain ⟨n, text, start⟩ := e
  -- The induction is on the headroom, as for soundness.
  induction n using Nat.strongRecOn generalizing text start c s with
  | ind n ih =>
    obtain ⟨hname, hdepth⟩ := ht n c s hc.visits
    have hsound := (hc.sound hk hs (fun n c s hv => (ht n c s hv).1) h.toSound).sound
    have hacc := hc.accepts
    have hm := makes_invokeAt registry n c s
    simp only at hsound
    generalize invokeAt registry n c s = r at hm hsound hdepth ⊢
    cases hm with
    | unknown hf =>
      obtain ⟨f, hf', _⟩ := Registry.accepts_iff.1 hacc
      cases hf.symm.trans hf'
    | plain _ _ _ => exact ⟨⟨hsound, h.faulty⟩, fun he => absurd rfl he⟩
    | plainFailed hf _ he =>
      rw [hs.answers h.holds hname hf] at he
      exact ⟨⟨hsound, h.faulty⟩, fun _ => .of_fails (.refused hf he)⟩
    | @reused f o hf hx hl =>
      obtain ⟨v, error⟩ := o
      refine ⟨⟨hsound, h.faulty⟩, fun he => ?_⟩
      cases error with
      | none => exact absurd (List.append_nil _) he
      | some e =>
        -- The error may have come from a cycle that is open no more; the reference is bad still.
        exact h.faulty c.reference v e (hacc.expanding hf hx) (Memo.mem_of_lookup hl)
    | skipped hf _ _ ha =>
      rw [hq c.name _ hname hf] at ha
      cases ha
    | tooDeep _ _ _ _ _ => exact absurd (List.mem_append_right _ List.mem_cons_self) (hdepth _ _)
    | @cyclic f hf hx _ _ _ hkey =>
      -- The key in flight is that of this reference, and what it belongs to leads to this call.
      rw [hc.extends_before.inFlight] at hkey
      obtain ⟨r, hr, hrk, hlead⟩ := hch c.key hkey
      obtain rfl := hk r c.reference hr (hacc.expanding hf hx) hrk
      obtain ⟨nodes, hread, hm⟩ := hc
      exact ⟨⟨hsound, h.faulty⟩, fun _ => .of_fails (.cyclic (hlead nodes c hread hm.mem))⟩
    | failed ho _ he =>
      rw [hs.answers h.holds hname ho.found] at he
      have hbad : Bad registry world c.reference := .of_fails (.refused ho.found he)
      exact ⟨h.completeFailed hk hs ho hacc hbad _, fun _ => hbad⟩
    | rejected ho _ hraw hread =>
      rw [hs.answers h.holds hname ho.found] at hraw
      have hbad : Bad registry world c.reference :=
        .of_fails (.unreadable ho.found ho.expands hraw hread)
      exact ⟨h.completeFailed hk hs ho hacc hbad _, fun _ => hbad⟩
    | @expanded f raw v m s' ho hn hraw he =>
      have hx := hacc.expanding ho.found ho.expands
      have hnest : Evaluation.Nests registry ⟨n, text, start⟩ ⟨m, raw, s.launched c f⟩ :=
        .intro hc hn ho hraw
      have hchain := Evaluation.Nests.chained hs (n := m) hch hc hname h.holds ho hraw
      have hext := Evaluation.extends registry ⟨m, raw, s.launched c f⟩
      obtain ⟨hexact, hblame⟩ := Evaluation.exact_of_calls (e := ⟨m, raw, s.launched c f⟩)
        (fun d s' hd hsd => ih m (by omega) hsd raw (s.launched c f)
          (fun n c s hv => ht n c s (hnest.visits hv)) hchain hd) (h.launched hs ho.found)
      rw [Evaluation.result, he] at hext hexact hblame
      rw [hs.answers h.holds hname ho.found] at hraw
      have hbad (herr : s'.errors ≠ s.errors) : Bad registry world c.reference := by
        obtain ⟨nodes, d, hread, hd, hb⟩ := hblame herr
        exact .of_refers (.intro ho.found ho.expands hraw hread hd) hb
      refine ⟨⟨hsound, fun _ _ _ => faulty_complete hk hexact hx fun hne => ?_⟩, hbad⟩
      exact hbad fun heq => hne ((errors_eq_of_getElem? hext.errors).2 heq)

/-! ## Evaluations at any depth -/

/-- An evaluation all of whose calls are decided by the graph. -/
structure Evaluation.Ready (registry : Registry σ) (names : String → Prop) (P : σ → Prop)
    (world : σ) (e : Evaluation σ) : Prop where
  tame : e.Tame registry names
  chained : e.Chained registry world
  exact : Exact registry P world e.session

namespace Evaluation.Ready

variable {e e' : Evaluation σ}

/-- An evaluation that is ready ends in an exact session. -/
theorem result (hk : registry.Keyed) (hs : registry.Steady names P world)
    (hq : registry.Quiet names) (h : e.Ready registry names P world) :
    Exact registry P world (e.result registry).2 :=
  (exact_of_calls (fun _ _ hc hx => hc.decides hk hs hq h.tame h.chained hx) h.exact).1

/-- An evaluation that is ready makes every call in an exact session. -/
theorem before_call (hk : registry.Keyed) (hs : registry.Steady names P world)
    (hq : registry.Quiet names) (h : e.Ready registry names P world) {c : Call} {s : Session σ}
    (hc : e.Calls registry c s) : Exact registry P world s := by
  obtain ⟨nodes, hread, hm⟩ := hc
  refine hm.holds (fun d s' hd hx => ?_) h.exact
  have hcall : e.Calls registry d s' := ⟨nodes, hread, hd⟩
  exact (hcall.decides hk hs hq h.tame h.chained hx).exact

/-- An evaluation inside one that is ready is ready. -/
theorem nested (hk : registry.Keyed) (hs : registry.Steady names P world)
    (hq : registry.Quiet names) (h : e.Ready registry names P world)
    (hn : Nests registry e e') : e'.Ready registry names P world := by
  have ht : e'.Tame registry names := fun n c s hv => h.tame n c s (hn.visits hv)
  obtain ⟨hc, _, ho, hraw⟩ := hn
  have hx := h.before_call hk hs hq hc
  have hname := (h.tame _ _ _ hc.visits).1
  exact ⟨ht, Nests.chained hs h.chained hc hname hx.holds ho hraw, hx.launched hs ho.found⟩

/-- An evaluation at any depth inside one that is ready is ready. -/
theorem nests (hk : registry.Keyed) (hs : registry.Steady names P world)
    (hq : registry.Quiet names) (h : e.Ready registry names P world)
    (hn : Relation.ReflTransGen (Nests registry) e e') : e'.Ready registry names P world := by
  induction hn with
  | refl => exact h
  | tail _ hlast ih => exact ih.nested hk hs hq hlast

/-- A call at any depth records an error just if its reference is bad. -/
theorem errors_iff_bad (hk : registry.Keyed) (hs : registry.Steady names P world)
    (hq : registry.Quiet names) (h : e.Ready registry names P world) {n : Nat} {c : Call}
    {s : Session σ} (hv : e.Visits registry n c s) :
    (invokeAt registry n c s).2.errors ≠ s.errors ↔ Bad registry world c.reference := by
  obtain ⟨e', hn, rfl, hc⟩ := hv
  have hr := h.nests hk hs hq hn
  have hx := hr.before_call hk hs hq hc
  have hsound := hc.sound hk hs (fun n c s hv => (hr.tame n c s hv).1) hx.toSound
  refine ⟨(hc.decides hk hs hq hr.tame hr.chained hx).bad, fun hbad heq => ?_⟩
  exact (hsound.value heq).not_bad hbad

end Evaluation.Ready

/-! ## Sessions -/

/-- Rendering texts keeps a session exact. -/
theorem renderTexts_exact (hk : registry.Keyed) (hs : registry.Steady names P world)
    (hq : registry.Quiet names) {texts : List String} {s : Session σ}
    (ht : ∀ before t after, texts = before ++ t :: after →
      Evaluation.Tame registry names ⟨maxDepth, t, renderTexts registry before s⟩)
    (hfly : s.memo.inFlight = []) (h : Exact registry P world s) :
    Exact registry P world (renderTexts registry texts s) := by
  induction texts generalizing s with
  | nil => exact h
  | cons t rest ih =>
    -- Between texts no key is in flight, so nothing has to be known of those that are.
    have hchained : Evaluation.Chained registry world ⟨maxDepth, t, s⟩ := by
      intro k hk
      rw [hfly] at hk
      cases hk
    have hready : Evaluation.Ready registry names P world ⟨maxDepth, t, s⟩ :=
      ⟨ht [] t rest rfl, hchained, h⟩
    have hx : Exact registry P world (renderText registry t s).2 := by
      have := hready.result hk hs hq
      rw [Evaluation.result] at this
      rw [renderText]
      generalize evaluate registry maxDepth t s = r at this ⊢
      obtain ⟨e | v, s'⟩ := r
      · exact this.record e
      · exact this
    have hext := extends_renderText registry t s
    refine ih (fun before t' after he => ?_) (hext.inFlight.trans hfly) hx
    exact ht (t :: before) t' after (by rw [he, List.cons_append])

/-- A call of a session, at any depth, records an error just if its reference is bad. -/
theorem Subject.Visits.errors_iff_bad (hk : registry.Keyed) (hs : registry.Steady names P world)
    (hq : registry.Quiet names) {subject : Subject}
    (hnames : ∀ n c s, subject.Visits registry world n c s → names c.name)
    (hdepth : ∀ key limit, Error.tooDeep key limit ∉ (subject.session registry world).errors)
    {n : Nat} {c : Call} {s : Session σ} (hv : subject.Visits registry world n c s) :
    (invokeAt registry n c s).2.errors ≠ s.errors ↔ Bad registry world c.reference := by
  have htame : ∀ before t after, subject.texts = before ++ t :: after →
      Evaluation.Tame registry names ⟨maxDepth, t, renderTexts registry before (start world)⟩ := by
    intro before t after he n c s hvis
    have hvis' : subject.Visits registry world n c s := ⟨before, t, after, he, hvis⟩
    exact ⟨hnames n c s hvis', fun key limit hmem =>
      hdepth key limit (hvis'.grows.errors.subset hmem)⟩
  obtain ⟨before, t, after, he, hvis⟩ := hv
  have hext := extends_renderTexts registry before (start world)
  have hbefore : ∀ before' t' after', before = before' ++ t' :: after' →
      Evaluation.Tame registry names ⟨maxDepth, t', renderTexts registry before' (start world)⟩ :=
    fun before' t' after' he' =>
      htame before' t' (after' ++ t :: after) (by rw [he, he', List.append_assoc, List.cons_append])
  have hexact := renderTexts_exact hk hs hq hbefore rfl (.start hs)
  refine Evaluation.Ready.errors_iff_bad hk hs hq ⟨htame before t after he, ?_, hexact⟩ hvis
  intro k hkey
  rw [hext.inFlight] at hkey
  cases hkey

end Stencil.Template
