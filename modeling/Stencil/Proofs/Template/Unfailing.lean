import Stencil.Proofs.Template.Failure
import Stencil.Proofs.Template.Nesting

/-!
# References that do not fail

A reference is unfailing if, through some named functions, it leads to nothing that fails and not
back to itself; what other functions do is left open. Every call of a session without errors is
unfailing: in such a session a call is remembered only after all that it leads to.

A session that calls named functions only, over texts whose calls are unfailing, has no errors
either unless a call is cut off because its expansion would nest too deep. That is its first error
then, and it needs a chain of references that is longer than expansions may nest. So how deep they
may nest is the one thing that makes the order of the texts matter.
-/

namespace Stencil.Template

variable {σ : Type}

open Session

/-! ## Unfailing references -/

/-- A reference that leads, through named functions, to nothing that fails and not back to
itself. -/
inductive Unfailing (registry : Registry σ) (names : String → Prop) (world : σ) : Reference → Prop
  | other {r} : ¬ names r.name → Unfailing registry names world r
  | plain {r f v} : Table.get? r.name registry = some f → f.expands = false →
      (f.call r.args world).1 = .ok v → Unfailing registry names world r
  | expanding {r f raw nodes} : Table.get? r.name registry = some f → f.expands = true →
      (f.call r.args world).1 = .ok raw → registry.read raw = .ok nodes →
      (∀ c, .call c ∈ nodes → Unfailing registry names world c.reference) →
      Unfailing registry names world r

/-- A reference to a named function, and a call in the text that it returns. -/
def NamedRefers (registry : Registry σ) (names : String → Prop) (world : σ)
    (r q : Reference) : Prop :=
  names r.name ∧ Refers registry world r q

/-- A text that passes its checks and whose calls are unfailing. -/
def Safe (registry : Registry σ) (names : String → Prop) (world : σ) (text : String) : Prop :=
  ∃ nodes, registry.read text = .ok nodes ∧
    ∀ c, .call c ∈ nodes → Unfailing registry names world c.reference

variable {registry : Registry σ} {names : String → Prop} {world : σ}

namespace Unfailing

variable {r : Reference} {f : Function σ}

/-- The function of an unfailing reference returns a text. -/
theorem exists_ok (h : Unfailing registry names world r) (hn : names r.name)
    (hf : Table.get? r.name registry = some f) : ∃ v, (f.call r.args world).1 = .ok v := by
  cases h with
  | other hno => exact absurd hn hno
  | plain hf' _ hv =>
    obtain rfl := Option.some.inj (hf.symm.trans hf')
    exact ⟨_, hv⟩
  | expanding hf' _ hraw _ _ =>
    obtain rfl := Option.some.inj (hf.symm.trans hf')
    exact ⟨_, hraw⟩

/-- What the function of an unfailing reference returns to be expanded is safe. -/
theorem safe (h : Unfailing registry names world r) (hn : names r.name)
    (hf : Table.get? r.name registry = some f) (hx : f.expands = true) {raw : String}
    (hraw : (f.call r.args world).1 = .ok raw) : Safe registry names world raw := by
  cases h with
  | other hno => exact absurd hn hno
  | plain hf' hx' _ =>
    obtain rfl := Option.some.inj (hf.symm.trans hf')
    rw [hx] at hx'
    cases hx'
  | expanding hf' _ hraw' hread hall =>
    obtain rfl := Option.some.inj (hf.symm.trans hf')
    obtain rfl := Except.ok.inj (hraw.symm.trans hraw')
    exact ⟨_, hread, hall⟩

/-- An unfailing reference does not lead back to itself. -/
theorem acyclic (h : Unfailing registry names world r) :
    ¬ Relation.TransGen (NamedRefers registry names world) r r := by
  induction h with
  | other hno =>
    intro hcycle
    obtain ⟨q, hstep, -⟩ := Relation.TransGen.head'_iff.1 hcycle
    exact hno hstep.1
  | plain hf hx _ =>
    intro hcycle
    obtain ⟨q, ⟨-, hf', hx', _, _, _⟩, -⟩ := Relation.TransGen.head'_iff.1 hcycle
    obtain rfl := Option.some.inj (hf.symm.trans hf')
    rw [hx] at hx'
    cases hx'
  | expanding hf _ hraw hread _ ih =>
    intro hcycle
    obtain ⟨q, hstep, hback⟩ := Relation.TransGen.head'_iff.1 hcycle
    obtain ⟨-, hf', _, hraw', hread', hc⟩ := id hstep
    obtain rfl := Option.some.inj (hf.symm.trans hf')
    obtain rfl := Except.ok.inj (hraw.symm.trans hraw')
    obtain rfl := Except.ok.inj (hread.symm.trans hread')
    -- The same way round, begun one step later, leads from that call back to itself.
    exact ih _ hc (Relation.TransGen.tail' hback hstep)

end Unfailing

/-! ## Sessions without errors -/

section

variable {subject : Subject} (hclean : (subject.session registry world).errors = [])

include hclean

namespace Subject.Visits

variable {n : Nat} {c : Call} {s : Session σ}

/-- No call of the session brings an error. -/
theorem errors_eq_nil (h : subject.Visits registry world n c s) :
    (invokeAt registry n c s).2.errors = [] :=
  List.prefix_nil.1 (hclean ▸ h.grows.errors)

/-- A call of an expanding function is remembered after it was made. -/
theorem remembered (h : subject.Visits registry world n c s) {f : Function σ}
    (hf : Table.get? c.name registry = some f) (hx : f.expands = true) :
    c.key ∈ (invokeAt registry n c s).2.memo.keys := by
  have herr := h.errors_eq_nil hclean
  have hm := makes_invokeAt registry n c s
  generalize invokeAt registry n c s = r at herr hm ⊢
  cases hm with
  | unknown hf' => cases hf.symm.trans hf'
  | plain hf' hx' _ =>
    obtain rfl := Option.some.inj (hf.symm.trans hf')
    rw [hx] at hx'
    cases hx'
  | plainFailed _ _ _ => simp [fail] at herr
  | reused _ _ hl => exact List.mem_map_of_mem (Memo.mem_of_lookup hl)
  | skipped _ _ _ _ => simp [fail] at herr
  | tooDeep _ _ _ _ _ => simp [fail] at herr
  | cyclic _ _ _ _ _ _ => simp [fail] at herr
  | failed _ _ _ => simp [completeFailed, Session.complete] at herr
  | rejected _ _ _ _ => simp [completeFailed, Session.complete] at herr
  | expanded _ _ _ _ => exact List.mem_cons_self

/-- A call of a named function that does not expand got an answer. -/
theorem unfailing_plain (hs : registry.Steady names (fun _ => True) world)
    (h : subject.Visits registry world n c s) (hn : names c.name) {f : Function σ}
    (hf : Table.get? c.name registry = some f) (hx : f.expands = false) :
    Unfailing registry names world c.reference := by
  have herr := h.errors_eq_nil hclean
  cases hr : (f.call c.args s.world).1 with
  | ok v =>
    rw [hs.answers trivial hn hf] at hr
    exact .plain hf hx hr
  | error e =>
    have hrun : s.run f c.args = (.error e, (s.run f c.args).2) := Prod.ext hr rfl
    rw [invokeAt, invoke, hf] at herr
    simp only [hx, Bool.not_false, if_true] at herr
    rw [hrun] at herr
    simp [fail] at herr

/-- A call of a named function that opens evaluates the calls in the text that it returns before it
is remembered itself. -/
theorem before_remembered (hs : registry.Steady names (fun _ => True) world)
    (h : subject.Visits registry world (n + 1) c s) {f : Function σ} (ho : Opens registry c s f)
    (hn : names c.name) :
    ∃ raw nodes o earlier, (f.call c.args world).1 = .ok raw ∧ registry.read raw = .ok nodes ∧
      (invokeAt registry (n + 1) c s).2.memo.outcomes = (c.key, o) :: earlier ∧
      ∀ d, .call d ∈ nodes → ∃ s', subject.Visits registry world n d s' ∧
        (invokeAt registry n d s').2.memo.outcomes <:+ earlier := by
  have herr := h.errors_eq_nil hclean
  rw [invokeAt_of_opens ho] at herr ⊢
  cases hr : (f.call c.args s.world).1 with
  | error e => simp [hr, completeFailed, Session.complete] at herr
  | ok raw =>
    simp only [hr] at herr ⊢
    cases hread : registry.read raw with
    | error e =>
      simp [evaluate_of_read_error hread, completeFailed, Session.complete] at herr
    | ok nodes =>
      rw [evaluate_of_read_ok hread]
      have hworld := hs.answers (w := s.world) trivial hn ho.found c.args
      refine ⟨raw, nodes, _, _, hworld ▸ hr, hread, rfl, fun d hd => ?_⟩
      obtain ⟨before, t, after, ht, e, hne, hh, hc⟩ := h
      obtain ⟨s', hm⟩ := exists_meets (invokeAt registry n) hd (s.launched c f)
      exact ⟨s', ⟨before, t, after, ht, _, hne.tail (.intro hc hh ho hr), rfl, nodes, hread, hm⟩,
        hm.extends_after.grows.outcomes⟩

end Subject.Visits

/-- Where all calls are unfailing that opened and are among some first outcomes, so is every call
that ended with no others. -/
theorem unfailing_of_ended (hk : registry.Keyed)
    (hs : registry.Steady names (fun _ => True) world) {first : List (CallKey × Outcome)}
    (hfirst : first <:+ (subject.session registry world).memo.outcomes)
    (hopened : ∀ {m d s f}, subject.Visits registry world (m + 1) d s → Opens registry d s f →
      d.key ∈ first.map (·.1) → Unfailing registry names world d.reference)
    {n : Nat} {c : Call} {s : Session σ} (h : subject.Visits registry world n c s)
    (hend : (invokeAt registry n c s).2.memo.outcomes <:+ first) :
    Unfailing registry names world c.reference := by
  by_cases hn : names c.name
  · obtain ⟨f, hf, -⟩ := Registry.accepts_iff.1 h.accepts
    have hf : Table.get? c.name registry = some f := hf
    by_cases hx : f.expands = true
    · have hkey := (hend.map (·.1)).subset (h.remembered hclean hf hx)
      obtain ⟨⟨key, o⟩, hmem, rfl⟩ := List.mem_map.1 hkey
      -- The call that wrote the outcome may be another one of the same reference.
      obtain ⟨m, d, s', g, hv, ho, hdk, -⟩ := Subject.written (hfirst.subset hmem)
      have href : d.reference = c.reference :=
        hk _ _ (hv.accepts.expanding ho.found ho.expands) (h.accepts.expanding hf hx) hdk
      rw [← href]
      exact hopened hv ho (hdk ▸ hkey)
    · exact h.unfailing_plain hclean hs hn hf (Bool.eq_false_iff.2 hx)
  · exact .other hn

/-- Every call of a session without errors is unfailing. -/
theorem Subject.Visits.unfailing (hk : registry.Keyed)
    (hs : registry.Steady names (fun _ => True) world) {n : Nat} {c : Call} {s : Session σ}
    (h : subject.Visits registry world n c s) : Unfailing registry names world c.reference := by
  have hnodup : (subject.session registry world).memo.keys.Nodup :=
    subject.extends_session.nodup_keys List.nodup_nil
  -- The induction is on the outcomes, the oldest first: what a call leads to is older.
  have hopened : ∀ first, first <:+ (subject.session registry world).memo.outcomes →
      ∀ {m d s f}, subject.Visits registry world (m + 1) d s → Opens registry d s f →
        d.key ∈ first.map (·.1) → Unfailing registry names world d.reference := by
    intro first
    induction first with
    | nil => exact fun _ _ _ _ _ _ _ hmem => absurd hmem List.not_mem_nil
    | cons o first ih =>
      intro hfirst m d s f hv ho hmem
      have hrest := (List.suffix_cons o first).trans hfirst
      by_cases hn : names d.name
      · obtain ⟨raw, nodes, out, earlier, hraw, hread, houtcomes, hnested⟩ :=
          hv.before_remembered hclean hs ho hn
        have hend := hv.grows.outcomes
        rw [houtcomes] at hend
        have hearlier : earlier <:+ first := by
          rcases List.suffix_cons_iff.1 (Memo.suffix_of_mem hnodup hend hfirst hmem) with he | hin
          · exact (List.cons.inj he).2 ▸ List.suffix_rfl
          · exact (List.suffix_cons _ _).trans hin
        refine .expanding ho.found ho.expands hraw hread fun c hc => ?_
        obtain ⟨s', hvc, hsuffix⟩ := hnested c hc
        exact unfailing_of_ended hclean hk hs hrest (ih hrest) hvc (hsuffix.trans hearlier)
      · exact .other hn
  exact unfailing_of_ended hclean hk hs List.suffix_rfl (hopened _ List.suffix_rfl) h
    h.grows.outcomes

/-- Every text of a session without errors is safe. -/
theorem Subject.safe_of_mem (hk : registry.Keyed)
    (hs : registry.Steady names (fun _ => True) world) {t : String} (ht : t ∈ subject.texts) :
    Safe registry names world t := by
  obtain ⟨before, after, htexts⟩ := List.append_of_mem ht
  cases hread : registry.read t with
  | error e =>
    have hgrows : (renderText registry t (renderTexts registry before (start world))).2.errors <+:
        (subject.session registry world).errors := by
      rw [Subject.session_eq_renderTexts, htexts, renderTexts_append]
      exact (extends_renderTexts registry after _).errors
    rw [hclean, List.prefix_nil, renderText, evaluate_of_read_error hread] at hgrows
    simp at hgrows
  | ok nodes =>
    refine ⟨nodes, hread, fun c hc => ?_⟩
    obtain ⟨s, hv⟩ := subject.exists_visits ht hread hc
    exact hv.unfailing hclean hk hs

end

/-! ## Sessions over safe texts -/

/-- A session that has seen no error. -/
structure Session.Clean (s : Session σ) : Prop where
  errors : s.errors = []
  outcomes : ∀ o ∈ s.memo.outcomes, o.2.error = none

/-- A session whose first error is that of a call in `V` that could not be expanded, for it would
have nested too deep. -/
def Session.CutOff (V : Nat → Call → Session σ → Prop) (s : Session σ) : Prop :=
  ∃ c s', V 0 c s' ∧ s.errors.head? = some (.tooDeep c.key.text maxDepth)

/-- A step that extends a session and brings no error, unless a call in `V` is cut off. -/
structure StaysClean (V : Nat → Call → Session σ → Prop) (s s' : Session σ) : Prop where
  grows : Extends s s'
  clean : s.Clean → s'.Clean ∨ s'.CutOff V

variable {V : Nat → Call → Session σ → Prop}

/-- A session that was cut off stays so. -/
theorem Session.CutOff.extends {s s' : Session σ} (h : s.CutOff V) (hx : Extends s s') :
    s'.CutOff V := by
  obtain ⟨c, s₀, hv, hkey⟩ := h
  obtain ⟨rest, hrest⟩ := hx.errors
  exact ⟨c, s₀, hv, by rw [← hrest, List.head?_append, hkey]; rfl⟩

namespace StaysClean

theorem refl (s : Session σ) : StaysClean V s s := ⟨.refl s, .inl⟩

/-- Two steps that bring no error bring none together. -/
theorem trans {a b c : Session σ} (h : StaysClean V a b) (h' : StaysClean V b c) :
    StaysClean V a c := by
  refine ⟨h.grows.trans h'.grows, fun ha => ?_⟩
  rcases h.clean ha with hb | hb
  · exact h'.clean hb
  · exact .inr (hb.extends h'.grows)

end StaysClean

/-- A call that is unfailing brings no error, unless an expansion is cut off. -/
theorem Evaluation.Calls.staysClean (hk : registry.Keyed)
    (hs : registry.Steady names (fun _ => True) world) (hq : registry.Quiet names)
    (hnames : ∀ {n c s}, V n c s → names c.name) {e : Evaluation σ}
    (hv : ∀ n c s, e.Visits registry n c s → V n c s)
    (hl : e.LinkedBy registry (NamedRefers registry names world)) {c : Call} {s : Session σ}
    (hc : e.Calls registry c s) (hu : Unfailing registry names world c.reference) :
    StaysClean V s (invokeAt registry e.headroom c s).2 := by
  obtain ⟨n, text, start⟩ := e
  refine ⟨extends_invokeAt registry n c s, fun hclean => ?_⟩
  -- The induction is on the headroom; every nested evaluation has less of it.
  induction n using Nat.strongRecOn generalizing text start c s with
  | ind n ih =>
    have hname := hnames (hv n c s hc.visits)
    have hm := makes_invokeAt registry n c s
    generalize invokeAt registry n c s = r at hm
    cases hm with
    | unknown hf =>
      obtain ⟨f, hf', -⟩ := Registry.accepts_iff.1 hc.accepts
      cases hf.symm.trans hf'
    | plain _ _ _ => exact .inl ⟨hclean.errors, hclean.outcomes⟩
    | plainFailed hf _ he =>
      obtain ⟨v, hv⟩ := hu.exists_ok hname hf
      rw [hs.answers trivial hname hf] at he
      cases hv.symm.trans he
    | @reused f o _ _ hl =>
      have hnone : o.error = none := hclean.outcomes _ (Memo.mem_of_lookup hl)
      refine .inl ⟨?_, hclean.outcomes⟩
      simp [replay, hnone, hclean.errors]
    | skipped hf _ _ ha =>
      rw [hq c.name _ hname hf] at ha
      cases ha
    | tooDeep _ _ _ _ hzero =>
      subst hzero
      refine .inr ⟨c, s, hv 0 c s hc.visits, ?_⟩
      simp [fail, hclean.errors]
    | cyclic _ _ _ _ _ hkey =>
      -- What is under way under this key leads to this call, so the reference leads to itself.
      rename_i f hf hx _ _ _
      rw [hc.extends_before.inFlight] at hkey
      obtain ⟨r, hr, hrk, hlead⟩ := hl c.key hkey
      obtain rfl := hk r c.reference hr (hc.accepts.expanding hf hx) hrk
      obtain ⟨nodes, hread, hm⟩ := hc
      exact absurd (hlead nodes c hread hm.mem) hu.acyclic
    | failed ho _ he =>
      obtain ⟨v, hv⟩ := hu.exists_ok hname ho.found
      rw [hs.answers trivial hname ho.found] at he
      cases hv.symm.trans he
    | rejected ho _ hraw hread =>
      rw [hs.answers trivial hname ho.found] at hraw
      obtain ⟨nodes, hread', -⟩ := hu.safe hname ho.found ho.expands hraw
      cases hread'.symm.trans hread
    | @expanded f raw v m s' ho hn hraw he =>
      have hnest : Evaluation.Nests registry ⟨n, text, start⟩ ⟨m, raw, s.launched c f⟩ :=
        .intro hc hn ho hraw
      rw [hs.answers trivial hname ho.found] at hraw
      obtain ⟨nodes, hread, hall⟩ := hu.safe hname ho.found ho.expands hraw
      have hlinked := hl.nested (n := m) hc ho fun nodes d hread hd =>
        ⟨hname, .intro ho.found ho.expands hraw hread hd⟩
      have hwritten : StaysClean V (s.launched c f)
          (writeNodes (invokeAt registry m) nodes (s.launched c f)).2 := by
        refine writeNodes_rel .refl .trans fun d s'' hd => ?_
        refine ⟨extends_invokeAt registry m d s'', fun hclean' => ?_⟩
        have hvisits : ∀ n d s, Evaluation.Visits registry ⟨m, raw, _⟩ n d s → V n d s :=
          fun n d s hvis => hv n d s (hnest.visits hvis)
        exact ih m (by omega) (hall d hd.mem) raw _ hvisits hlinked ⟨nodes, hread, hd⟩ hclean'
      rw [evaluate_of_read_ok hread, Prod.mk.injEq] at he
      obtain ⟨-, rfl⟩ := he
      rcases hwritten.clean ⟨hclean.errors, hclean.outcomes⟩ with hc' | hcut
      · refine .inl ⟨hc'.errors, fun o ho => ?_⟩
        rw [complete_memo, Memo.finish, List.mem_cons] at ho
        rcases ho with rfl | ho
        · simp [hc'.errors]
        · exact hc'.outcomes o ho
      · exact .inr hcut

/-- Rendering safe texts, calling named functions only, brings no error unless a call is cut off. -/
theorem Session.staysClean_renderTexts (hk : registry.Keyed)
    (hs : registry.Steady names (fun _ => True) world) (hq : registry.Quiet names)
    (hnames : ∀ {n c s}, V n c s → names c.name) {texts : List String} {s : Session σ}
    (hsafe : ∀ t ∈ texts, Safe registry names world t)
    (hv : ∀ before t after, texts = before ++ t :: after → ∀ n c s',
      Evaluation.Visits registry ⟨maxDepth, t, renderTexts registry before s⟩ n c s' → V n c s')
    (hfly : s.memo.inFlight = []) : StaysClean V s (renderTexts registry texts s) := by
  induction texts generalizing s with
  | nil => exact .refl s
  | cons t rest ih =>
    obtain ⟨nodes, hread, hall⟩ := hsafe t List.mem_cons_self
    -- No key is in flight where a text starts, so no call is around it.
    have hlinked : Evaluation.LinkedBy registry (NamedRefers registry names world)
        ⟨maxDepth, t, s⟩ := by
      intro k hk
      rw [hfly] at hk
      cases hk
    have hfirst : StaysClean V s (renderText registry t s).2 := by
      rw [renderText, evaluate_of_read_ok hread]
      exact writeNodes_rel .refl .trans fun c s' hm =>
        Evaluation.Calls.staysClean (e := ⟨maxDepth, t, s⟩) hk hs hq hnames (hv [] t rest rfl)
          hlinked ⟨nodes, hread, hm⟩ (hall c hm.mem)
    refine hfirst.trans (ih (fun t' ht => hsafe t' (List.mem_cons_of_mem _ ht)) ?_ ?_)
    · intro before t' after he
      exact hv (t :: before) t' after (by rw [he, List.cons_append])
    · exact hfirst.grows.inFlight.trans hfly

/-- A session over safe texts that calls named functions only has no error, unless a call is cut
off. -/
theorem Subject.clean_or_cutOff (hk : registry.Keyed)
    (hs : registry.Steady names (fun _ => True) world) (hq : registry.Quiet names)
    {subject : Subject} (hsafe : ∀ t ∈ subject.texts, Safe registry names world t)
    (hv : ∀ n c s, subject.Visits registry world n c s → names c.name) :
    (subject.session registry world).Clean ∨
      (subject.session registry world).CutOff (subject.Visits registry world) := by
  rw [session_eq_renderTexts]
  refine (staysClean_renderTexts hk hs hq (hv _ _ _) hsafe ?_ rfl).clean ⟨rfl, ?_⟩
  · exact fun before t after ht n c s h => ⟨before, t, after, ht, h⟩
  · exact fun o ho => absurd ho List.not_mem_nil

/-! ## Chains -/

/-- A chain of `n` references goes out from a reference. -/
inductive Chain (registry : Registry σ) (world : σ) : Nat → Reference → Prop
  | zero {r} : Chain registry world 0 r
  | succ {r q n} : Refers registry world r q → Chain registry world n q →
      Chain registry world (n + 1) r

/-- A chain that goes out from a call is part of one from a call of the outermost text, longer by
the calls around it. -/
theorem Encloses.chain (hs : registry.Steady names (fun _ => True) world) {e e' : Evaluation σ}
    {calls : List Call} (h : Encloses registry e calls e')
    (hv : ∀ n c s, e.Visits registry n c s → names c.name) {nodes : List Node} {c : Call} {k : Nat}
    (hread : registry.read e'.text = .ok nodes) (hc : .call c ∈ nodes)
    (hchain : Chain registry world k c.reference) :
    ∃ nodes d, registry.read e.text = .ok nodes ∧ .call d ∈ nodes ∧
      Chain registry world (calls.length + k) d.reference := by
  induction h generalizing nodes c k with
  | self => exact ⟨nodes, c, hread, hc, by rwa [List.length_nil, Nat.zero_add]⟩
  | @nested calls e' n b s f raw h' hb hn ho hraw ih =>
    have hname := hv n.succ b s ⟨e', h'.nests, hn, hb⟩
    rw [hs.answers trivial hname ho.found] at hraw
    obtain ⟨nodes', hread', hm⟩ := hb
    have hrefers : Refers registry world b.reference c.reference :=
      .intro ho.found ho.expands hraw hread hc
    obtain ⟨nodes, d, hr, hd, hlong⟩ := ih hread' hm.mem (.succ hrefers hchain)
    refine ⟨nodes, d, hr, hd, ?_⟩
    rwa [List.length_cons, Nat.add_right_comm, Nat.add_assoc]

/-- A call that nothing more may be expanded for ends a chain from a call of one of the texts. -/
theorem Subject.Visits.chain (hs : registry.Steady names (fun _ => True) world) {subject : Subject}
    (hv : ∀ n c s, subject.Visits registry world n c s → names c.name) {c : Call} {s : Session σ}
    (h : subject.Visits registry world 0 c s) :
    ∃ t ∈ subject.texts, ∃ nodes d, registry.read t = .ok nodes ∧ .call d ∈ nodes ∧
      Chain registry world maxDepth d.reference := by
  obtain ⟨before, t, after, ht, e, hn, hzero, nodes, hread, hm⟩ := h
  obtain ⟨calls, he⟩ := Encloses.exists_of_nests hn
  have hlength := he.headroom
  rw [hzero, Nat.add_zero] at hlength
  obtain ⟨nodes', d, hread', hd, hchain⟩ := he.chain hs
    (fun n c s hvis => hv n c s ⟨before, t, after, ht, hvis⟩) hread hm.mem .zero
  rw [hlength] at hchain
  exact ⟨t, by rw [ht]; exact List.mem_append_right _ List.mem_cons_self, nodes', d, hread', hd,
    hchain⟩

end Stencil.Template
