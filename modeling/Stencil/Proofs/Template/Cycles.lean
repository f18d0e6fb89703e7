import Stencil.Proofs.Template.Checks
import Stencil.Proofs.Template.Order
import Stencil.Proofs.Template.Recognition

/-!
# Calls inside themselves

A call whose key is in flight is made inside an earlier call of the same key, so expanding it would
never end. Such a call is neither unknown nor remembered; what is left for it is to be held back for
its side effects, to find no headroom, or to be recorded as a cycle.

Errors come from somewhere: `Raises` lists what a call records of its own, and every error of a
session is one that is known before any function runs or one that some call raised. So an expansion
that was cut off was one inside as many others as may nest.
-/

namespace Stencil.Template

variable {σ : Type} {registry : Registry σ} {world : σ} {subject : Subject}

open Session

/-! ## Calls that are under way -/

/-- What becomes of an expanding call that is under way, and so not remembered. -/
theorem Session.invokeAt_of_inFlight {c : Call} {s : Session σ} {f : Function σ}
    (hf : Table.get? c.name registry = some f) (hx : f.expands = true)
    (hl : s.memo.lookup c.key = none) (hk : s.memo.isCyclic c.key = true) (n : Nat) :
    invokeAt registry n c s =
      if (f.sideEffects && !s.errors.isEmpty) = true then
        s.fail (.upload (c.key.text ++ " skipped after earlier error"))
      else if n = 0 then s.fail (.tooDeep c.key.text maxDepth)
      else s.fail (.cyclic c.key.text) := by
  rw [invokeAt, invoke, hf]
  dsimp only
  rw [hx, hl]
  by_cases ha : (f.sideEffects && !s.errors.isEmpty) = true
  · rw [if_pos ha, ha]
    rfl
  · rw [if_neg ha, Bool.eq_false_iff.2 ha]
    cases n with
    | zero => rfl
    | succ n =>
      simp only [expansion?, Memo.begin?, hk, if_true]
      rfl

namespace Subject.VisitsInside

variable {calls : List Call} {n : Nat} {c : Call} {s : Session σ}

/-- A call that is made inside others is made. -/
theorem visits (h : subject.VisitsInside registry world calls n c s) :
    subject.Visits registry world n c s := by
  obtain ⟨before, t, after, e, ht, he, hn, hc⟩ := h
  exact ⟨before, t, after, ht, e, he.nests, hn, hc⟩

/-- The calls around one have taken what is missing from its headroom. -/
theorem depth (h : subject.VisitsInside registry world calls n c s) :
    calls.length + n = maxDepth := by
  obtain ⟨before, t, after, e, ht, he, rfl, hc⟩ := h
  exact he.headroom

/-- The keys in flight are those of the calls around. -/
theorem inFlight (h : subject.VisitsInside registry world calls n c s) :
    s.memo.inFlight = calls.map Call.key := by
  obtain ⟨before, t, after, e, ht, he, hn, hc⟩ := h
  rw [hc.extends_before.inFlight, he.inFlight,
    (extends_renderTexts registry before (start world)).inFlight]
  exact List.append_nil _

/-- A call is made in a tidy session. -/
theorem tidy (h : subject.VisitsInside registry world calls n c s) : s.Tidy := by
  obtain ⟨before, t, after, e, ht, he, hn, hc⟩ := h
  have hstart := extends_renderTexts registry before (start world)
  exact hc.extends_before.tidy (he.tidy (hstart.tidy (tidy_start world)))

/-- Every call that is made is made inside some others. -/
theorem exists_of_visits (h : subject.Visits registry world n c s) :
    ∃ calls, subject.VisitsInside registry world calls n c s := by
  obtain ⟨before, t, after, ht, e, hn, hhead, hc⟩ := h
  obtain ⟨calls, he⟩ := Encloses.exists_of_nests hn
  exact ⟨calls, before, t, after, e, ht, he, hhead, hc⟩

/-- A key that is in flight is that of a call around, so its function is known and expands. -/
theorem exists_expanding (h : subject.VisitsInside registry world calls n c s)
    (hk : s.memo.isCyclic c.key = true) :
    ∃ f, Table.get? c.name registry = some f ∧ f.expands = true := by
  rw [Memo.isCyclic, List.contains_iff_mem, h.inFlight] at hk
  obtain ⟨d, hd, hkey⟩ := List.mem_map.1 hk
  obtain ⟨before, t, after, e, ht, he, -⟩ := id h
  obtain ⟨m, s', f, hv, ho⟩ := he.visits hd
  have hsame : c.ReadsAs d := h.visits.readsAs_of_key ⟨before, t, after, ht, hv⟩ hkey
  exact ⟨f, hsame.1 ▸ ho.found, ho.expands⟩

/-- A key in flight has no outcome yet. -/
theorem lookup_eq_none (h : subject.VisitsInside registry world calls n c s)
    (hk : s.memo.isCyclic c.key = true) : s.memo.lookup c.key = none :=
  h.tidy.fresh c.key (List.contains_iff_mem.1 hk)

end Subject.VisitsInside

/-! ## Where errors come from -/

/-- The errors that a call can record of its own which are not known before any function runs. -/
inductive Raises (registry : Registry σ) (n : Nat) (c : Call) (s : Session σ) : Error → Prop
  | refused {f e} : Table.get? c.name registry = some f → (f.call c.args s.world).1 = .error e →
      Raises registry n c s e
  | skipped {f} : Table.get? c.name registry = some f →
      (f.sideEffects && !s.errors.isEmpty) = true →
      Raises registry n c s (.upload (c.key.text ++ " skipped after earlier error"))
  | tooDeep : n = 0 → Raises registry n c s (.tooDeep c.key.text maxDepth)
  | cyclic : n ≠ 0 → s.memo.isCyclic c.key = true → Raises registry n c s (.cyclic c.key.text)

/-- An error that is known before any function runs, or that some call in `V` raised. -/
def Arises (registry : Registry σ) (V : Nat → Call → Session σ → Prop) (e : Error) : Prop :=
  e.isStatic = true ∨ ∃ n c s, V n c s ∧ Raises registry n c s e

/-- All errors of a session, those that are remembered too, have a property. -/
structure Session.Accounted (P : Error → Prop) (s : Session σ) : Prop where
  errors : ∀ e ∈ s.errors, P e
  outcomes : ∀ o ∈ s.memo.outcomes, ∀ e ∈ o.2.error, P e

namespace Session.Accounted

variable {P : Error → Prop} {s : Session σ}

theorem start (world : σ) : (Session.start world).Accounted P :=
  ⟨fun _ he => absurd he List.not_mem_nil, fun _ ho => absurd ho List.not_mem_nil⟩

/-- An error with the property may be recorded. -/
theorem record (h : s.Accounted P) {e : Error} (he : P e) : (s.record e).Accounted P := by
  refine ⟨fun e' he' => ?_, h.outcomes⟩
  rcases List.mem_append.1 he' with he' | he'
  · exact h.errors e' he'
  · exact List.mem_singleton.1 he' ▸ he

/-- An outcome that is remembered may be replayed. -/
theorem replay (h : s.Accounted P) {key : CallKey} {o : Outcome}
    (ho : s.memo.lookup key = some o) : (s.replay o).Accounted P := by
  refine ⟨fun e he => ?_, h.outcomes⟩
  rcases List.mem_append.1 he with he | he
  · exact h.errors e he
  · exact h.outcomes _ (Memo.mem_of_lookup ho) e (Option.mem_toList.1 he)

/-- A call may end with an error that has the property. -/
theorem complete (h : s.Accounted P) (key : CallKey) (value : String) {error : Option Error}
    (herror : ∀ e ∈ error, P e) : (s.complete key value error).2.Accounted P := by
  refine ⟨h.errors, fun o ho => ?_⟩
  rcases List.mem_cons.1 ho with rfl | ho
  · exact herror
  · exact h.outcomes o ho

theorem completeFailed (h : s.Accounted P) (key : CallKey) {e : Error} (he : P e) :
    (s.completeFailed key e).2.Accounted P :=
  (h.record he).complete key e.marker fun _ he' => Option.some.inj he' ▸ he

end Session.Accounted

variable {V : Nat → Call → Session σ → Prop}

/-- A call leaves a session of which all errors arise from calls in `V`, if what it returns is
evaluated to such a session. -/
theorem Session.Accounted.invokeAt {n : Nat} {c : Call} {s : Session σ} (hv : V n c s)
    (hs : s.Accounted (Arises registry V))
    (nested : ∀ {m f raw}, n = m + 1 → Opens registry c s f →
      (f.call c.args s.world).1 = .ok raw → (s.launched c f).Accounted (Arises registry V) →
      (evaluate registry m raw (s.launched c f)).2.Accounted (Arises registry V)) :
    (invokeAt registry n c s).2.Accounted (Arises registry V) := by
  have hraised {e : Error} (h : Raises registry n c s e) : Arises registry V e :=
    .inr ⟨n, c, s, hv, h⟩
  -- Running a function changes the surroundings only.
  have hlaunched (f : Function σ) : (s.launched c f).Accounted (Arises registry V) :=
    ⟨hs.errors, hs.outcomes⟩
  have hm := makes_invokeAt registry n c s
  generalize Session.invokeAt registry n c s = r at hm
  cases hm with
  | unknown _ => exact hs.record (.inl rfl)
  | plain _ _ _ => exact ⟨hs.errors, hs.outcomes⟩
  | @plainFailed f e hf _ hr =>
    have hrun : (s.run f c.args).2.Accounted (Arises registry V) := ⟨hs.errors, hs.outcomes⟩
    exact hrun.record (hraised (.refused hf hr))
  | reused _ _ hl => exact hs.replay hl
  | skipped hf _ _ ha => exact hs.record (hraised (.skipped hf ha))
  | tooDeep _ _ _ _ hn => exact hs.record (hraised (.tooDeep hn))
  | cyclic _ _ _ _ hn hk => exact hs.record (hraised (.cyclic hn (List.contains_iff_mem.2 hk)))
  | failed ho _ hr => exact (hlaunched _).completeFailed _ (hraised (.refused ho.found hr))
  | rejected _ _ _ hread =>
    exact (hlaunched _).completeFailed _ (.inl (Registry.isStatic_of_read hread))
  | expanded ho hn hraw he =>
    have hinner := nested hn ho hraw (hlaunched _)
    rw [he] at hinner
    exact hinner.complete _ _ fun e hmem => hinner.errors e (List.mem_of_getElem? hmem)

/-- All errors after an evaluation arise from its calls, if those before do. -/
theorem Evaluation.accounted (e : Evaluation σ) (hv : ∀ n c s, e.Visits registry n c s → V n c s)
    (hs : e.session.Accounted (Arises registry V)) :
    (e.result registry).2.Accounted (Arises registry V) := by
  obtain ⟨n, text, s⟩ := e
  -- The induction is on the headroom: an evaluation nested in a call has less of it.
  induction n using Nat.strongRecOn generalizing text s with
  | ind n ih =>
    cases hread : registry.read text with
    | error err =>
      rw [result, evaluate_of_read_error hread]
      exact hs
    | ok nodes =>
      rw [result, evaluate_of_read_ok hread]
      let R (s s' : Session σ) : Prop :=
        s.Accounted (Arises registry V) → s'.Accounted (Arises registry V)
      refine @writeNodes_rel σ R (fun _ => id) (fun h h' => h' ∘ h) _ _ _ (fun c s' hm hs' => ?_) hs
      have hc : (⟨n, text, s⟩ : Evaluation σ).Calls registry c s' := ⟨nodes, hread, hm⟩
      refine hs'.invokeAt (hv n c s' hc.visits) fun {m f raw} hn ho hraw hlaunched => ?_
      exact ih m (Nat.lt_of_succ_le (Nat.le_of_eq hn.symm)) raw (s'.launched c f)
        (fun n' d s'' hd => hv n' d s'' ((Nests.intro hc hn ho hraw).visits hd)) hlaunched

/-- The errors of rendering a text arise in the calls that it makes. -/
theorem Session.Accounted.renderText {t : String} {s : Session σ}
    (hv : ∀ n c s', Evaluation.Visits registry ⟨maxDepth, t, s⟩ n c s' → V n c s')
    (hs : s.Accounted (Arises registry V)) :
    (renderText registry t s).2.Accounted (Arises registry V) := by
  have he := Evaluation.accounted ⟨maxDepth, t, s⟩ hv hs
  rw [Evaluation.result] at he
  rw [Session.renderText]
  cases hread : registry.read t with
  | error e =>
    rw [evaluate_of_read_error hread] at he ⊢
    exact he.record (.inl (Registry.isStatic_of_read hread))
  | ok nodes =>
    rw [evaluate_of_read_ok hread] at he ⊢
    exact he

/-- The errors of rendering texts arise in the calls that they make. -/
theorem Session.Accounted.renderTexts {texts : List String} {s : Session σ}
    (hv : ∀ before t after, texts = before ++ t :: after → ∀ n c s',
      Evaluation.Visits registry ⟨maxDepth, t, renderTexts registry before s⟩ n c s' → V n c s')
    (hs : s.Accounted (Arises registry V)) :
    (renderTexts registry texts s).Accounted (Arises registry V) := by
  induction texts generalizing s with
  | nil => exact hs
  | cons t rest ih =>
    refine ih (fun before t' after ht => ?_) (hs.renderText (hv [] t rest rfl))
    exact hv (t :: before) t' after (by rw [ht, List.cons_append])

/-- Every error of a session is known before any function runs, or one of its calls raised it. -/
theorem Subject.arises {e : Error} (h : e ∈ (subject.session registry world).errors) :
    Arises registry (subject.Visits registry world) e := by
  rw [session_eq_renderTexts] at h
  have hs : (renderTexts registry subject.texts (start world)).Accounted
      (Arises registry (subject.Visits registry world)) :=
    (Accounted.start world).renderTexts fun before t after ht n c s hv => ⟨before, t, after, ht, hv⟩
  exact hs.errors e h

/-! ## What a session tells -/

/-- What a session tells of calls that are made inside themselves, and of calls that nest too
deep. -/
structure TellsCycles (registry : Registry σ) (world : σ) (subject : Subject) : Prop where
  /-- A call whose key is in flight, and which has fewer calls around it than may nest, records the
  cycle and nothing else, unless it has side effects and an error came before. -/
  told : ∀ calls n c s, subject.VisitsInside registry world calls n c s →
    calls.length < maxDepth → s.memo.isCyclic c.key = true →
    (∀ f, Table.get? c.name registry = some f → f.sideEffects = true → s.errors = []) →
    invokeAt registry n c s = s.fail (.cyclic c.key.text)
  /-- If it has and one did, it is skipped like every call with side effects after an error. -/
  skipped : ∀ calls n c s f, subject.VisitsInside registry world calls n c s →
    s.memo.isCyclic c.key = true → Table.get? c.name registry = some f → f.sideEffects = true →
    s.errors ≠ [] →
    invokeAt registry n c s = s.fail (.upload (c.key.text ++ " skipped after earlier error"))
  /-- An expansion that nests too deep is recorded only for a call with as many others around it as
  may nest, whose keys are all different; if its own is not in flight, it is different from them
  all. Otherwise the error is the answer of a function. -/
  deep : ∀ key limit, .tooDeep key limit ∈ (subject.session registry world).errors →
    (∃ calls c s, subject.VisitsInside registry world calls 0 c s ∧ key = c.key.text ∧
      limit = maxDepth ∧ calls.length = maxDepth ∧ (calls.map Call.key).Nodup ∧
      (s.memo.isCyclic c.key = false → ((c :: calls).map Call.key).Nodup)) ∨
    ∃ n c s f, subject.Visits registry world n c s ∧ Table.get? c.name registry = some f ∧
      (f.call c.args s.world).1 = .error (.tooDeep key limit)

/-- In every session, a call that is made inside itself is told, and only chains of different calls
are cut off. -/
theorem cycles_told (registry : Registry σ) (world : σ) (subject : Subject) :
    TellsCycles registry world subject where
  told calls n c s h hlength hk hpure := by
    obtain ⟨f, hf, hx⟩ := h.exists_expanding hk
    have hn : n ≠ 0 := by
      have := h.depth
      omega
    -- Neither side effects nor the depth end the call before its key is looked for.
    have hallowed : ¬ (f.sideEffects && !s.errors.isEmpty) = true := by
      intro ha
      rw [Bool.and_eq_true] at ha
      rw [hpure f hf ha.1] at ha
      exact absurd ha.2 Bool.false_ne_true
    rw [invokeAt_of_inFlight hf hx (h.lookup_eq_none hk) hk, if_neg hallowed, if_neg hn]
  skipped calls n c s f h hk hf hside herrors := by
    obtain ⟨g, hg, hx⟩ := h.exists_expanding hk
    obtain rfl := Option.some.inj (hf.symm.trans hg)
    have hheld : (f.sideEffects && !s.errors.isEmpty) = true := by
      rw [hside, Bool.true_and, Bool.not_eq_true', List.isEmpty_eq_false_iff]
      exact herrors
    rw [invokeAt_of_inFlight hf hx (h.lookup_eq_none hk) hk, if_pos hheld]
  deep key limit he := by
    obtain hstatic | ⟨n, c, s, hv, hraised⟩ := Subject.arises he
    · exact absurd hstatic Bool.false_ne_true
    cases hraised with
    | refused hf hr => exact .inr ⟨n, c, s, _, hv, hf, hr⟩
    -- Without headroom as many calls are around this one as may nest, all with different keys.
    | tooDeep hn =>
      subst hn
      obtain ⟨calls, h⟩ := Subject.VisitsInside.exists_of_visits hv
      have hnodup : (calls.map Call.key).Nodup := h.inFlight ▸ h.tidy.nodup
      refine .inl ⟨calls, c, s, h, rfl, rfl, h.depth, hnodup, fun hfree => ?_⟩
      refine List.nodup_cons.2 ⟨fun hmem => ?_, hnodup⟩
      rw [← h.inFlight, ← List.contains_iff_mem] at hmem
      exact Bool.eq_false_iff.1 hfree hmem

/-- A function with side effects that asks for itself twice. -/
def repeated : Function Unit :=
  ⟨.exactly 0, true, true, fun _ w => (.ok "\x7b\x7bagain\x7d\x7d\x7b\x7bagain\x7d\x7d", w)⟩

/-- The registry of that function. -/
def repeating : Registry Unit := [("again", repeated)]

/-- The call of that function. -/
def again : Call := ⟨"again", [], 1⟩

theorem read_again : repeating.read "\x7b\x7bagain\x7d\x7d" = .ok [.call again] :=
  eq_ok_of_toOption (by decide +kernel)

theorem read_again_twice : repeating.read "\x7b\x7bagain\x7d\x7d\x7b\x7bagain\x7d\x7d" =
    .ok [.call again, .call again] := eq_ok_of_toOption (by decide +kernel)

theorem opens_again : Opens repeating again (start ()) repeated :=
  ⟨rfl, rfl, rfl, rfl, List.not_mem_nil⟩

/-- A function that asks for itself: the first call inside its own is told. -/
theorem cycles_told_repeating :
    ∃ s, (Subject.text "\x7b\x7bagain\x7d\x7d").VisitsInside repeating () [again] 127 again s ∧
      s.memo.isCyclic again.key = true ∧ s.errors = [] ∧
      invokeAt repeating 127 again s = s.fail (.cyclic again.key.text) := by
  have he : Encloses repeating ⟨maxDepth, "\x7b\x7bagain\x7d\x7d", start ()⟩ [again]
      ⟨127, "\x7b\x7bagain\x7d\x7d\x7b\x7bagain\x7d\x7d", (start ()).launched again repeated⟩ :=
    .nested .self ⟨_, read_again, .call⟩ rfl opens_again rfl
  have hv : (Subject.text "\x7b\x7bagain\x7d\x7d").VisitsInside repeating () [again] 127 again
      ((start ()).launched again repeated) :=
    ⟨[], _, [], _, rfl, he, rfl, _, read_again_twice, .call⟩
  refine ⟨_, hv, rfl, rfl, ?_⟩
  exact (cycles_told repeating () _).told _ _ _ _ hv (by decide) rfl fun _ _ _ => rfl

/-! ## Calls under way that are not told -/

/-- A call that opens makes, in the session that it has launched, the call that stands first in what
its function returns. -/
theorem Subject.Visits.first {n : Nat} {c d : Call} {s : Session σ} {f : Function σ} {raw : String}
    {rest : List Node} (h : subject.Visits registry world (n + 1) c s) (ho : Opens registry c s f)
    (hraw : (f.call c.args s.world).1 = .ok raw)
    (hread : registry.read raw = .ok (.call d :: rest)) :
    subject.Visits registry world n d (s.launched c f) := by
  obtain ⟨before, t, after, ht, e, hn, hh, hc⟩ := h
  exact ⟨before, t, after, ht, _, hn.tail (.intro hc hh ho hraw), rfl, _, hread, .call⟩

/-- A function that asks for a longer key up to the last one, which asks for itself. -/
def climbed (last : Nat) : Function Unit :=
  ⟨.exactly 1, true, false, fun args w => (.ok (placeholder
    (if (Function.first args).length < last then Function.first args ++ "a"
      else Function.first args)), w)⟩

/-- The registry of that function. -/
def climbing (last : Nat) : Registry Unit := [("cfg", climbed last)]

section

variable {last : Nat}

/-- Below the last key the function asks for the next one. -/
theorem call_climbed_of_lt {i : Nat} (h : i < last) (w : Unit) :
    ((climbed last).call (asks i).args w).1 = .ok (placeholder (link (i + 1))) := by
  show Except.ok (placeholder (if (link i).length < last then link i ++ "a" else link i)) = _
  rw [length_link, if_pos h, link_succ]

/-- At the last key the function asks for that again. -/
theorem call_climbed_last (w : Unit) :
    ((climbed last).call (asks last).args w).1 = .ok (placeholder (link last)) := by
  show Except.ok (placeholder (if (link last).length < last then _ else link last)) = _
  rw [length_link, if_neg (Nat.lt_irrefl last)]

/-- The text that asks for a key is read as the call of it. -/
theorem read_climbing (last i : Nat) :
    (climbing last).read (placeholder (link i)) = .ok [.call (asks i)] := by
  rw [Registry.read, parse_placeholder (rawMark_not_mem_link i)]
  rfl

/-- A call of a key is new where only shorter keys are in flight. -/
theorem opens_climbing {i : Nat} {s : Session Unit} (hnone : s.memo.outcomes = [])
    (hbelow : ∀ k ∈ s.memo.inFlight, ∃ j < i, (asks j).key = k) :
    Opens (climbing last) (asks i) s (climbed last) where
  found := rfl
  expands := rfl
  fresh := by rw [Memo.lookup, hnone]; rfl
  allowed := rfl
  grounded hmem := by
    obtain ⟨j, hj, hkey⟩ := hbelow _ hmem
    have := key_asks_inj hkey
    omega

/-- The session of the first key makes the call of every other, inside those of shorter keys. -/
theorem visits_climbing {i : Nat} (hi : i ≤ last) (hdepth : i ≤ maxDepth) :
    ∃ s, (Subject.text (placeholder (link 0))).Visits (climbing last) () (maxDepth - i) (asks i) s ∧
      s.memo.outcomes = [] ∧ ∀ k ∈ s.memo.inFlight, ∃ j < i, (asks j).key = k := by
  induction i with
  | zero =>
    refine ⟨start (), ⟨[], _, [], rfl, _, .refl, rfl, _, read_climbing last 0, .call⟩, rfl, ?_⟩
    exact fun k hk => absurd hk List.not_mem_nil
  | succ i ih =>
    obtain ⟨s, hv, hnone, hbelow⟩ := ih (by omega) (by omega)
    have hn : maxDepth - i = maxDepth - (i + 1) + 1 := by omega
    rw [hn] at hv
    refine ⟨s.launched (asks i) (climbed last), ?_, hnone, fun k hk => ?_⟩
    · exact hv.first (opens_climbing hnone hbelow) (call_climbed_of_lt (by omega) _)
        (read_climbing last (i + 1))
    · rcases List.mem_cons.1 hk with rfl | hk
      · exact ⟨i, Nat.lt_succ_self i, rfl⟩
      · obtain ⟨j, hj, hkey⟩ := hbelow k hk
        exact ⟨j, Nat.lt_succ_of_lt hj, hkey⟩

end

/-- A call with side effects is under way and is skipped, as the first of the two recorded a cycle;
and a call is under way where no more expansions may nest, and is cut off. -/
theorem under_way_not_told :
    (∃ s, (Subject.text "\x7b\x7bagain\x7d\x7d").Visits repeating () 127 again s ∧
      s.memo.isCyclic again.key = true ∧ (invokeAt repeating 127 again s).2.errors =
        s.errors ++ [.upload "again: skipped after earlier error"]) ∧
    ∃ s, (Subject.text (placeholder (link 0))).Visits (climbing 127) () 0 (asks 127) s ∧
      s.memo.isCyclic (asks 127).key = true ∧ (invokeAt (climbing 127) 0 (asks 127) s).2.errors =
        s.errors ++ [.tooDeep (asks 127).key.text maxDepth] := by
  constructor
  -- The function has side effects and calls itself twice: the second call comes after an error.
  · let s := (start ()).launched again repeated
    have hfound : Table.get? again.name repeating = some repeated := rfl
    have hcyclic : invokeAt repeating 127 again s = s.fail (.cyclic again.key.text) := by
      rw [invokeAt_of_inFlight hfound rfl rfl rfl]
      rfl
    refine ⟨(invokeAt repeating 127 again s).2, ?_, ?_, ?_⟩
    · exact ⟨[], _, [], rfl, _, .single (.intro ⟨_, read_again, .call⟩ rfl opens_again rfl), rfl, _,
        read_again_twice, .afterCall .call⟩
    · rw [hcyclic]
      rfl
    · rw [hcyclic, invokeAt_of_inFlight hfound rfl rfl rfl]
      rfl
  -- The last of the links leads to itself, at a depth where nothing may be expanded any more.
  · obtain ⟨s, hv, hnone, hbelow⟩ := @visits_climbing 127 127 (Nat.le_refl 127) (by decide)
    have ho : Opens (climbing 127) (asks 127) s (climbed 127) := opens_climbing hnone hbelow
    let s' := s.launched (asks 127) (climbed 127)
    have hk : s'.memo.isCyclic (asks 127).key = true :=
      List.contains_iff_mem.2 List.mem_cons_self
    have hl : s'.memo.lookup (asks 127).key = none := ho.fresh
    refine ⟨s', ?_, hk, ?_⟩
    · exact hv.first ho (call_climbed_last _) (read_climbing 127 127)
    · rw [invokeAt_of_inFlight ho.found ho.expands hl hk]
      rfl

end Stencil.Template
