import Stencil.Proofs.Template.Opening
import Stencil.Proofs.Template.Watching

/-!
# Expanding calls run once

From the moment its function runs to the end of the session, the key of an expanding call is in
flight or remembered, on every way that the call can end. So its function does not run again, its
outcome is written once, and every later call of the key is answered from the memo.
-/

namespace Stencil.Template

variable {σ : Type}

open Session

/-- What a step of a watched session notes: keys that are new to the session, each once, and all of
them remembered afterwards. -/
structure Notes (s s' : Session (σ × List CallKey)) : Prop extends Extends s s' where
  noted : ∃ new, s'.world.2 = s.world.2 ++ new ∧ new.Nodup ∧
    ∀ k ∈ new, k ∉ s.memo.inFlight ∧ k ∉ s.memo.keys ∧ k ∈ s'.memo.keys

namespace Notes

variable {s s' s'' : Session (σ × List CallKey)}

theorem of_world (h : Extends s s') (hw : s'.world.2 = s.world.2) : Notes s s' :=
  ⟨h, [], by rw [hw, List.append_nil], List.nodup_nil, by simp⟩

/-- What two steps note is noted by both. -/
theorem trans (h : Notes s s') (h' : Notes s' s'') : Notes s s'' := by
  obtain ⟨new, hw, hn, hk⟩ := h.noted
  obtain ⟨new', hw', hn', hk'⟩ := h'.noted
  refine ⟨h.toExtends.trans h'.toExtends, new ++ new', ?_, ?_, fun k hmem => ?_⟩
  · rw [hw', hw, List.append_assoc]
  · rw [List.nodup_append']
    -- What the first step noted is remembered, so the second cannot note it again.
    exact ⟨hn, hn', fun k hmem hmem' => (hk' k hmem').2.1 (hk k hmem).2.2⟩
  · rcases List.mem_append.1 hmem with hmem | hmem
    · exact ⟨(hk k hmem).1, (hk k hmem).2.1, h'.keys_subset (hk k hmem).2.2⟩
    · obtain ⟨hfly, hkeys, hend⟩ := hk' k hmem
      rw [h.inFlight] at hfly
      exact ⟨hfly, fun hold => hkeys (h.keys_subset hold), hend⟩

/-- A call that opens notes its key, which is new, and remembers it when it is finished. -/
theorem finish {registry : Registry σ} {c : Call} {f : Function σ}
    (ho : Opens registry.watched c s (f.watched c.name)) (hx : f.expands = true)
    (h : Notes (s.launched c (f.watched c.name)) s') (value : String) (error : Option Error) :
    Notes s (s'.complete c.key value error).2 := by
  obtain ⟨new, hw, hn, hk⟩ := h.noted
  have hlaunch : (s.launched c (f.watched c.name)).world.2 = s.world.2 ++ [c.key] := by
    show (if f.expands then s.world.2 ++ [c.key] else s.world.2) = _
    rw [if_pos hx]
  have hfresh : c.key ∉ s.memo.keys := Memo.lookup_eq_none_iff.1 ho.fresh
  refine ⟨h.toExtends.finish ho value error, c.key :: new, ?_, ?_, fun k hmem => ?_⟩
  · rw [complete_world, hw, hlaunch, List.append_assoc, List.singleton_append]
  · rw [List.nodup_cons]
    exact ⟨fun hmem => (hk c.key hmem).1 List.mem_cons_self, hn⟩
  · rw [complete_memo, Memo.keys_finish]
    rcases List.mem_cons.1 hmem with rfl | hmem
    · exact ⟨ho.grounded, hfresh, List.mem_cons_self⟩
    · obtain ⟨hfly, hkeys, hend⟩ := hk k hmem
      exact ⟨fun hold => hfly (List.mem_cons_of_mem _ hold), hkeys, List.mem_cons_of_mem _ hend⟩

end Notes

/-- Every step of a watched session notes new keys only. -/
theorem keeps_notes (registry : Registry σ) (V : Nat → Call → Session (σ × List CallKey) → Prop) :
    Keeps registry.watched V Notes where
  refl s := .of_world (.refl s) rfl
  trans := .trans
  record s e := .of_world ((keeps_extends registry.watched V).record s e) rfl
  plain := by
    intro n c s f hv hf hx
    refine .of_world ((keeps_extends registry.watched V).plain hv hf hx) ?_
    rw [Registry.get?_watched, Option.map_eq_some_iff] at hf
    obtain ⟨g, _, rfl⟩ := hf
    have hx' : g.expands = false := hx
    show (if g.expands then _ else s.world.2) = _
    rw [if_neg (by simp [hx'])]
  finish := by
    intro n c s f s' value error _ ho h _
    have hf := ho.found
    rw [Registry.get?_watched, Option.map_eq_some_iff] at hf
    obtain ⟨g, _, rfl⟩ := hf
    exact h.finish ho ho.expands value error

/-- What a session evaluates at most once, and what it does when it meets a key again. -/
structure Once (registry : Registry σ) (world : σ) (subject : Subject) : Prop where
  /-- The watched session is the session itself, with notes of the functions that ran. -/
  faithful : (subject.session registry.watched (world, [])).plain = subject.session registry world
  /-- The functions of expanding calls run at most once for a key. -/
  runs : (subject.session registry.watched (world, [])).world.2.Nodup
  /-- The outcome of a key is written at most once. -/
  writes : (subject.session registry world).memo.keys.Nodup
  /-- What is remembered when a call is made stays as it is until the end. -/
  stays : ∀ n c s, subject.Visits registry world n c s →
    s.memo.outcomes <:+ (invokeAt registry n c s).2.memo.outcomes ∧
      (invokeAt registry n c s).2.memo.outcomes <:+
        (subject.session registry world).memo.outcomes
  /-- An expanding call of a key that is remembered returns the text that is, and records the error
  that is again; nothing else happens. -/
  reuses : ∀ n c s f o, subject.Visits registry world n c s →
    Table.get? c.name registry = some f → f.expands = true → s.memo.lookup c.key = some o →
      invokeAt registry n c s = (o.value, ⟨s.memo, s.errors ++ o.error.toList, s.world⟩) ∧
        (subject.session registry world).memo.lookup c.key = some o
  /-- A call that opens is remembered as soon as it ends: the text that it returned, and the first
  error that was recorded while it was made, if any was. So it is at the end of the session, and
  every expanding call of its key that is made in between is answered with this. -/
  remembers : ∀ n c s f, subject.Visits registry world (n + 1) c s → Opens registry c s f →
    ∃ o new, o.value = (invokeAt registry (n + 1) c s).1 ∧
      (invokeAt registry (n + 1) c s).2.errors = s.errors ++ new ∧ o.error = new.head? ∧
      (invokeAt registry (n + 1) c s).2.memo.lookup c.key = some o ∧
      (subject.session registry world).memo.lookup c.key = some o ∧
      ∀ m d t g, subject.Visits registry world m d t → Table.get? d.name registry = some g →
        g.expands = true → d.key = c.key →
        (invokeAt registry (n + 1) c s).2.memo.outcomes <:+ t.memo.outcomes →
        invokeAt registry m d t = (o.value, ⟨t.memo, t.errors ++ o.error.toList, t.world⟩)
  /-- An outcome is that of the call that opened: its value, and the first error that was recorded
  while the call was made, if any was. -/
  outcome : ∀ key o, (key, o) ∈ (subject.session registry world).memo.outcomes →
    ∃ n c s f new, subject.Visits registry world (n + 1) c s ∧ Opens registry c s f ∧
      c.key = key ∧ o.value = (invokeAt registry (n + 1) c s).1 ∧
        (invokeAt registry (n + 1) c s).2.errors = s.errors ++ new ∧ o.error = new.head?

/-- A call that opens is remembered when it ends. -/
theorem Session.Opens.lookup_after {registry : Registry σ} {c : Call} {s : Session σ}
    {f : Function σ} (ho : Opens registry c s f) (n : Nat) :
    (invokeAt registry (n + 1) c s).2.memo.lookup c.key =
      some (outcomeAt registry (n + 1) c s) := by
  obtain ⟨s', _, hmemo⟩ := ho.writes n
  rw [hmemo, Memo.lookup_finish_self]

/-- The error of an outcome is the first of those that its call recorded. -/
theorem Session.exists_errors_outcomeAt (registry : Registry σ) (n : Nat) (c : Call)
    (s : Session σ) :
    ∃ new, (invokeAt registry n c s).2.errors = s.errors ++ new ∧
      (outcomeAt registry n c s).error = new.head? := by
  obtain ⟨new, hnew⟩ := (extends_invokeAt registry n c s).errors
  refine ⟨new, hnew.symm, ?_⟩
  rw [outcomeAt, ← hnew, List.getElem?_append_right (Nat.le_refl _), Nat.sub_self,
    List.head?_eq_getElem?]

/-- Every session evaluates expanding calls at most once. -/
theorem evaluated_once (registry : Registry σ) (world : σ) (subject : Subject) :
    Once registry world subject := by
  have hnodup : (subject.session registry world).memo.keys.Nodup :=
    subject.extends_session.nodup_keys List.nodup_nil
  -- What is written at any time stands in every later memo, where no key is written twice either.
  have hlater {key : CallKey} {o : Outcome} {memo memo' : Memo}
      (h : memo.lookup key = some o) (hgrows : memo.outcomes <:+ memo'.outcomes)
      (hends : memo'.outcomes <:+ (subject.session registry world).memo.outcomes) :
      memo'.lookup key = some o := by
    have hkeys : memo'.keys.Sublist (subject.session registry world).memo.keys :=
      hends.sublist.map _
    exact Memo.lookup_of_mem (hkeys.nodup hnodup) (hgrows.subset (Memo.mem_of_lookup h))
  refine ⟨subject.session_watched registry world [], ?_, hnodup, fun n c s hv => ?_,
    fun n c s f o hv hf hx hl => ?_, fun n c s f hv ho => ?_, fun key o hmem => ?_⟩
  · have hnotes := (keeps_notes registry fun _ _ _ => True).session (world, []) subject
      fun _ _ _ _ => trivial
    obtain ⟨new, hw, hn, _⟩ := hnotes.noted
    rw [hw]
    exact hn
  · exact ⟨(extends_invokeAt registry n c s).grows.outcomes, hv.grows.outcomes⟩
  · exact ⟨invokeAt_of_lookup hf hx hl n, hlater hl hv.outcomes_before List.suffix_rfl⟩
  · obtain ⟨new, herrors, hfirst⟩ := exists_errors_outcomeAt registry (n + 1) c s
    have hl := ho.lookup_after n
    refine ⟨_, new, rfl, herrors, hfirst, hl, hlater hl hv.grows.outcomes List.suffix_rfl,
      fun m d t g hd hg hx hkey hgrows => invokeAt_of_lookup hg hx ?_ m⟩
    rw [hkey]
    exact hlater hl hgrows hd.outcomes_before
  · obtain ⟨n, c, s, f, hv, ho, hkey, rfl⟩ := Subject.written hmem
    obtain ⟨new, herrors, hfirst⟩ := exists_errors_outcomeAt registry (n + 1) c s
    exact ⟨n, c, s, f, new, hv, ho, hkey, rfl, herrors, hfirst⟩

end Stencil.Template
