import Stencil.Proofs.Template.Subject

/-!
# Calls that open

Every outcome that a session ends with was written by a call that opened: its value is what the call
returned, and its error the first one recorded while the call was made. Every key in flight belongs
to such a call too.
-/

namespace Stencil.Template

variable {σ : Type} {registry : Registry σ}

open Session

/-- The outcome that a call leaves: its value and the first error recorded while it was made. -/
def Session.outcomeAt (registry : Registry σ) (n : Nat) (c : Call) (s : Session σ) : Outcome :=
  ⟨(invokeAt registry n c s).1, (invokeAt registry n c s).2.errors[s.errors.length]?⟩

/-- A call that opens writes its outcome. -/
theorem Session.Opens.writes {c : Call} {s : Session σ} {f : Function σ}
    (ho : Opens registry c s f) (n : Nat) :
    ∃ s', Extends (s.launched c f) s' ∧ (invokeAt registry (n + 1) c s).2.memo =
      s'.memo.finish c.key (outcomeAt registry (n + 1) c s) := by
  obtain ⟨s', value, he, hx, _⟩ := ho.completes n
  exact ⟨s', hx, by rw [outcomeAt, he]; rfl⟩

/-- An outcome that some call in `V` wrote when it opened. -/
def Written (registry : Registry σ) (V : Nat → Call → Session σ → Prop) (key : CallKey)
    (o : Outcome) : Prop :=
  ∃ n c s f, V (n + 1) c s ∧ Opens registry c s f ∧ c.key = key ∧
    o = outcomeAt registry (n + 1) c s

/-- Every step writes only outcomes of calls that open. -/
theorem keeps_written (registry : Registry σ) (V : Nat → Call → Session σ → Prop) :
    Keeps registry V fun s s' => ∀ o ∈ s'.memo.outcomes,
      o ∈ s.memo.outcomes ∨ Written registry V o.1 o.2 where
  refl _ _ ho := .inl ho
  trans h h' o ho := (h' o ho).elim (h o) .inr
  record _ _ _ ho := .inl ho
  plain _ _ _ _ ho := .inl ho
  finish := by
    intro n c s f s' value error hv hopen h he o ho
    obtain ⟨s'', _, hmemo⟩ := hopen.writes n
    -- The call ends in one session only, so the outcome at its head is the one that it leaves.
    have hhead : (c.key, (⟨value, error⟩ : Outcome)) :: s'.memo.outcomes =
        (c.key, outcomeAt registry (n + 1) c s) :: s''.memo.outcomes := by
      have := congrArg (fun r => r.2.memo.outcomes) he
      simp only [hmemo] at this
      exact this.symm
    rw [complete_memo, Memo.finish, List.mem_cons] at ho
    rcases ho with rfl | ho
    · rw [List.cons.injEq, Prod.mk.injEq] at hhead
      exact .inr ⟨n, c, s, f, hv, hopen, rfl, hhead.1.2⟩
    · exact h o ho

namespace Evaluation

/-- Every key in flight at any depth was so before, or belongs to a call that opened. -/
theorem inFlight_of_nests {e e' : Evaluation σ}
    (h : Relation.ReflTransGen (Nests registry) e e') :
    ∀ k ∈ e'.session.memo.inFlight, k ∈ e.session.memo.inFlight ∨
      ∃ n c s f, e.Visits registry (n + 1) c s ∧ Opens registry c s f ∧ c.key = k := by
  induction h with
  | refl => exact fun k hk => .inl hk
  | @tail e₁ e₂ hn hlast ih =>
    obtain ⟨hc, hh, ho, _⟩ := hlast
    intro k hk
    rw [launched_inFlight, List.mem_cons] at hk
    rcases hk with rfl | hk
    · exact .inr ⟨_, _, _, _, ⟨e₁, hn, hh, hc⟩, ho, rfl⟩
    -- The calls before this one have restored the keys that were in flight.
    · rw [hc.extends_before.inFlight] at hk
      exact ih k hk

end Evaluation

namespace Subject

variable {world : σ} {subject : Subject}

/-- Every outcome that a session ends with was written by a call that opened. -/
theorem written {key : CallKey} {o : Outcome}
    (h : (key, o) ∈ (subject.session registry world).memo.outcomes) :
    Written registry (subject.Visits registry world) key o := by
  have hk := (keeps_written registry (subject.Visits registry world)).session world subject
    fun _ _ _ hv => hv
  exact (hk (key, o) h).resolve_left (by simp [start, Memo.empty])

/-- What was remembered when a call was made is there at the end of the session. -/
theorem Visits.outcomes_before {n : Nat} {c : Call} {s : Session σ}
    (h : subject.Visits registry world n c s) :
    s.memo.outcomes <:+ (subject.session registry world).memo.outcomes :=
  (extends_invokeAt registry n c s).grows.outcomes.trans h.grows.outcomes

/-- The key of a call that finds itself remembered or under way belongs to a call that opened. -/
theorem Visits.exists_opens {n : Nat} {c : Call} {s : Session σ}
    (h : subject.Visits registry world n c s) {k : CallKey}
    (hk : k ∈ s.memo.keys ∨ k ∈ s.memo.inFlight) :
    ∃ m d s' f, subject.Visits registry world (m + 1) d s' ∧ Opens registry d s' f ∧ d.key = k := by
  rcases hk with hk | hk
  · obtain ⟨⟨key, o⟩, ho, rfl⟩ := List.mem_map.1 hk
    obtain ⟨m, d, s', f, hv, hopen, hkey, _⟩ := written (h.outcomes_before.subset ho)
    exact ⟨m, d, s', f, hv, hopen, hkey⟩
  · obtain ⟨before, t, after, ht, e, hn, rfl, hc⟩ := h
    have hstart := extends_renderTexts registry before (start world)
    rw [hc.extends_before.inFlight] at hk
    rcases Evaluation.inFlight_of_nests hn k hk with hk | ⟨m, d, s', f, hv, ho, hkey⟩
    · rw [hstart.inFlight] at hk
      cases hk
    · exact ⟨m, d, s', f, ⟨before, t, after, ht, hv⟩, ho, hkey⟩

end Subject

end Stencil.Template
