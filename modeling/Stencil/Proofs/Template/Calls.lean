import Stencil.Proofs.Template.Soundness
import Stencil.Proofs.Template.Trace

/-!
# The calls of a trace

Read depth first and from left to right, a trace gives the calls that were made, each before those
in the text that it returned. Where functions are steady, what was written for a call that recorded
no error is what the call comes to, at any depth and whatever failed around it.
-/

namespace Stencil.Template

variable {σ : Type}

open Session

namespace Trace

mutual

/-- The calls of the node, depth first. -/
def calls : Trace → List Call
  | text _ => []
  | literal _ => []
  | ended c _ _ => [c]
  | unfolded c inner => c :: callsAll inner

/-- The calls of some nodes, from left to right. -/
def callsAll : List Trace → List Call
  | [] => []
  | t :: rest => t.calls ++ callsAll rest

end

/-- The calls of some nodes are those of each of them. -/
theorem callsAll_eq_flatMap (traces : List Trace) : callsAll traces = traces.flatMap calls := by
  induction traces with
  | nil => rfl
  | cons t rest ih => rw [callsAll, ih, List.flatMap_cons]

/-- Everything inside the trace of a node has its errors among those of the node. -/
theorem Within.errors_subset {t u : Trace} (h : Within u t) : u.errors ⊆ t.errors := by
  induction h with
  | self => exact List.Subset.refl _
  | @inner c inner u t hu _ ih =>
    intro e he
    rw [errors, errorsAll_eq_flatMap]
    exact List.mem_flatMap.2 ⟨u, hu, ih he⟩

mutual

/-- Every call of a trace is that of a trace inside it. -/
theorem exists_within_of_mem_calls {c : Call} :
    ∀ {t : Trace}, c ∈ t.calls → ∃ u, Within u t ∧ u.node = .call c
  | .ended d value error, h => by
    rw [List.mem_singleton.1 h]
    exact ⟨_, .self, rfl⟩
  | .unfolded d inner, h => by
    rcases List.mem_cons.1 h with rfl | h
    · exact ⟨_, .self, rfl⟩
    · obtain ⟨t, ht, u, hu, hc⟩ := exists_within_of_mem_callsAll h
      exact ⟨u, .inner ht hu, hc⟩

/-- A call of some nodes is that of a node inside one of them. -/
theorem exists_within_of_mem_callsAll {c : Call} :
    ∀ {traces : List Trace}, c ∈ callsAll traces → ∃ t ∈ traces, ∃ u, Within u t ∧ u.node = .call c
  | t :: rest, h => by
    rcases List.mem_append.1 h with h | h
    · exact ⟨t, List.mem_cons_self, exists_within_of_mem_calls h⟩
    · obtain ⟨t', ht, hu⟩ := exists_within_of_mem_callsAll h
      exact ⟨t', List.mem_cons_of_mem _ ht, hu⟩

end

/-- Where no error was recorded, every call that was made is the node of a trace without one. -/
theorem exists_clean_of_mem_callsAll {c : Call} {traces : List Trace}
    (hclean : errorsAll traces = []) (h : c ∈ callsAll traces) :
    ∃ t ∈ traces, ∃ u, Within u t ∧ u.node = .call c ∧ u.errors = [] := by
  obtain ⟨t, ht, u, hu, hnode⟩ := exists_within_of_mem_callsAll h
  rw [errorsAll_eq_flatMap, List.flatMap_eq_nil_iff] at hclean
  exact ⟨t, ht, u, hu, hnode, List.subset_nil.1 (hclean t ht ▸ hu.errors_subset)⟩

/-- Wherever a call inside the trace recorded no error, what was written for it is what it comes
to. -/
def Faithful (registry : Registry σ) (world : σ) (t : Trace) : Prop :=
  ∀ u, Within u t → ∀ c, u.node = .call c → u.errors = [] →
    Comes registry world (Expands registry world) c.reference u.written

end Trace

namespace Session

variable {registry : Registry σ} {P : σ → Prop} {world : σ}

/-- Every call that is accepted is made rightly in a sound session, where all functions are
steady. -/
theorem answers_invokeAt (hk : registry.Keyed) (hs : registry.Steady (fun _ => True) P world)
    {n : Nat} {c : Call} {s : Session σ} (hacc : registry.Accepts c.reference)
    (h : Sound registry P world s) :
    Answers registry P world c.reference s (invokeAt registry n c s) :=
  h.answers hk hs trivial hacc fun {m f raw} _ ho _ =>
    Evaluation.sound (e := ⟨m, raw, s.launched c f⟩) hk hs (fun _ _ _ _ => trivial)
      (h.launched hs ho.found)

/-- What is written in a sound session is faithful, and the session stays sound. -/
theorem Traces.faithful (hk : registry.Keyed) (hs : registry.Steady (fun _ => True) P world)
    {n : Nat} {nodes : List Node} {s s' : Session σ} {traces : List Trace}
    (h : Traces registry n nodes s traces s')
    (hacc : ∀ c, .call c ∈ nodes → registry.Accepts c.reference)
    (hsound : Sound registry P world s) :
    Sound registry P world s' ∧ ∀ t ∈ traces, t.Faithful registry world := by
  induction h with
  | nil => exact ⟨hsound, fun _ ht => absurd ht List.not_mem_nil⟩
  | text _ ih =>
    obtain ⟨hs', hrest⟩ := ih (fun c hc => hacc c (List.mem_cons_of_mem _ hc)) hsound
    refine ⟨hs', List.forall_mem_cons.2 ⟨?_, hrest⟩⟩
    rintro _ ⟨⟩ c ⟨⟩
  | literal _ ih =>
    obtain ⟨hs', hrest⟩ := ih (fun c hc => hacc c (List.mem_cons_of_mem _ hc)) hsound
    refine ⟨hs', List.forall_mem_cons.2 ⟨?_, hrest⟩⟩
    rintro _ ⟨⟩ c ⟨⟩
  -- Without an error of its own, what a call that was not unfolded returned is what it comes to.
  | @ended n c rest s error traces s' hnot herrors _ ih =>
    have hans := answers_invokeAt hk hs (n := n) (hacc c List.mem_cons_self) hsound
    obtain ⟨hs', hrest⟩ := ih (fun d hd => hacc d (List.mem_cons_of_mem _ hd)) hans.sound
    refine ⟨hs', List.forall_mem_cons.2 ⟨?_, hrest⟩⟩
    rintro _ ⟨⟩ d ⟨⟩ hclean
    exact hans.value (by rw [herrors, show error.toList = [] from hclean, List.append_nil])
  -- The trace inside starts from the session in which the call was launched, which is sound too.
  | @unfolded n c rest s m nodes s₀ inner s₁ traces s' hu hinner _ ihinner ih =>
    have hans := answers_invokeAt hk hs (n := n) (hacc c List.mem_cons_self) hsound
    obtain ⟨hs', hrest⟩ := ih (fun d hd => hacc d (List.mem_cons_of_mem _ hd)) hans.sound
    have hcall := hu.invokeAt_eq hinner.writeNodes_eq.1 hinner.writeNodes_eq.2
    have hinnerFaithful : ∀ t ∈ inner, t.Faithful registry world := by
      cases hu with
      | intro ho _ hread =>
        exact (ihinner (fun d hd => Registry.accepts_of_read hread hd)
          (hsound.launched hs ho.found)).2
    refine ⟨hs', List.forall_mem_cons.2 ⟨fun v hv d hd hclean => ?_, hrest⟩⟩
    cases hv with
    | self =>
      cases hd
      have herrors : (invokeAt registry n c s).2.errors = s.errors := by
        rw [hcall, Session.complete, hinner.writeNodes_eq.2,
          show Trace.errorsAll inner = [] from hclean, List.append_nil, hu.errors_eq]
      have hvalue := hans.value herrors
      rw [hcall] at hvalue
      exact hvalue
    | inner ht hv => exact hinnerFaithful _ ht v hv d hd hclean

end Session

end Stencil.Template
