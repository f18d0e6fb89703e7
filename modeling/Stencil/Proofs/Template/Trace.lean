import Stencil.Proofs.Template.Subject

/-!
# What happens while a text is written

A trace tells what became of each node of a text: a text or a literal stood as it is, a call ended
with a value and at most one error of its own, or it was unfolded into the trace of what it
returned. Read depth first and from left to right, traces give what was written and every error that
was recorded meanwhile.

Whatever is recorded shows: the trace of every node, at any depth, holds the marker of each of its
errors in what was written for it. The memo keeps this up, for an outcome that remembers an error
holds the marker of it.
-/

namespace Stencil.Template

variable {σ : Type}

/-! ## Markers -/

/-- A text shows an error if it holds the marker of it. -/
def Shows (text : String) (e : Error) : Prop :=
  ∃ before after, text = before ++ "<ERROR:" ++ e.message ++ ">" ++ after

theorem marker_eq (e : Error) : e.marker = "<ERROR:" ++ e.message ++ ">" := by
  simp [Error.marker, toString]

theorem shows_marker (e : Error) : Shows e.marker e :=
  ⟨"", "", by simp [marker_eq]⟩

/-- What shows in a part shows in the whole. -/
theorem Shows.join {texts : List String} {t : String} {e : Error} (h : Shows t e)
    (ht : t ∈ texts) : Shows (String.join texts) e := by
  obtain ⟨front, rest, rfl⟩ := List.append_of_mem ht
  obtain ⟨before, after, rfl⟩ := h
  refine ⟨String.join front ++ before, after ++ String.join rest, ?_⟩
  simp [String.append_assoc]

/-! ## Traces -/

/-- What became of a node. -/
inductive Trace where
  /-- A text stood as it is. -/
  | text (t : String)
  /-- A literal stood as it is. -/
  | literal (t : String)
  /-- A call ended with a value, and with an error if there was one. -/
  | ended (c : Call) (value : String) (error : Option Error)
  /-- A call was unfolded into what it returned. -/
  | unfolded (c : Call) (inner : List Trace)

namespace Trace

/-- The node that it became of. -/
def node : Trace → Node
  | text t => .text t
  | literal t => .literal t
  | ended c _ _ => .call c
  | unfolded c _ => .call c

mutual

/-- What was written for the node. -/
def written : Trace → String
  | text t => t
  | literal t => t
  | ended _ value _ => value
  | unfolded _ inner => String.join (writtenAll inner)

/-- What was written for some nodes, from left to right. -/
def writtenAll : List Trace → List String
  | [] => []
  | t :: rest => t.written :: writtenAll rest

end

mutual

/-- The errors that were recorded for the node, depth first. -/
def errors : Trace → List Error
  | text _ => []
  | literal _ => []
  | ended _ _ error => error.toList
  | unfolded _ inner => errorsAll inner

/-- The errors that were recorded for some nodes, from left to right. -/
def errorsAll : List Trace → List Error
  | [] => []
  | t :: rest => t.errors ++ errorsAll rest

end

/-- What was written for nodes is what was written for each. -/
theorem writtenAll_eq_map (traces : List Trace) : writtenAll traces = traces.map written := by
  induction traces with
  | nil => rfl
  | cons t rest ih => rw [writtenAll, ih, List.map_cons]

/-- The errors of nodes are those of each. -/
theorem errorsAll_eq_flatMap (traces : List Trace) :
    errorsAll traces = traces.flatMap errors := by
  induction traces with
  | nil => rfl
  | cons t rest ih => rw [errorsAll, ih, List.flatMap_cons]

/-- A trace inside a trace, at any depth. -/
inductive Within : Trace → Trace → Prop
  | self {t} : Within t t
  | inner {c inner u t} : u ∈ inner → Within t u → Within t (.unfolded c inner)

/-- Every error of the trace, and of every trace inside it, shows in what was written there. -/
def Honest (t : Trace) : Prop :=
  ∀ u, Within u t → ∀ e ∈ u.errors, Shows u.written e

end Trace

namespace Session

/-- The text that a call returns is read and written: the nodes of it, how many more expansions may
nest there, and the session that they are written in. -/
inductive Unfolds (registry : Registry σ) : Nat → Call → Session σ → Nat → List Node → Session σ →
    Prop
  | intro {n c s f raw nodes} : Opens registry c s f → (f.call c.args s.world).1 = .ok raw →
      registry.read raw = .ok nodes → Unfolds registry (n + 1) c s n nodes (s.launched c f)

/-- The traces of some nodes that are written where `n` more expansions may nest, between the
session before and the session after. -/
inductive Traces (registry : Registry σ) : Nat → List Node → Session σ → List Trace → Session σ →
    Prop
  | nil {n s} : Traces registry n [] s [] s
  | text {n t rest s traces s'} : Traces registry n rest s traces s' →
      Traces registry n (.text t :: rest) s (.text t :: traces) s'
  | literal {n t rest s traces s'} : Traces registry n rest s traces s' →
      Traces registry n (.literal t :: rest) s (.literal t :: traces) s'
  | ended {n c rest s error traces s'} :
      (∀ m nodes s₀, ¬ Unfolds registry n c s m nodes s₀) →
      (invokeAt registry n c s).2.errors = s.errors ++ error.toList →
      Traces registry n rest (invokeAt registry n c s).2 traces s' →
      Traces registry n (.call c :: rest) s
        (.ended c (invokeAt registry n c s).1 error :: traces) s'
  | unfolded {n c rest s m nodes s₀ inner s₁ traces s'} :
      Unfolds registry n c s m nodes s₀ → Traces registry m nodes s₀ inner s₁ →
      Traces registry n rest (invokeAt registry n c s).2 traces s' →
      Traces registry n (.call c :: rest) s (.unfolded c inner :: traces) s'

/-- Every error that the memo remembers shows in the value beside it. -/
def Remembers (s : Session σ) : Prop :=
  ∀ o ∈ s.memo.outcomes, ∀ e ∈ o.2.error, Shows o.2.value e

theorem remembers_start (world : σ) : Remembers (start world) :=
  fun _ ho => absurd ho List.not_mem_nil

/-- A call may end with a value that shows its error. -/
theorem Remembers.complete {s : Session σ} (h : s.Remembers) (key : CallKey) {value : String}
    {error : Option Error} (hshows : ∀ e ∈ error, Shows value e) :
    (s.complete key value error).2.Remembers := by
  intro o ho
  rcases List.mem_cons.1 ho with rfl | ho
  · exact hshows
  · exact h o ho

variable {registry : Registry σ}

/-- A call that is unfolded comes to what the text that it returned comes to, and is remembered
with the first of the errors that were recorded there. -/
theorem Unfolds.invokeAt_eq {n : Nat} {c : Call} {s : Session σ} {m : Nat} {nodes : List Node}
    {s₀ s₁ : Session σ} {written : List String} {errors : List Error}
    (h : Unfolds registry n c s m nodes s₀)
    (hw : writeNodes (invokeAt registry m) nodes s₀ = (written, s₁))
    (he : s₁.errors = s₀.errors ++ errors) :
    invokeAt registry n c s = s₁.complete c.key (String.join written) errors.head? := by
  obtain ⟨ho, hraw, hread⟩ := h
  have hfirst : s₁.errors[s.errors.length]? = errors.head? := by
    rw [he, launched_errors, List.getElem?_append_right (Nat.le_refl _), Nat.sub_self,
      List.head?_eq_getElem?]
  rw [invokeAt_of_opens ho, hraw]
  simp only
  rw [evaluate_of_read_ok hread, hw]
  simp only
  rw [hfirst]

/-- Unfolding a call records no error. -/
theorem Unfolds.errors_eq {n : Nat} {c : Call} {s : Session σ} {m : Nat} {nodes : List Node}
    {s₀ : Session σ} (h : Unfolds registry n c s m nodes s₀) : s₀.errors = s.errors := by
  cases h
  rfl

/-- What a call returns is evaluated where less may nest. -/
theorem Unfolds.lt {n : Nat} {c : Call} {s : Session σ} {m : Nat} {nodes : List Node}
    {s₀ : Session σ} (h : Unfolds registry n c s m nodes s₀) : m < n := by
  cases h
  exact Nat.lt_succ_self _

/-- Unfolding a call keeps what is remembered. -/
theorem Unfolds.remembers {n : Nat} {c : Call} {s : Session σ} {m : Nat} {nodes : List Node}
    {s₀ : Session σ} (h : Unfolds registry n c s m nodes s₀) (hs : s.Remembers) :
    s₀.Remembers := by
  cases h
  exact hs

/-- A call that is not unfolded has at most one error of its own, which shows in its value, and the
memo remembers no error that does not show. -/
theorem ended_invokeAt {n : Nat} {c : Call} {s : Session σ} (hs : s.Remembers)
    (h : ∀ m nodes s₀, ¬ Unfolds registry n c s m nodes s₀) :
    ∃ error : Option Error, (invokeAt registry n c s).2.errors = s.errors ++ error.toList ∧
      (∀ e ∈ error, Shows (invokeAt registry n c s).1 e) ∧
        (invokeAt registry n c s).2.Remembers := by
  have hm := makes_invokeAt registry n c s
  have hown (e e' : Error) (he : e' ∈ some e) : Shows e.marker e' := by
    cases he
    exact shows_marker e
  generalize invokeAt registry n c s = r at hm
  cases hm with
  | unknown _ => exact ⟨some _, rfl, hown _, hs⟩
  | plain _ _ _ => exact ⟨none, (List.append_nil _).symm, by simp, hs⟩
  | plainFailed _ _ _ => exact ⟨some _, rfl, hown _, hs⟩
  | reused _ _ hl => exact ⟨_, rfl, hs _ (Memo.mem_of_lookup hl), hs⟩
  | skipped _ _ _ _ => exact ⟨some _, rfl, hown _, hs⟩
  | tooDeep _ _ _ _ _ => exact ⟨some _, rfl, hown _, hs⟩
  | cyclic _ _ _ _ _ _ => exact ⟨some _, rfl, hown _, hs⟩
  | failed _ _ _ => exact ⟨some _, rfl, hown _, Remembers.complete hs _ (hown _)⟩
  | rejected _ _ _ _ => exact ⟨some _, rfl, hown _, Remembers.complete hs _ (hown _)⟩
  | expanded ho hn hraw he =>
    -- What is expanded has passed its checks, and so is unfolded.
    subst hn
    cases hread : registry.read _ with
    | error e =>
      rw [evaluate_of_read_error hread] at he
      cases he
    | ok nodes => exact absurd (.intro ho hraw hread) (h _ _ _)

namespace Traces

variable {n : Nat} {nodes : List Node} {s s' : Session σ} {traces : List Trace}

/-- Traces are those of the nodes, one for each and in their order. -/
theorem map_node (h : Traces registry n nodes s traces s') : traces.map Trace.node = nodes := by
  induction h with
  | nil => rfl
  | text _ ih => exact congrArg (_ :: ·) ih
  | literal _ ih => exact congrArg (_ :: ·) ih
  | ended _ _ _ ih => exact congrArg (_ :: ·) ih
  | unfolded _ _ _ _ ih => exact congrArg (_ :: ·) ih

/-- Traces give what is written, and every error that is recorded meanwhile in its order. -/
theorem writeNodes_eq (h : Traces registry n nodes s traces s') :
    writeNodes (invokeAt registry n) nodes s = (Trace.writtenAll traces, s') ∧
      s'.errors = s.errors ++ Trace.errorsAll traces := by
  induction h with
  | nil => exact ⟨rfl, (List.append_nil _).symm⟩
  | text _ ih => exact ⟨by rw [writeNodes, ih.1]; rfl, ih.2⟩
  | literal _ ih => exact ⟨by rw [writeNodes, ih.1]; rfl, ih.2⟩
  | ended _ herrors _ ih =>
    refine ⟨by rw [writeNodes, ih.1]; rfl, ?_⟩
    rw [ih.2, herrors, List.append_assoc]
    rfl
  | unfolded hu _ _ ihinner ih =>
    have hcall := hu.invokeAt_eq ihinner.1 ihinner.2
    refine ⟨?_, ?_⟩
    · rw [writeNodes, ih.1, hcall]
      rfl
    · rw [ih.2, hcall, Session.complete, ihinner.2, hu.errors_eq, List.append_assoc]
      rfl

/-- A session over a text ends with what the traces of its nodes give. -/
theorem render_eq {text : String} {world : σ} (hread : registry.read text = .ok nodes)
    (h : Traces registry maxDepth nodes (start world) traces s') :
    s'.errors = traces.flatMap Trace.errors ∧
      render registry text world =
        (⟨String.join (traces.map Trace.written), (traces.flatMap Trace.errors).head?⟩,
          s'.world) := by
  have herrors : s'.errors = traces.flatMap Trace.errors := by
    rw [h.writeNodes_eq.2, Trace.errorsAll_eq_flatMap]
    rfl
  refine ⟨herrors, ?_⟩
  rw [render, renderText, evaluate_of_read_ok hread, h.writeNodes_eq.1]
  simp only [ending]
  rw [herrors, Trace.writtenAll_eq_map]

/-- If every error shows where it was recorded in what a call returned, it shows in what the call
comes to, and so does the one that is remembered. -/
theorem shows_of_honest {c : Call} {m : Nat} {s₀ s₁ : Session σ} {inner : List Trace}
    (hu : Unfolds registry n c s m nodes s₀) (h : Traces registry m nodes s₀ inner s₁)
    (hs : s₁.Remembers) (hhonest : ∀ t ∈ inner, t.Honest) :
    (∀ e ∈ Trace.errorsAll inner, Shows (String.join (Trace.writtenAll inner)) e) ∧
      (invokeAt registry n c s).2.Remembers := by
  have hshows : ∀ e ∈ Trace.errorsAll inner, Shows (String.join (Trace.writtenAll inner)) e := by
    intro e he
    rw [Trace.errorsAll_eq_flatMap] at he
    obtain ⟨t, ht, he⟩ := List.mem_flatMap.1 he
    rw [Trace.writtenAll_eq_map]
    exact (hhonest t ht t .self e he).join (List.mem_map_of_mem ht)
  refine ⟨hshows, ?_⟩
  rw [hu.invokeAt_eq h.writeNodes_eq.1 h.writeNodes_eq.2]
  exact hs.complete _ fun e he => hshows e (List.mem_of_mem_head? he)

/-- Every error that is recorded shows where it was recorded, if all that the memo remembers
shows. -/
theorem honest_of_remembers (h : Traces registry n nodes s traces s') (hs : s.Remembers) :
    s'.Remembers ∧ ∀ t ∈ traces, t.Honest := by
  induction h with
  | nil => exact ⟨hs, fun _ ht => absurd ht List.not_mem_nil⟩
  | text _ ih =>
    obtain ⟨hs', hrest⟩ := ih hs
    refine ⟨hs', List.forall_mem_cons.2 ⟨?_, hrest⟩⟩
    rintro _ ⟨⟩ e he
    exact absurd he List.not_mem_nil
  | literal _ ih =>
    obtain ⟨hs', hrest⟩ := ih hs
    refine ⟨hs', List.forall_mem_cons.2 ⟨?_, hrest⟩⟩
    rintro _ ⟨⟩ e he
    exact absurd he List.not_mem_nil
  -- The only error of such a call is its own, and its marker is what is written for it.
  | @ended n c rest s error traces s' hnot herrors _ ih =>
    obtain ⟨own, hown, hshows, hnext⟩ := ended_invokeAt hs hnot
    obtain ⟨hs', hrest⟩ := ih hnext
    refine ⟨hs', List.forall_mem_cons.2 ⟨?_, hrest⟩⟩
    have hsame : own.toList = error.toList := List.append_cancel_left (hown.symm.trans herrors)
    rintro _ ⟨⟩ e he
    exact hshows e (Option.mem_toList.1 (hsame ▸ he))
  -- An error inside shows in what was written inside, which is a part of what is written here.
  | unfolded hu hinner _ ihinner ih =>
    obtain ⟨hs₁, hhonest⟩ := ihinner (hu.remembers hs)
    obtain ⟨hshows, hnext⟩ := shows_of_honest hu hinner hs₁ hhonest
    obtain ⟨hs', hrest⟩ := ih hnext
    refine ⟨hs', List.forall_mem_cons.2 ⟨fun u hin => ?_, hrest⟩⟩
    cases hin with
    | self => exact hshows
    | inner ht hin => exact hhonest _ ht u hin

end Traces

/-- Whatever nodes are written have traces. -/
theorem exists_traces (registry : Registry σ) (n : Nat) (nodes : List Node) {s : Session σ}
    (hs : s.Remembers) : ∃ traces s', Traces registry n nodes s traces s' := by
  -- The induction is on the headroom, which is less in what a call returns, then on the nodes.
  induction n using Nat.strongRecOn generalizing nodes s with
  | ind n ihn =>
    induction nodes generalizing s with
    | nil => exact ⟨[], s, .nil⟩
    | cons node rest ih =>
      cases node with
      | text t =>
        obtain ⟨traces, s', h⟩ := ih hs
        exact ⟨_, s', .text h⟩
      | literal t =>
        obtain ⟨traces, s', h⟩ := ih hs
        exact ⟨_, s', .literal h⟩
      | call c =>
        by_cases hu : ∃ m inner s₀, Unfolds registry n c s m inner s₀
        · obtain ⟨m, inner, s₀, hu⟩ := hu
          obtain ⟨trace, s₁, hinner⟩ := ihn m hu.lt inner (hu.remembers hs)
          obtain ⟨hs₁, hhonest⟩ := hinner.honest_of_remembers (hu.remembers hs)
          obtain ⟨traces, s', h⟩ := ih (Traces.shows_of_honest hu hinner hs₁ hhonest).2
          exact ⟨_, s', .unfolded hu hinner h⟩
        · simp only [not_exists] at hu
          obtain ⟨error, herrors, -, hnext⟩ := ended_invokeAt hs hu
          obtain ⟨traces, s', h⟩ := ih hnext
          exact ⟨_, s', .ended hu herrors h⟩

end Session

end Stencil.Template
