import Stencil.Proofs.Template.Reference

/-!
# Sessions that run alike

Two registries over different surroundings are alike if their functions are, name by name: they take
the same numbers of arguments, and whenever a call is accepted they answer it alike and leave
surroundings that correspond again. Then sessions over the two registries run alike: every text
comes to the same result, with the same memo and the same errors.

Nothing is asked of what a function does with a number of arguments that it does not accept.
-/

namespace Stencil.Template

variable {σ τ α : Type}

/-- Functions that answer alike in surroundings that correspond, wherever they accept the number of
arguments. -/
structure Function.Like (W : τ → σ → Prop) (f' : Function τ) (f : Function σ) : Prop where
  arity : f'.arity = f.arity
  expands : f'.expands = f.expands
  sideEffects : f'.sideEffects = f.sideEffects
  call : ∀ {args w' w}, f.arity.accepts args.length = true → W w' w →
    (f'.call args w').1 = (f.call args w).1 ∧ W (f'.call args w').2 (f.call args w).2

/-- Registries whose functions are alike, name by name. -/
def Registry.Like (W : τ → σ → Prop) (registry' : Registry τ) (registry : Registry σ) : Prop :=
  ∀ name, Option.Rel (Function.Like W) (Table.get? name registry') (Table.get? name registry)

/-- Sessions with the same memo and the same errors in surroundings that correspond. -/
structure Session.Like (W : τ → σ → Prop) (s' : Session τ) (s : Session σ) : Prop where
  memo : s'.memo = s.memo
  errors : s'.errors = s.errors
  world : W s'.world s.world

/-- Results that are the same, with sessions that are alike. -/
def Meet (W : τ → σ → Prop) (r' : α × Session τ) (r : α × Session σ) : Prop :=
  r'.1 = r.1 ∧ Session.Like W r'.2 r.2

/-- Steps that take sessions that are alike to the same result. -/
def Alike (W : τ → σ → Prop) (step' : Session τ → α × Session τ)
    (step : Session σ → α × Session σ) : Prop :=
  ∀ s' s, Session.Like W s' s → Meet W (step' s') (step s)

open Session

variable {W : τ → σ → Prop} {registry' : Registry τ} {registry : Registry σ}

/-- Results that meet are the same value, with sessions that are alike. -/
theorem Meet.exists_eq {r' : α × Session τ} {r : α × Session σ} (h : Meet W r' r) :
    ∃ v s' s, r' = (v, s') ∧ r = (v, s) ∧ Session.Like W s' s :=
  ⟨r.1, r'.2, r.2, Prod.ext h.1 rfl, rfl, h.2⟩

/-! ## Checks -/

namespace Registry.Like

/-- Alike registries accept the same calls. -/
theorem check (h : Registry.Like W registry' registry) (name : String) (count : Nat) :
    registry'.check name count = registry.check name count := by
  have hname := h name
  rw [Registry.check, Registry.check]
  generalize Table.get? name registry' = found' at hname
  generalize Table.get? name registry = found at hname
  cases hname with
  | none => rfl
  | some hf => simp only [hf.arity]

/-- Alike registries accept the same nodes. -/
theorem checkNodes (h : Registry.Like W registry' registry) (nodes : List Node) :
    registry'.checkNodes nodes = registry.checkNodes nodes := by
  induction nodes with
  | nil => rfl
  | cons node rest ih =>
    cases node with
    | text t => exact ih
    | literal t => exact ih
    | call c => rw [Registry.checkNodes, Registry.checkNodes, h.check, ih]

/-- Alike registries read a text alike. -/
theorem read (h : Registry.Like W registry' registry) (text : String) :
    registry'.read text = registry.read text := by
  unfold Registry.read
  simp only [h.checkNodes]

end Registry.Like

/-- A registry is alike if each of its functions was changed to one that is. -/
theorem Registry.like_map {change : String → Function σ → Function τ}
    (h : ∀ name f, Function.Like W (change name f) f) (registry : Registry σ) :
    Registry.Like W (registry.map fun e => (e.1, change e.1 e.2)) registry := by
  intro name
  rw [Table.get?_map]
  cases Table.get? name registry with
  | none => exact .none
  | some f => exact .some (h name f)

/-! ## Steps -/

namespace Session.Like

variable {s' : Session τ} {s : Session σ}

theorem record (h : Session.Like W s' s) (e : Error) : Session.Like W (s'.record e) (s.record e) :=
  ⟨h.memo, by rw [record_errors, record_errors, h.errors], h.world⟩

theorem fail (h : Session.Like W s' s) (e : Error) : Meet W (s'.fail e) (s.fail e) :=
  ⟨rfl, h.record e⟩

theorem complete (h : Session.Like W s' s) (key : CallKey) (value : String)
    (error : Option Error) : Meet W (s'.complete key value error) (s.complete key value error) :=
  ⟨rfl, by rw [complete_memo, complete_memo, h.memo], h.errors, h.world⟩

theorem completeFailed (h : Session.Like W s' s) (key : CallKey) (e : Error) :
    Meet W (s'.completeFailed key e) (s.completeFailed key e) :=
  (h.record e).complete key e.marker (some e)

theorem withMemo (h : Session.Like W s' s) (memo : Memo) :
    Session.Like W { s' with memo } { s with memo } :=
  ⟨rfl, h.errors, h.world⟩

/-- Sessions that are alike in the same surroundings are the same. -/
theorem eq {s' s : Session σ} (h : Session.Like Eq s' s) : s' = s := by
  obtain ⟨memo', errors', world'⟩ := s'
  obtain ⟨hmemo, herrors, hworld⟩ := h
  simp only at hmemo herrors hworld
  rw [hmemo, herrors, hworld]

/-- Functions that are alike run alike. -/
theorem run (h : Session.Like W s' s) {f' : Function τ} {f : Function σ}
    (hf : Function.Like W f' f) {args : List String}
    (ha : f.arity.accepts args.length = true) : Meet W (s'.run f' args) (s.run f args) :=
  ⟨(hf.call ha h.world).1, h.memo, h.errors, (hf.call ha h.world).2⟩

end Session.Like

/-- Nodes are written alike where the calls among them are made alike. -/
theorem alike_writeNodes {invoke' : Call → Session τ → String × Session τ}
    {invoke : Call → Session σ → String × Session σ} {nodes : List Node}
    (h : ∀ c, .call c ∈ nodes → Alike W (invoke' c) (invoke c)) :
    Alike W (writeNodes invoke' nodes) (writeNodes invoke nodes) := by
  induction nodes with
  | nil => exact fun s' s hs => ⟨rfl, hs⟩
  | cons node rest ih =>
    intro s' s hs
    have ih' := ih fun c hc => h c (List.mem_cons_of_mem _ hc)
    cases node with
    | text t =>
      obtain ⟨hv, hs⟩ := ih' s' s hs
      exact ⟨congrArg (t :: ·) hv, hs⟩
    | literal t =>
      obtain ⟨hv, hs⟩ := ih' s' s hs
      exact ⟨congrArg (t :: ·) hv, hs⟩
    | call c =>
      obtain ⟨hc, hs⟩ := h c List.mem_cons_self s' s hs
      obtain ⟨hv, hs⟩ := ih' _ _ hs
      exact ⟨congrArg₂ List.cons hc hv, hs⟩

/-- Texts are evaluated alike where accepted calls are made alike. -/
theorem alike_evaluateWith (hr : Registry.Like W registry' registry)
    {invoke' : Call → Session τ → String × Session τ}
    {invoke : Call → Session σ → String × Session σ}
    (h : ∀ c, registry.Accepts c.reference → Alike W (invoke' c) (invoke c)) (text : String) :
    Alike W (evaluateWith registry' invoke' text) (evaluateWith registry invoke text) := by
  intro s' s hs
  rw [evaluateWith_read, evaluateWith_read, hr.read]
  cases hread : registry.read text with
  | error e => exact ⟨rfl, hs⟩
  | ok nodes =>
    obtain ⟨hv, hs⟩ := alike_writeNodes
      (fun c hc => h c (Registry.accepts_of_read hread hc)) s' s hs
    exact ⟨by simp only [hv], hs⟩

/-- A call that expands is made alike where its text is evaluated alike. -/
theorem alike_expandCall {expand' : String → Session τ → Except Error String × Session τ}
    {expand : String → Session σ → Except Error String × Session σ}
    (h : ∀ raw, Alike W (expand' raw) (expand raw)) {f' : Function τ} {f : Function σ}
    (hf : Function.Like W f' f) {c : Call} (ha : f.arity.accepts c.args.length = true) :
    Alike W (expandCall expand' f' c) (expandCall expand f c) := by
  intro s' s hs
  rw [expandCall, expandCall]
  obtain ⟨v, s', s, hrun', hrun, hs⟩ := (hs.run hf ha).exists_eq
  rw [hrun', hrun]
  cases v with
  | error e => exact hs.completeFailed c.key e
  | ok raw =>
    have hknown : s'.errors.length = s.errors.length := by rw [hs.errors]
    obtain ⟨v, s', s, hexpand', hexpand, hs⟩ := (h raw s' s hs).exists_eq
    simp only [hknown, hexpand', hexpand]
    cases v with
    | error e => exact hs.completeFailed c.key e
    | ok value =>
      have herrors : s'.errors = s.errors := hs.errors
      simp only [herrors]
      exact hs.complete c.key value _

/-- An accepted call is made alike where texts may be evaluated alike, if at all. -/
theorem alike_invoke (hr : Registry.Like W registry' registry)
    {expand?' : Option (String → Session τ → Except Error String × Session τ)}
    {expand? : Option (String → Session σ → Except Error String × Session σ)}
    (h : Option.Rel (fun expand' expand => ∀ raw, Alike W (expand' raw) (expand raw))
      expand?' expand?) {c : Call} (hc : registry.Accepts c.reference) :
    Alike W (invoke registry' expand?' c) (invoke registry expand? c) := by
  intro s' s hs
  obtain ⟨f, hf, ha⟩ := Registry.accepts_iff.1 hc
  have hname := hr c.name
  have hempty : s'.errors.isEmpty = s.errors.isEmpty := by rw [hs.errors]
  simp only [Call.reference] at hf ha
  rw [hf] at hname
  rw [invoke, invoke, hf]
  generalize Table.get? c.name registry' = found' at hname
  cases hname with
  | @some f' _ hlike =>
    -- Every test on the way is about what the two sessions share.
    simp only [hlike.expands, hlike.sideEffects, hs.memo, hempty]
    by_cases hx : (!f.expands) = true
    · rw [if_pos hx, if_pos hx]
      obtain ⟨v, s', s, hrun', hrun, hs⟩ := (hs.run hlike ha).exists_eq
      rw [hrun', hrun]
      cases v with
      | error e => exact hs.fail e
      | ok value => exact ⟨rfl, hs⟩
    · rw [if_neg hx, if_neg hx]
      cases s.memo.lookup c.key with
      | some o =>
        obtain ⟨v, _ | e⟩ := o
        · exact ⟨rfl, hs⟩
        · exact ⟨rfl, hs.record e⟩
      | none =>
        by_cases hskip : (f.sideEffects && !s.errors.isEmpty) = true
        · simp only [hskip, if_true]
          exact hs.fail _
        · rw [Bool.not_eq_true] at hskip
          simp only [hskip, Bool.false_eq_true, if_false]
          cases h with
          | none => exact hs.fail _
          | some h =>
            simp only
            cases s.memo.begin? c.key with
            | error e => exact hs.fail e
            | ok memo => exact alike_expandCall h hlike ha _ _ (hs.withMemo memo)

/-- Sessions over registries that are alike evaluate every text alike. -/
theorem alike_evaluate (hr : Registry.Like W registry' registry) (n : Nat) (text : String) :
    Alike W (evaluate registry' n text) (evaluate registry n text) := by
  induction n generalizing text with
  | zero => exact alike_evaluateWith hr (fun c hc => alike_invoke hr .none hc) text
  | succ n ih => exact alike_evaluateWith hr (fun c hc => alike_invoke hr (.some ih) hc) text

end Stencil.Template
