import Mathlib.Logic.Relation
import Stencil.Proofs.Template.Memo
import Stencil.Proofs.Template.Steps

/-!
# Evaluations and what they keep

An evaluation makes calls, and a call that opens starts an evaluation nested in it. `Visits` are all
calls that an evaluation makes at any depth, each with the session that it is made in.

`Keeps` says once how a relation between the session before and the session after is carried through
a whole evaluation: it has to hold of each single step. Its first instance is `Extends`: errors and
outcomes are only added, each new outcome has a new key, and the keys in flight are restored.
-/

namespace Stencil.Template

variable {σ : Type}

namespace Session

/-- The calls that writing nodes makes, each with the session that it is made in. -/
inductive Meets (invoke : Call → Session σ → String × Session σ) :
    List Node → Session σ → Call → Session σ → Prop
  | call {c rest s} : Meets invoke (.call c :: rest) s c s
  | afterCall {c rest s d s'} : Meets invoke rest (invoke c s).2 d s' →
      Meets invoke (.call c :: rest) s d s'
  | afterText {t rest s d s'} : Meets invoke rest s d s' → Meets invoke (.text t :: rest) s d s'
  | afterLiteral {t rest s d s'} : Meets invoke rest s d s' →
      Meets invoke (.literal t :: rest) s d s'

/-- A call that writing nodes makes is one of them. -/
theorem Meets.mem {invoke : Call → Session σ → String × Session σ} {nodes : List Node}
    {s s' : Session σ} {c : Call} (h : Meets invoke nodes s c s') : .call c ∈ nodes := by
  induction h with
  | call => exact List.mem_cons_self
  | afterCall _ ih => exact List.mem_cons_of_mem _ ih
  | afterText _ ih => exact List.mem_cons_of_mem _ ih
  | afterLiteral _ ih => exact List.mem_cons_of_mem _ ih

/-- Every call among the nodes is made in some session. -/
theorem exists_meets (invoke : Call → Session σ → String × Session σ) {nodes : List Node}
    {c : Call} (h : .call c ∈ nodes) (s : Session σ) : ∃ s', Meets invoke nodes s c s' := by
  induction nodes generalizing s with
  | nil => cases h
  | cons node rest ih =>
    rcases List.mem_cons.1 h with rfl | hrest
    · exact ⟨s, .call⟩
    · cases node with
      | text t => exact (ih hrest s).imp fun _ => .afterText
      | literal t => exact (ih hrest s).imp fun _ => .afterLiteral
      | call d => exact (ih hrest (invoke d s).2).imp fun _ => .afterCall

/-- What every call among the nodes keeps holds of the sessions that they are made in. -/
theorem Meets.holds {I : Session σ → Prop} {invoke : Call → Session σ → String × Session σ}
    {nodes : List Node} {s s' : Session σ} {c : Call} (h : Meets invoke nodes s c s')
    (hcall : ∀ d s'', Meets invoke nodes s d s'' → I s'' → I (invoke d s'').2) (hs : I s) :
    I s' := by
  induction h with
  | call => exact hs
  | afterCall _ ih =>
    exact ih (fun d s'' hm => hcall d s'' (.afterCall hm)) (hcall _ _ .call hs)
  | afterText _ ih => exact ih (fun d s'' hm => hcall d s'' (.afterText hm)) hs
  | afterLiteral _ ih => exact ih (fun d s'' hm => hcall d s'' (.afterLiteral hm)) hs

/-- A relation that every call among the nodes keeps is kept by writing them. -/
theorem writeNodes_rel {R : Session σ → Session σ → Prop} (refl : ∀ s, R s s)
    (trans : ∀ {a b c}, R a b → R b c → R a c) {invoke : Call → Session σ → String × Session σ}
    {nodes : List Node} {s : Session σ}
    (h : ∀ c s', Meets invoke nodes s c s' → R s' (invoke c s').2) :
    R s (writeNodes invoke nodes s).2 := by
  induction nodes generalizing s with
  | nil => exact refl s
  | cons node rest ih =>
    cases node with
    | text t => exact ih fun c s' hm => h c s' (.afterText hm)
    | literal t => exact ih fun c s' hm => h c s' (.afterLiteral hm)
    | call c => exact trans (h c s .call) (ih fun d s' hm => h d s' (.afterCall hm))

end Session

open Session

/-! ## Evaluations -/

/-- A text to be evaluated in a session where `headroom` more expansions may nest. -/
structure Evaluation (σ : Type) where
  headroom : Nat
  text : String
  session : Session σ

namespace Evaluation

variable {registry : Registry σ}

/-- What an evaluation comes to. -/
def result (registry : Registry σ) (e : Evaluation σ) : Except Error String × Session σ :=
  evaluate registry e.headroom e.text e.session

/-- The calls that an evaluation makes itself, each with the session that it is made in. -/
def Calls (registry : Registry σ) (e : Evaluation σ) (c : Call) (s : Session σ) : Prop :=
  ∃ nodes, registry.read e.text = .ok nodes ∧
    Meets (invokeAt registry e.headroom) nodes e.session c s

/-- An evaluation inside another one: that of what a call returned. -/
inductive Nests (registry : Registry σ) : Evaluation σ → Evaluation σ → Prop
  | intro {e n c s f raw} : e.Calls registry c s → e.headroom = n + 1 → Opens registry c s f →
      (f.call c.args s.world).1 = .ok raw → Nests registry e ⟨n, raw, s.launched c f⟩

/-- The calls that an evaluation makes at any depth: how many expansions may nest in each, and the
session that it is made in. -/
def Visits (registry : Registry σ) (e : Evaluation σ) (n : Nat) (c : Call) (s : Session σ) : Prop :=
  ∃ e', Relation.ReflTransGen (Nests registry) e e' ∧ e'.headroom = n ∧ e'.Calls registry c s

/-- A call that an evaluation makes itself is one that it makes. -/
theorem Calls.visits {e : Evaluation σ} {c : Call} {s : Session σ} (h : e.Calls registry c s) :
    e.Visits registry e.headroom c s :=
  ⟨e, .refl, rfl, h⟩

/-- A call that is made in an evaluation is made in those around it. -/
theorem Nests.visits {e e' : Evaluation σ} {n : Nat} {c : Call} {s : Session σ}
    (h : Nests registry e e') (hv : e'.Visits registry n c s) : e.Visits registry n c s := by
  obtain ⟨e'', hn, hc⟩ := hv
  exact ⟨e'', hn.head h, hc⟩

end Evaluation

/-! ## What every step keeps -/

/-- A relation between the session before and the session after that every step keeps, where only
the calls in `V` are made. -/
structure Keeps (registry : Registry σ) (V : Nat → Call → Session σ → Prop)
    (R : Session σ → Session σ → Prop) : Prop where
  refl : ∀ s, R s s
  trans : ∀ {a b c}, R a b → R b c → R a c
  record : ∀ s e, R s (s.record e)
  plain : ∀ {n c s f}, V n c s → Table.get? c.name registry = some f → f.expands = false →
    R s (s.run f c.args).2
  finish : ∀ {n c s f s' value error}, V (n + 1) c s → Opens registry c s f →
    R (s.launched c f) s' → invokeAt registry (n + 1) c s = s'.complete c.key value error →
    R s (s'.complete c.key value error).2

namespace Keeps

variable {registry : Registry σ} {V : Nat → Call → Session σ → Prop}
  {R : Session σ → Session σ → Prop}

/-- Replaying an outcome keeps the relation. -/
theorem replay (k : Keeps registry V R) (s : Session σ) (o : Outcome) : R s (s.replay o) := by
  obtain ⟨v, _ | e⟩ := o
  · simpa [Session.replay] using k.refl s
  · exact k.record s e

/-- A call keeps the relation if the evaluation nested in it does. -/
theorem invokeAt (k : Keeps registry V R) {n : Nat} {c : Call} {s : Session σ} (hv : V n c s)
    (nested : ∀ {m f raw}, n = m + 1 → Opens registry c s f →
      (f.call c.args s.world).1 = .ok raw →
      R (s.launched c f) (evaluate registry m raw (s.launched c f)).2) :
    R s (invokeAt registry n c s).2 := by
  have hm := makes_invokeAt registry n c s
  generalize hr : Session.invokeAt registry n c s = r at hm
  -- Every ending of a call is a chain of steps that the relation is known to keep.
  cases hm with
  | unknown _ => exact k.record s _
  | plain hf hx _ => exact k.plain hv hf hx
  | plainFailed hf hx _ => exact k.trans (k.plain hv hf hx) (k.record _ _)
  | reused _ _ _ => exact k.replay s _
  | skipped _ _ _ _ => exact k.record s _
  | tooDeep _ _ _ _ _ => exact k.record s _
  | cyclic _ _ _ _ _ _ => exact k.record s _
  | failed ho hn _ =>
    subst hn
    exact k.finish hv ho (k.record _ _) hr
  | rejected ho hn _ _ =>
    subst hn
    exact k.finish hv ho (k.record _ _) hr
  | expanded ho hn hraw he =>
    have := nested hn ho hraw
    rw [he] at this
    subst hn
    exact k.finish hv ho this hr

/-- A whole evaluation keeps the relation. -/
theorem evaluate (k : Keeps registry V R) (e : Evaluation σ)
    (hv : ∀ n c s, e.Visits registry n c s → V n c s) : R e.session (e.result registry).2 := by
  obtain ⟨n, text, s⟩ := e
  -- The induction is on the headroom: an evaluation nested in a call has less of it.
  induction n using Nat.strongRecOn generalizing text s with
  | ind n ih =>
    cases hread : registry.read text with
    | error err =>
      rw [Evaluation.result, evaluate_of_read_error hread]
      exact k.refl s
    | ok nodes =>
      rw [Evaluation.result, evaluate_of_read_ok hread]
      refine writeNodes_rel k.refl k.trans fun c s' hm => ?_
      have hc : (⟨n, text, s⟩ : Evaluation σ).Calls registry c s' := ⟨nodes, hread, hm⟩
      refine k.invokeAt (hv n c s' hc.visits) fun {m f raw} hn ho hraw => ?_
      exact ih m (Nat.lt_of_succ_le (Nat.le_of_eq hn.symm)) raw (s'.launched c f) fun n' d s'' hd =>
        hv n' d s'' ((Evaluation.Nests.intro hc hn ho hraw).visits hd)

end Keeps

/-! ## What an evaluation adds -/

/-- Errors and outcomes are only added, and each new outcome has a key that was neither in flight
nor known. The keys in flight are the same again. -/
structure Extends (s s' : Session σ) : Prop where
  errors : s.errors <+: s'.errors
  inFlight : s'.memo.inFlight = s.memo.inFlight
  outcomes : ∃ new, s'.memo.outcomes = new ++ s.memo.outcomes ∧ (new.map (·.1)).Nodup ∧
    ∀ o ∈ new, o.1 ∉ s.memo.inFlight ∧ o.1 ∉ s.memo.keys

namespace Extends

theorem refl (s : Session σ) : Extends s s :=
  ⟨List.prefix_rfl, rfl, [], rfl, List.nodup_nil, by simp⟩

/-- The keys that are known stay known. -/
theorem keys_subset {s s' : Session σ} (h : Extends s s') : s.memo.keys ⊆ s'.memo.keys := by
  obtain ⟨new, hnew, -⟩ := h.outcomes
  simp [Memo.keys, hnew]

/-- Extending twice is extending. -/
theorem trans {s s' s'' : Session σ} (h : Extends s s') (h' : Extends s' s'') :
    Extends s s'' := by
  obtain ⟨new, hnew, hn, ho⟩ := h.outcomes
  obtain ⟨new', hnew', hn', ho'⟩ := h'.outcomes
  refine ⟨h.errors.trans h'.errors, h'.inFlight.trans h.inFlight, new' ++ new, ?_, ?_, ?_⟩
  · rw [hnew', hnew, List.append_assoc]
  · rw [List.map_append, List.nodup_append']
    refine ⟨hn', hn, fun k hk' hk => ?_⟩
    -- What the first step wrote is known to the second, which writes only what is not.
    obtain ⟨o, hmem, rfl⟩ := List.mem_map.1 hk'
    refine (ho' o hmem).2 ?_
    rw [Memo.keys, hnew, List.map_append]
    exact List.mem_append_left _ hk
  · intro o hmem
    rcases List.mem_append.1 hmem with hmem | hmem
    · exact ⟨h.inFlight ▸ (ho' o hmem).1, fun hk => (ho' o hmem).2 (h.keys_subset hk)⟩
    · exact ho o hmem

/-- The key of a call that opened is new until the call is finished, and finishing it restores the
keys in flight. -/
theorem finish {registry : Registry σ} {c : Call} {s s' : Session σ} {f : Function σ}
    (ho : Opens registry c s f) (h : Extends (s.launched c f) s') (value : String)
    (error : Option Error) : Extends s (s'.complete c.key value error).2 := by
  obtain ⟨new, hnew, hn, hmem⟩ := h.outcomes
  have hfresh : c.key ∉ s.memo.keys := Memo.lookup_eq_none_iff.1 ho.fresh
  refine ⟨h.errors, ?_, (c.key, ⟨value, error⟩) :: new, ?_, ?_, ?_⟩
  · rw [complete_memo, Memo.finish, h.inFlight]
    exact Memo.filter_inFlight ho.grounded
  · rw [complete_memo, Memo.finish, hnew]
    rfl
  · rw [List.map_cons, List.nodup_cons]
    refine ⟨fun hk => ?_, hn⟩
    -- The key was in flight until now, so nothing inside the call has written it.
    obtain ⟨o, ho', hk⟩ := List.mem_map.1 hk
    refine (hmem o ho').1 ?_
    rw [hk]
    exact List.mem_cons_self
  · intro o hmem'
    rcases List.mem_cons.1 hmem' with rfl | hmem'
    · exact ⟨ho.grounded, hfresh⟩
    · exact ⟨fun hk => (hmem o hmem').1 (List.mem_cons_of_mem _ hk), (hmem o hmem').2⟩

/-- If no key was written twice before, none was afterwards. -/
theorem nodup_keys {s s' : Session σ} (h : Extends s s') (hn : s.memo.keys.Nodup) :
    s'.memo.keys.Nodup := by
  obtain ⟨new, hnew, hnn, ho⟩ := h.outcomes
  rw [Memo.keys, hnew, List.map_append, List.nodup_append']
  refine ⟨hnn, hn, fun k hk hk' => ?_⟩
  obtain ⟨o, hmem, rfl⟩ := List.mem_map.1 hk
  exact (ho o hmem).2 hk'

end Extends

/-- Every step extends the session. -/
theorem keeps_extends (registry : Registry σ) (V : Nat → Call → Session σ → Prop) :
    Keeps registry V Extends where
  refl := .refl
  trans := .trans
  record s e := ⟨List.prefix_append _ _, rfl, [], rfl, List.nodup_nil, by simp⟩
  plain _ _ _ := ⟨List.prefix_rfl, rfl, [], rfl, List.nodup_nil, by simp⟩
  finish _ ho h _ := h.finish ho _ _

/-- An evaluation extends its session. -/
theorem Evaluation.extends (registry : Registry σ) (e : Evaluation σ) :
    Extends e.session (e.result registry).2 :=
  (keeps_extends registry fun _ _ _ => True).evaluate e fun _ _ _ _ => trivial

/-- Making a call extends its session. -/
theorem Session.extends_invokeAt (registry : Registry σ) (n : Nat) (c : Call) (s : Session σ) :
    Extends s (invokeAt registry n c s).2 :=
  (keeps_extends registry fun _ _ _ => True).invokeAt trivial
    fun {m f raw} _ _ _ => Evaluation.extends registry ⟨m, raw, s.launched c f⟩

variable {registry : Registry σ}

/-- Writing nodes extends the session. -/
theorem Session.extends_writeNodes (n : Nat) (nodes : List Node) (s : Session σ) :
    Extends s (writeNodes (invokeAt registry n) nodes s).2 :=
  writeNodes_rel .refl .trans fun c s' _ => extends_invokeAt registry n c s'

/-- A call that opens is finished with the first error that was recorded since it was made. -/
theorem Session.Opens.completes {c : Call} {s : Session σ} {f : Function σ}
    (ho : Opens registry c s f) (n : Nat) :
    ∃ s' value, invokeAt registry (n + 1) c s =
        s'.complete c.key value s'.errors[s.errors.length]? ∧
      Extends (s.launched c f) s' ∧
      ∀ raw, (f.call c.args s.world).1 = .ok raw →
        Extends (evaluate registry n raw (s.launched c f)).2 s' := by
  -- The launch records nothing, so the first error after it stands right behind those before.
  have hnew (e : Error) : ((s.launched c f).record e).errors[s.errors.length]? = some e := by simp
  have hrec (e : Error) : Extends (s.launched c f) ((s.launched c f).record e) :=
    (keeps_extends registry fun _ _ _ => True).record _ e
  rw [invokeAt_of_opens ho]
  cases hr : (f.call c.args s.world).1 with
  | error e =>
    refine ⟨(s.launched c f).record e, e.marker, ?_, hrec e, fun _ h => by cases h⟩
    rw [hnew]
    rfl
  | ok raw =>
    simp only
    have hx := Evaluation.extends registry ⟨n, raw, s.launched c f⟩
    cases hread : registry.read raw with
    | error e =>
      rw [evaluate_of_read_error hread]
      refine ⟨(s.launched c f).record e, e.marker, ?_, hrec e, ?_⟩
      · rw [hnew]
        rfl
      · rintro _ ⟨⟩
        rw [evaluate_of_read_error hread]
        exact hrec e
    | ok nodes =>
      simp only [Evaluation.result, evaluate_of_read_ok hread] at hx ⊢
      refine ⟨_, _, rfl, hx, ?_⟩
      rintro _ ⟨⟩
      rw [evaluate_of_read_ok hread]
      exact .refl _

/-! ## The session between two steps -/

/-- Errors and outcomes are only added. -/
structure Grows (s s' : Session σ) : Prop where
  errors : s.errors <+: s'.errors
  outcomes : s.memo.outcomes <:+ s'.memo.outcomes

namespace Grows

theorem trans {s s' s'' : Session σ} (h : Grows s s') (h' : Grows s' s'') : Grows s s'' :=
  ⟨h.errors.trans h'.errors, h.outcomes.trans h'.outcomes⟩

theorem complete (s : Session σ) (key : CallKey) (value : String) (error : Option Error) :
    Grows s (s.complete key value error).2 :=
  ⟨List.prefix_rfl, List.suffix_cons _ _⟩

end Grows

/-- A session that is extended grows. -/
theorem Extends.grows {s s' : Session σ} (h : Extends s s') : Grows s s' := by
  obtain ⟨new, hnew, -⟩ := h.outcomes
  exact ⟨h.errors, new, hnew.symm⟩

/-- What was there when the nodes were begun is there when a call among them is made. -/
theorem Session.Meets.extends_before {n : Nat} {nodes : List Node} {s s' : Session σ} {c : Call}
    (h : Meets (invokeAt registry n) nodes s c s') : Extends s s' := by
  induction h with
  | call => exact .refl _
  | afterCall _ ih => exact (extends_invokeAt registry n _ _).trans ih
  | afterText _ ih => exact ih
  | afterLiteral _ ih => exact ih

/-- What a call among the nodes leaves is there when they are all written. -/
theorem Session.Meets.extends_after {n : Nat} {nodes : List Node} {s s' : Session σ} {c : Call}
    (h : Meets (invokeAt registry n) nodes s c s') :
    Extends (invokeAt registry n c s').2 (writeNodes (invokeAt registry n) nodes s).2 := by
  induction h with
  | call => exact extends_writeNodes n _ _
  | afterCall _ ih => exact ih
  | afterText _ ih => exact ih
  | afterLiteral _ ih => exact ih

namespace Evaluation

/-- An evaluation extends its session up to each call that it makes. -/
theorem Calls.extends_before {e : Evaluation σ} {c : Call} {s : Session σ}
    (h : e.Calls registry c s) : Extends e.session s := by
  obtain ⟨nodes, _, hm⟩ := h
  exact hm.extends_before

/-- An evaluation extends the session after each call that it makes. -/
theorem Calls.extends_after {e : Evaluation σ} {c : Call} {s : Session σ}
    (h : e.Calls registry c s) :
    Extends (invokeAt registry e.headroom c s).2 (e.result registry).2 := by
  obtain ⟨nodes, hread, hm⟩ := h
  rw [result, evaluate_of_read_ok hread]
  exact hm.extends_after

/-- A nested evaluation starts after the outer one and ends before it. -/
theorem Nests.grows {e e' : Evaluation σ} (h : Nests registry e e') :
    Grows e.session e'.session ∧ Grows (e'.result registry).2 (e.result registry).2 := by
  obtain ⟨hc, hn, ho, hraw⟩ := h
  rename_i n c s f raw
  refine ⟨⟨hc.extends_before.grows.errors, hc.extends_before.grows.outcomes⟩, ?_⟩
  obtain ⟨s', value, he, _, hx⟩ := ho.completes n
  have hafter := hc.extends_after.grows
  rw [hn, he] at hafter
  exact ((hx raw hraw).grows.trans (Grows.complete _ _ _ _)).trans hafter

/-- An evaluation at any depth starts after the outermost one and ends before it. -/
theorem grows_of_nests {e e' : Evaluation σ} (h : Relation.ReflTransGen (Nests registry) e e') :
    Grows e.session e'.session ∧ Grows (e'.result registry).2 (e.result registry).2 := by
  induction h with
  | refl => exact ⟨(Extends.refl _).grows, (Extends.refl _).grows⟩
  | tail _ h ih => exact ⟨ih.1.trans h.grows.1, h.grows.2.trans ih.2⟩

/-- Every call is made in a session between the first and the last. -/
theorem Visits.grows {e : Evaluation σ} {n : Nat} {c : Call} {s : Session σ}
    (h : e.Visits registry n c s) :
    Grows e.session s ∧ Grows (invokeAt registry n c s).2 (e.result registry).2 := by
  obtain ⟨e', hn, rfl, hc⟩ := h
  have hg := grows_of_nests hn
  exact ⟨hg.1.trans hc.extends_before.grows, hc.extends_after.grows.trans hg.2⟩

end Evaluation

end Stencil.Template
