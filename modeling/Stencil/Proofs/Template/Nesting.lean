import Stencil.Proofs.Template.Checks

/-!
# How deep evaluations nest

A counter beside the surroundings can bound evaluation in place of the headroom: it goes up by one
before what a call returned is evaluated and down by one after it, and nothing is expanded where it
has reached `maxDepth`. `evaluateCounting` is evaluation with such a counter, given a way to
evaluate nested texts; `rounds` puts a number of such evaluations one inside the other.

Rounds beyond the bound change nothing, so evaluation ends; what it comes to is what it comes to by
headroom, and the counter is back where it was. Wherever a call is made, the counter is the number
of keys in flight: they are the keys of the calls around it, all different and none remembered.
-/

namespace Stencil.Template

variable {σ : Type} {registry : Registry σ}

open Session

/-! ## Evaluation with a counter -/

/-- A function that leaves a counter beside its surroundings alone. -/
def Function.counted (f : Function σ) : Function (σ × Nat) where
  arity := f.arity
  expands := f.expands
  sideEffects := f.sideEffects
  call args w :=
    let r := f.call args w.1
    (r.1, r.2, w.2)

/-- The functions of a registry beside a counter. -/
def Registry.counted (registry : Registry σ) : Registry (σ × Nat) :=
  registry.map fun e => (e.1, e.2.counted)

namespace Session

/-- A session with a counter beside its surroundings. -/
def counting (s : Session σ) (depth : Nat) : Session (σ × Nat) :=
  ⟨s.memo, s.errors, s.world, depth⟩

/-- A session whose counter is set. -/
def setDepth (s : Session (σ × Nat)) (depth : Nat) : Session (σ × Nat) :=
  { s with world := (s.world.1, depth) }

end Session

/-- A way to evaluate texts in a session with a counter. -/
abbrev Counting (σ : Type) : Type :=
  String → Session (σ × Nat) → Except Error String × Session (σ × Nat)

/-- Evaluates a nested text: the counter is one higher until that is done. -/
def deeper (nested : Counting σ) : Counting σ := fun text s =>
  let r := nested text (s.setDepth (s.world.2 + 1))
  (r.1, r.2.setDepth (r.2.world.2 - 1))

/-- Makes a call where the counter alone bounds how deep expansions nest. -/
def invokeCounting (registry : Registry σ) (nested : Counting σ) (c : Call)
    (s : Session (σ × Nat)) : String × Session (σ × Nat) :=
  invoke registry.counted (if maxDepth ≤ s.world.2 then none else some (deeper nested)) c s

/-- Evaluates a text where the counter alone bounds how deep expansions nest. -/
def evaluateCounting (registry : Registry σ) (nested : Counting σ) : Counting σ :=
  evaluateWith registry.counted (invokeCounting registry nested)

/-- Evaluation with a counter that may nest in itself some number of times. -/
def rounds (registry : Registry σ) (nested : Counting σ) : Nat → Counting σ
  | 0 => nested
  | k + 1 => evaluateCounting registry (rounds registry nested k)

/-! ### Counter and headroom -/

/-- Surroundings with a counter that stands at `depth`. -/
def At (depth : Nat) (w' : σ × Nat) (w : σ) : Prop := w' = (w, depth)

/-- A counted function is like the function itself. -/
theorem Function.like_counted (depth : Nat) (f : Function σ) :
    Function.Like (At depth) f.counted f where
  arity := rfl
  expands := rfl
  sideEffects := rfl
  call _ hw := hw ▸ ⟨rfl, rfl⟩

/-- The functions beside a counter are those without it. -/
theorem Registry.like_counted (registry : Registry σ) (depth : Nat) :
    Registry.Like (At depth) registry.counted registry :=
  like_map (fun _ => Function.like_counted depth) registry

/-- A session with a counter is like a plain one just if it is that one with the counter at
`depth`. -/
theorem like_at_iff {s' : Session (σ × Nat)} {s : Session σ} {depth : Nat} :
    Session.Like (At depth) s' s ↔ s' = s.counting depth := by
  constructor
  · rintro ⟨hmemo, herrors, hworld⟩
    obtain ⟨memo', errors', world'⟩ := s'
    simp only at hmemo herrors hworld
    rw [hmemo, herrors, hworld]
    rfl
  · rintro rfl
    exact ⟨rfl, rfl, rfl⟩

/-- Nested texts are evaluated alike where the counter stands one higher. -/
theorem alike_deeper {nested : Counting σ} {step : Session σ → Except Error String × Session σ}
    {text : String} {depth : Nat} (h : Alike (At (depth + 1)) (nested text) step) :
    Alike (At depth) (deeper nested text) step := by
  intro s' s hs
  obtain rfl := like_at_iff.1 hs
  obtain ⟨hv, hs⟩ := h (s.counting (depth + 1)) s (like_at_iff.2 rfl)
  refine ⟨hv, hs.memo, hs.errors, ?_⟩
  have hdepth : (nested text (s.counting (depth + 1))).2.world = ((step s).2.world, depth + 1) :=
    hs.world
  show ((nested text (s.counting (depth + 1))).2.world.1,
    (nested text (s.counting (depth + 1))).2.world.2 - 1) = ((step s).2.world, depth)
  rw [hdepth, Nat.add_sub_cancel]

/-- An accepted call is made alike by counter and by headroom, if nested texts are evaluated so. -/
theorem alike_invokeCounting {nested : Counting σ} {depth n : Nat} (hn : depth + n = maxDepth)
    (h : ∀ m, n = m + 1 → ∀ raw, Alike (At (depth + 1)) (nested raw) (evaluate registry m raw))
    {c : Call} (hc : registry.Accepts c.reference) :
    Alike (At depth) (invokeCounting registry nested c) (invokeAt registry n c) := by
  have hrel : Option.Rel (fun expand' expand => ∀ raw, Alike (At depth) (expand' raw) (expand raw))
      (if maxDepth ≤ depth then none else some (deeper nested)) (expansion? registry n) := by
    cases n with
    | zero =>
      rw [if_pos (by omega)]
      exact .none
    | succ m =>
      rw [if_neg (by omega)]
      exact .some fun raw => alike_deeper (h m rfl raw)
  intro s' s hs
  obtain rfl := like_at_iff.1 hs
  exact alike_invoke (registry.like_counted depth) hrel hc _ s hs

/-- More rounds than there is headroom evaluate every text as the headroom does. -/
theorem alike_rounds (nested : Counting σ) {k depth n : Nat} (hn : depth + n = maxDepth)
    (hk : n < k) (text : String) :
    Alike (At depth) (rounds registry nested k text) (evaluate registry n text) := by
  induction k generalizing depth n text with
  | zero => exact absurd hk (Nat.not_lt_zero n)
  | succ k ih =>
    rw [evaluate_eq]
    refine alike_evaluateWith (registry.like_counted depth) (fun c hc => ?_) text
    refine alike_invokeCounting hn (fun m hm raw => ?_) hc
    exact ih (by omega) (by omega) raw

/-! ## Calls around calls -/

/-- An evaluation inside the expansions of some calls of another one, the innermost call first. -/
inductive Encloses (registry : Registry σ) (e : Evaluation σ) : List Call → Evaluation σ → Prop
  | self : Encloses registry e [] e
  | nested {calls e' n c s f raw} : Encloses registry e calls e' → e'.Calls registry c s →
      e'.headroom = n + 1 → Opens registry c s f → (f.call c.args s.world).1 = .ok raw →
      Encloses registry e (c :: calls) ⟨n, raw, s.launched c f⟩

/-- The keys in flight are all different, and none of them is remembered. -/
structure Session.Tidy (s : Session σ) : Prop where
  nodup : s.memo.inFlight.Nodup
  fresh : ∀ k ∈ s.memo.inFlight, s.memo.lookup k = none

theorem Session.tidy_start (world : σ) : (start world).Tidy :=
  ⟨List.nodup_nil, fun _ hk => absurd hk List.not_mem_nil⟩

/-- What an evaluation adds to a session has keys that are not in flight. -/
theorem Extends.tidy {s s' : Session σ} (h : Extends s s') (ht : s.Tidy) : s'.Tidy := by
  obtain ⟨new, hnew, -, hkeys⟩ := h.outcomes
  refine ⟨h.inFlight ▸ ht.nodup, fun k hk => ?_⟩
  rw [h.inFlight] at hk
  rw [Memo.lookup_eq_none_iff, Memo.keys, hnew, List.map_append, List.mem_append, not_or]
  refine ⟨fun hmem => ?_, Memo.lookup_eq_none_iff.1 (ht.fresh k hk)⟩
  obtain ⟨o, ho, rfl⟩ := List.mem_map.1 hmem
  exact (hkeys o ho).1 hk

/-- The key of a call that opens is neither in flight nor remembered. -/
theorem Session.Opens.tidy {c : Call} {s : Session σ} {f : Function σ} (ho : Opens registry c s f)
    (ht : s.Tidy) : (s.launched c f).Tidy := by
  refine ⟨List.nodup_cons.2 ⟨ho.grounded, ht.nodup⟩, fun k hk => ?_⟩
  rw [launched_inFlight, List.mem_cons] at hk
  rcases hk with rfl | hk
  · exact ho.fresh
  · exact ht.fresh k hk

namespace Encloses

variable {e e' : Evaluation σ} {calls : List Call}

/-- An evaluation at any depth inside another one is enclosed by some calls of that. -/
theorem exists_of_nests (h : Relation.ReflTransGen (Evaluation.Nests registry) e e') :
    ∃ calls, Encloses registry e calls e' := by
  induction h with
  | refl => exact ⟨[], .self⟩
  | tail _ hlast ih =>
    obtain ⟨calls, ih⟩ := ih
    obtain ⟨hc, hn, ho, hraw⟩ := hlast
    exact ⟨_, .nested ih hc hn ho hraw⟩

/-- An evaluation that calls enclose is inside the other one. -/
theorem nests (h : Encloses registry e calls e') :
    Relation.ReflTransGen (Evaluation.Nests registry) e e' := by
  induction h with
  | self => exact .refl
  | nested _ hc hn ho hraw ih => exact ih.tail (.intro hc hn ho hraw)

/-- The calls around an evaluation are calls that opened. -/
theorem visits (h : Encloses registry e calls e') {d : Call} (hd : d ∈ calls) :
    ∃ m s f, e.Visits registry (m + 1) d s ∧ Opens registry d s f := by
  induction h with
  | self => cases hd
  | @nested calls e' n c s f raw h' hc hn ho _ ih =>
    rcases List.mem_cons.1 hd with rfl | hd
    · exact ⟨n, s, f, ⟨e', h'.nests, hn, hc⟩, ho⟩
    · exact ih hd

/-- Every call around an evaluation has taken one from its headroom. -/
theorem headroom (h : Encloses registry e calls e') :
    calls.length + e'.headroom = e.headroom := by
  induction h with
  | self => exact Nat.zero_add _
  | nested _ _ hn _ _ ih =>
    rw [← ih, hn, List.length_cons]
    dsimp only
    omega

/-- The keys in flight are those of the calls around an evaluation, and those that were so
before. -/
theorem inFlight (h : Encloses registry e calls e') :
    e'.session.memo.inFlight = calls.map Call.key ++ e.session.memo.inFlight := by
  induction h with
  | self => rfl
  | nested _ hc _ _ _ ih =>
    rw [launched_inFlight, hc.extends_before.inFlight, ih]
    rfl

/-- An evaluation that is enclosed starts in a tidy session if the outer one does. -/
theorem tidy (h : Encloses registry e calls e') (ht : e.session.Tidy) : e'.session.Tidy := by
  induction h with
  | self => exact ht
  | nested _ hc _ ho _ ih => exact ho.tidy (hc.extends_before.tidy ih)

end Encloses

/-! ## Sessions -/

/-- A call of a session with the calls around it, the innermost first. -/
def Subject.VisitsInside (registry : Registry σ) (world : σ) (subject : Subject) (calls : List Call)
    (n : Nat) (c : Call) (s : Session σ) : Prop :=
  ∃ before t after e, subject.texts = before ++ t :: after ∧
    Encloses registry ⟨maxDepth, t, renderTexts registry before (start world)⟩ calls e ∧
      e.headroom = n ∧ e.Calls registry c s

/-- What holds wherever a call is made, with the calls around it. -/
structure Entered (registry : Registry σ) (calls : List Call) (n : Nat) (c : Call)
    (s : Session σ) : Prop where
  /-- The headroom is what the calls around have left of `maxDepth`. -/
  depth : calls.length + n = maxDepth
  /-- The keys in flight are exactly those of the calls around. -/
  inFlight : s.memo.inFlight = calls.map Call.key
  /-- They are all different, and none of them is remembered. -/
  tidy : s.Tidy
  /-- With a counter that stands at the number of the calls around, the call comes to the same, and
  the counter is there again. -/
  counts : ∀ nested k, n ≤ k →
    invokeCounting registry (rounds registry nested k) c (s.counting calls.length) =
      ((invokeAt registry n c s).1, (invokeAt registry n c s).2.counting calls.length)

/-- What bounds a session, and what it puts back. -/
structure Bounded (registry : Registry σ) (world : σ) (subject : Subject) : Prop where
  /-- With a counter that stands at `depth` and no other bound, every text is evaluated in the
  rounds that are left up to `maxDepth` and one more, whatever is put for evaluations nested deeper.
  It comes to the same as by headroom, and the counter is where it was. -/
  ends : ∀ nested k depth n text s, depth + n = maxDepth → n < k →
    rounds registry nested k text (s.counting depth) =
      ((evaluate registry n text s).1, (evaluate registry n text s).2.counting depth)
  /-- Every call of the session is made inside some others, as many as the counter says. -/
  enters : ∀ n c s, subject.Visits registry world n c s →
    ∃ calls, subject.VisitsInside registry world calls n c s ∧ Entered registry calls n c s
  /-- Every call leaves the keys in flight as they were. -/
  restores : ∀ n c s, (invokeAt registry n c s).2.memo.inFlight = s.memo.inFlight
  /-- So does every evaluation. -/
  evaluates : ∀ n text s, (evaluate registry n text s).2.memo.inFlight = s.memo.inFlight

/-- Results that meet at a depth are those without the counter, beside the counter at that depth. -/
theorem eq_of_meet_at {α : Type} {r' : α × Session (σ × Nat)} {r : α × Session σ} {depth : Nat}
    (h : Meet (At depth) r' r) : r' = (r.1, r.2.counting depth) :=
  Prod.ext h.1 (like_at_iff.1 h.2)

/-- In every session, whatever its functions return, expansions nest at most `maxDepth` deep, and
what is kept about them is right wherever a call is made and put back after it. -/
theorem nesting_bounded (registry : Registry σ) (world : σ) (subject : Subject) :
    Bounded registry world subject where
  ends nested k depth n text s hn hk :=
    eq_of_meet_at (alike_rounds nested hn hk text _ s (like_at_iff.2 rfl))
  enters := by
    rintro n c s ⟨before, t, after, ht, e, hn, rfl, hc⟩
    obtain ⟨calls, he⟩ := Encloses.exists_of_nests hn
    have hstart := extends_renderTexts registry before (start world)
    have hdepth : calls.length + e.headroom = maxDepth := he.headroom
    refine ⟨calls, ⟨before, t, after, e, ht, he, rfl, hc⟩, hdepth, ?_, ?_, fun nested k hk => ?_⟩
    · rw [hc.extends_before.inFlight, he.inFlight, hstart.inFlight]
      exact List.append_nil _
    · exact hc.extends_before.tidy (he.tidy (hstart.tidy (tidy_start world)))
    · refine eq_of_meet_at (alike_invokeCounting hdepth (fun m hm raw => ?_) hc.accepts _ s
        (like_at_iff.2 rfl))
      exact alike_rounds nested (by omega) (by omega) raw
  restores n c s := (extends_invokeAt registry n c s).inFlight
  evaluates n text s := (Evaluation.extends registry ⟨n, text, s⟩).inFlight

end Stencil.Template
