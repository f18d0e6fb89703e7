import Stencil.Template.Session

/-!
# The steps of a session

`Makes` lists everything that making a call can come to, with the conditions of each ending. What a
session does is read off this list; the evaluator itself is not opened again.

A call that `Opens` is the only one that runs an expanding function: its key is put in flight, its
function is called, what that returns is evaluated, and the key is finished.
-/

namespace Stencil.Template

variable {σ : Type}

/-- The nodes of a text that parses and whose calls are all right. -/
def Registry.read (registry : Registry σ) (text : String) : Except Error (List Node) :=
  match parse text with
  | .error e => .error e
  | .ok nodes => (registry.checkNodes nodes).map fun _ => nodes

namespace Session

/-! ## Evaluation by headroom -/

/-- How what a call returns is evaluated where `headroom` more expansions may nest. -/
def expansion? (registry : Registry σ) :
    Nat → Option (String → Session σ → Except Error String × Session σ)
  | 0 => none
  | headroom + 1 => some (evaluate registry headroom)

/-- Makes a call where `headroom` more expansions may nest. -/
def invokeAt (registry : Registry σ) (headroom : Nat) : Call → Session σ → String × Session σ :=
  invoke registry (expansion? registry headroom)

/-- Texts are evaluated with calls that may nest as deep as the headroom allows. -/
theorem evaluate_eq (registry : Registry σ) (headroom : Nat) :
    evaluate registry headroom = evaluateWith registry (invokeAt registry headroom) := by
  cases headroom <;> rfl

/-- Reading a text settles its checks, and only then is anything written. -/
theorem evaluateWith_read (registry : Registry σ)
    (invoke : Call → Session σ → String × Session σ) (text : String) (s : Session σ) :
    evaluateWith registry invoke text s =
      match registry.read text with
      | .error e => (.error e, s)
      | .ok nodes =>
        (.ok (String.join (writeNodes invoke nodes s).1), (writeNodes invoke nodes s).2) := by
  unfold evaluateWith Registry.read
  cases parse text with
  | error e => rfl
  | ok nodes =>
    simp only
    cases registry.checkNodes nodes <;> rfl

/-- A text that does not pass its checks leaves the session as it was. -/
theorem evaluate_of_read_error {registry : Registry σ} {text : String} {e : Error}
    (h : registry.read text = .error e) (headroom : Nat) (s : Session σ) :
    evaluate registry headroom text s = (.error e, s) := by
  rw [evaluate_eq, evaluateWith_read, h]

/-- A text that passes its checks is written from left to right. -/
theorem evaluate_of_read_ok {registry : Registry σ} {text : String} {nodes : List Node}
    (h : registry.read text = .ok nodes) (headroom : Nat) (s : Session σ) :
    evaluate registry headroom text s =
      (.ok (String.join (writeNodes (invokeAt registry headroom) nodes s).1),
        (writeNodes (invokeAt registry headroom) nodes s).2) := by
  rw [evaluate_eq, evaluateWith_read, h]

/-! ## Sessions on the way -/

/-- A session in which an outcome was used again: its error, if any, is recorded once more. -/
def replay (s : Session σ) (o : Outcome) : Session σ :=
  { s with errors := s.errors ++ o.error.toList }

/-- A session in which the key of a call was put in flight and its function has run. -/
def launched (s : Session σ) (c : Call) (f : Function σ) : Session σ :=
  ⟨{ s.memo with inFlight := c.key :: s.memo.inFlight }, s.errors, (f.call c.args s.world).2⟩

@[simp] theorem record_errors (s : Session σ) (e : Error) :
    (s.record e).errors = s.errors ++ [e] := rfl

@[simp] theorem record_memo (s : Session σ) (e : Error) : (s.record e).memo = s.memo := rfl

@[simp] theorem record_world (s : Session σ) (e : Error) : (s.record e).world = s.world := rfl

@[simp] theorem launched_errors (s : Session σ) (c : Call) (f : Function σ) :
    (s.launched c f).errors = s.errors := rfl

@[simp] theorem launched_inFlight (s : Session σ) (c : Call) (f : Function σ) :
    (s.launched c f).memo.inFlight = c.key :: s.memo.inFlight := rfl

/-- Ending a call remembers what it has come to. -/
@[simp] theorem complete_memo (s : Session σ) (key : CallKey) (value : String)
    (error : Option Error) :
    (s.complete key value error).2.memo = s.memo.finish key ⟨value, error⟩ := rfl

@[simp] theorem complete_world (s : Session σ) (key : CallKey) (value : String)
    (error : Option Error) : (s.complete key value error).2.world = s.world := rfl

/-! ## Making a call -/

/-- A call of an expanding function that is new to a session, is not under way, and is not held back
by an error. -/
structure Opens (registry : Registry σ) (c : Call) (s : Session σ) (f : Function σ) : Prop where
  found : Table.get? c.name registry = some f
  expands : f.expands = true
  fresh : s.memo.lookup c.key = none
  allowed : (f.sideEffects && !s.errors.isEmpty) = false
  grounded : c.key ∉ s.memo.inFlight

/-- Everything that making a call can come to. -/
inductive Makes (registry : Registry σ) (headroom : Nat) (c : Call) (s : Session σ) :
    String × Session σ → Prop
  | unknown : Table.get? c.name registry = none →
      Makes registry headroom c s (s.fail (.unknownFunction c.name))
  | plain {f v} : Table.get? c.name registry = some f → f.expands = false →
      (f.call c.args s.world).1 = .ok v →
      Makes registry headroom c s (v, (s.run f c.args).2)
  | plainFailed {f e} : Table.get? c.name registry = some f → f.expands = false →
      (f.call c.args s.world).1 = .error e →
      Makes registry headroom c s ((s.run f c.args).2.fail e)
  | reused {f o} : Table.get? c.name registry = some f → f.expands = true →
      s.memo.lookup c.key = some o →
      Makes registry headroom c s (o.value, s.replay o)
  | skipped {f} : Table.get? c.name registry = some f → f.expands = true →
      s.memo.lookup c.key = none → (f.sideEffects && !s.errors.isEmpty) = true →
      Makes registry headroom c s (s.fail (.upload (c.key.text ++ " skipped after earlier error")))
  | tooDeep {f} : Table.get? c.name registry = some f → f.expands = true →
      s.memo.lookup c.key = none → (f.sideEffects && !s.errors.isEmpty) = false → headroom = 0 →
      Makes registry headroom c s (s.fail (.tooDeep c.key.text maxDepth))
  | cyclic {f} : Table.get? c.name registry = some f → f.expands = true →
      s.memo.lookup c.key = none → (f.sideEffects && !s.errors.isEmpty) = false → headroom ≠ 0 →
      c.key ∈ s.memo.inFlight →
      Makes registry headroom c s (s.fail (.cyclic c.key.text))
  | failed {f e n} : Opens registry c s f → headroom = n + 1 →
      (f.call c.args s.world).1 = .error e →
      Makes registry headroom c s ((s.launched c f).completeFailed c.key e)
  | rejected {f raw e n} : Opens registry c s f → headroom = n + 1 →
      (f.call c.args s.world).1 = .ok raw → registry.read raw = .error e →
      Makes registry headroom c s ((s.launched c f).completeFailed c.key e)
  | expanded {f raw v n s'} : Opens registry c s f → headroom = n + 1 →
      (f.call c.args s.world).1 = .ok raw →
      evaluate registry n raw (s.launched c f) = (.ok v, s') →
      Makes registry headroom c s (s'.complete c.key v s'.errors[s.errors.length]?)

/-- An expanding call that is remembered comes to what is remembered. -/
theorem invokeAt_of_lookup {registry : Registry σ} {c : Call} {s : Session σ} {f : Function σ}
    {o : Outcome} (hf : Table.get? c.name registry = some f) (hx : f.expands = true)
    (hl : s.memo.lookup c.key = some o) (n : Nat) :
    invokeAt registry n c s = (o.value, s.replay o) := by
  rw [invokeAt, invoke, hf]
  obtain ⟨v, _ | e⟩ := o <;> simp [hx, hl, replay, record]

/-- A call that opens runs its function, evaluates what that returns, and is finished. -/
theorem invokeAt_of_opens {registry : Registry σ} {c : Call} {s : Session σ} {f : Function σ}
    (ho : Opens registry c s f) (n : Nat) :
    invokeAt registry (n + 1) c s =
      match (f.call c.args s.world).1 with
      | .error e => (s.launched c f).completeFailed c.key e
      | .ok raw =>
        match evaluate registry n raw (s.launched c f) with
        | (.error e, s') => s'.completeFailed c.key e
        | (.ok value, s') => s'.complete c.key value s'.errors[s.errors.length]? := by
  have hrun : Session.run { s with memo := { s.memo with inFlight := c.key :: s.memo.inFlight } }
      f c.args = ((f.call c.args s.world).1, s.launched c f) := rfl
  simp only [invokeAt, invoke, ho.found, ho.expands, ho.fresh, ho.allowed, expansion?, Memo.begin?,
    Memo.isCyclic, List.contains_eq_mem, ho.grounded, decide_false, Bool.not_true,
    Bool.false_eq_true, if_false]
  rw [expandCall, hrun]
  cases (f.call c.args s.world).1 <;> rfl

/-- A call that opens comes to one of the last three endings. -/
theorem makes_of_opens {registry : Registry σ} {c : Call} {s : Session σ} {f : Function σ}
    (ho : Opens registry c s f) (n : Nat) :
    Makes registry (n + 1) c s (invokeAt registry (n + 1) c s) := by
  rw [invokeAt_of_opens ho]
  cases hr : (f.call c.args s.world).1 with
  | error e => exact .failed ho rfl hr
  | ok raw =>
    simp only
    cases hread : registry.read raw with
    | error e =>
      rw [evaluate_of_read_error hread]
      exact .rejected ho rfl hr hread
    | ok nodes =>
      have he := evaluate_of_read_ok hread n (s.launched c f)
      rw [he]
      exact .expanded ho rfl hr he

/-- Making a call comes to one of the listed endings. -/
theorem makes_invokeAt (registry : Registry σ) (headroom : Nat) (c : Call) (s : Session σ) :
    Makes registry headroom c s (invokeAt registry headroom c s) := by
  have hrun (f : Function σ) :
      s.run f c.args = ((f.call c.args s.world).1, (s.run f c.args).2) := rfl
  -- The cases are the tests of a call, in the order in which they are made.
  cases hf : Table.get? c.name registry with
  | none =>
    rw [invokeAt, invoke, hf]
    exact .unknown hf
  | some f =>
    by_cases hx : f.expands = true
    · cases hm : s.memo.lookup c.key with
      | some o =>
        rw [invokeAt_of_lookup hf hx hm]
        exact .reused hf hx hm
      | none =>
        by_cases ha : (f.sideEffects && !s.errors.isEmpty) = true
        · rw [invokeAt, invoke, hf]
          simpa only [hx, hm, ha] using .skipped hf hx hm ha
        · rw [Bool.not_eq_true] at ha
          cases headroom with
          | zero =>
            rw [invokeAt, invoke, hf]
            simpa only [hx, hm, ha] using .tooDeep hf hx hm ha rfl
          | succ n =>
            by_cases hk : c.key ∈ s.memo.inFlight
            · rw [invokeAt, invoke, hf]
              have hs : Makes registry (n + 1) c s _ :=
                .cyclic hf hx hm ha (Nat.succ_ne_zero n) hk
              simpa [hx, hm, ha, expansion?, Memo.begin?, Memo.isCyclic, hk] using hs
            · exact makes_of_opens ⟨hf, hx, hm, ha, hk⟩ n
    · rw [Bool.not_eq_true] at hx
      rw [invokeAt, invoke, hf]
      simp only [hx, Bool.not_false, if_true]
      rw [hrun]
      cases hr : (f.call c.args s.world).1 with
      | error e => exact .plainFailed hf hx hr
      | ok v => exact .plain hf hx hr

end Session

end Stencil.Template
