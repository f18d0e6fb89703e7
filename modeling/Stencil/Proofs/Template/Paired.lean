import Stencil.Proofs.Template.Reference

/-!
# Sessions that tell calls apart by their arguments

The key of a call is one text, in which the arguments stand with spaces between them. A paired
session keeps what calls have come to, and which of them are under way, by what they refer to
instead: the name of a function and the list of arguments. In everything else it is a session.

As long as no two references that a session meets have the same key, the paired session does what
the session does.
-/

namespace Stencil.Template

variable {σ α : Type}

/-- The state of a session that tells calls apart by what they refer to. -/
structure Paired (σ : Type) where
  outcomes : List (Reference × Outcome)
  inFlight : List Reference
  errors : List Error
  world : σ

namespace Paired

/-! ## How a paired session runs -/

/-- A session that has done nothing yet. -/
def start (world : σ) : Paired σ := ⟨[], [], [], world⟩

/-- The outcome of a reference. -/
def lookup (p : Paired σ) (r : Reference) : Option Outcome :=
  (p.outcomes.find? (·.1 == r)).map (·.2)

/-- Takes note of an error. -/
def record (p : Paired σ) (e : Error) : Paired σ :=
  { p with errors := p.errors ++ [e] }

/-- Takes note of an error that leaves its marker as a value. -/
def fail (p : Paired σ) (e : Error) : String × Paired σ :=
  (e.marker, p.record e)

/-- Runs a function on the surroundings. -/
def run (p : Paired σ) (f : Function σ) (args : List String) : Except Error String × Paired σ :=
  let r := f.call args p.world
  (r.1, { p with world := r.2 })

/-- Ends the call of a reference with a value, and with the first error inside it. -/
def complete (p : Paired σ) (r : Reference) (value : String) (error : Option Error) :
    String × Paired σ :=
  (value, { p with
    outcomes := (r, ⟨value, error⟩) :: p.outcomes
    inFlight := p.inFlight.filter (· != r) })

/-- Ends the call of a reference with an error of its own. -/
def completeFailed (p : Paired σ) (r : Reference) (e : Error) : String × Paired σ :=
  (p.record e).complete r e.marker (some e)

/-- Writes nodes from left to right with a way to make calls. -/
def writeNodes (invoke : Call → Paired σ → String × Paired σ) :
    List Node → Paired σ → List String × Paired σ
  | [], p => ([], p)
  | .text t :: rest, p =>
    let r := writeNodes invoke rest p
    (t :: r.1, r.2)
  | .literal t :: rest, p =>
    let r := writeNodes invoke rest p
    (t :: r.1, r.2)
  | .call c :: rest, p =>
    let v := invoke c p
    let r := writeNodes invoke rest v.2
    (v.1 :: r.1, r.2)

/-- Evaluates a text with a way to make calls. -/
def evaluateWith (registry : Registry σ) (invoke : Call → Paired σ → String × Paired σ)
    (text : String) (p : Paired σ) : Except Error String × Paired σ :=
  match registry.read text with
  | .error e => (.error e, p)
  | .ok nodes => (.ok (String.join (writeNodes invoke nodes p).1), (writeNodes invoke nodes p).2)

/-- Makes a call whose reference is in flight and expands what it returns. -/
def expandCall (expand : String → Paired σ → Except Error String × Paired σ) (f : Function σ)
    (c : Call) (p : Paired σ) : String × Paired σ :=
  match p.run f c.args with
  | (.error e, p) => p.completeFailed c.reference e
  | (.ok raw, p) =>
    let known := p.errors.length
    match expand raw p with
    | (.error e, p) => p.completeFailed c.reference e
    | (.ok value, p) => p.complete c.reference value p.errors[known]?

/-- Makes a call. Errors name it by its key, as in every session. -/
def invoke (registry : Registry σ)
    (expand? : Option (String → Paired σ → Except Error String × Paired σ))
    (c : Call) (p : Paired σ) : String × Paired σ :=
  match Table.get? c.name registry with
  | none => p.fail (.unknownFunction c.name)
  | some f =>
    if !f.expands then
      match p.run f c.args with
      | (.ok value, p) => (value, p)
      | (.error e, p) => p.fail e
    else
      match p.lookup c.reference with
      | some outcome =>
        match outcome.error with
        | none => (outcome.value, p)
        | some e => (outcome.value, p.record e)
      | none =>
        if f.sideEffects && !p.errors.isEmpty then
          p.fail (.upload (c.key.text ++ " skipped after earlier error"))
        else
          match expand? with
          | none => p.fail (.tooDeep c.key.text maxDepth)
          | some expand =>
            if p.inFlight.contains c.reference then p.fail (.cyclic c.key.text)
            else expandCall expand f c { p with inFlight := c.reference :: p.inFlight }

/-- Evaluates a text where `headroom` more expansions may nest. -/
def evaluate (registry : Registry σ) :
    (headroom : Nat) → String → Paired σ → Except Error String × Paired σ
  | 0 => evaluateWith registry (invoke registry none)
  | headroom + 1 => evaluateWith registry (invoke registry (some (evaluate registry headroom)))

/-- Renders one text. A text that does not pass its checks stays as it is. -/
def renderText (registry : Registry σ) (text : String) (p : Paired σ) : String × Paired σ :=
  match evaluate registry maxDepth text p with
  | (.ok value, p) => (value, p)
  | (.error e, p) => (text, p.record e)

/-- Renders one text of a thing. -/
def renderLeaf (registry : Registry σ) (text : String) : StateM (Paired σ) String := fun p =>
  if Session.hasPlaceholder text then
    match evaluate registry maxDepth text p with
    | (.ok value, p) => (value, p)
    | (.error e, p) => p.fail e
  else (text, p)

/-- How a session ends with an output. -/
def ending (r : α × Paired σ) : Rendering α × σ :=
  (⟨r.1, r.2.errors.head?⟩, r.2.world)

/-- A whole session over one text. -/
def render (registry : Registry σ) (text : String) (world : σ) : Rendering String × σ :=
  ending (renderText registry text (start world))

/-- A whole session over all texts of a thing. -/
def renderAll [Texts α] (registry : Registry σ) (thing : α) (world : σ) : Rendering α × σ :=
  ending ((Texts.mapTexts (renderLeaf registry) thing).run (start world))

/-! ## The session with keys -/

/-- The session that has the keys of the references. -/
def keyed (p : Paired σ) : Session σ :=
  ⟨⟨p.outcomes.map fun o => (o.1.key, o.2), p.inFlight.map Reference.key⟩, p.errors, p.world⟩

/-- All references of a paired session are in `Q`. -/
structure Within (Q : Reference → Prop) (p : Paired σ) : Prop where
  outcomes : ∀ o ∈ p.outcomes, Q o.1
  inFlight : ∀ r ∈ p.inFlight, Q r

/-- The references in `Q` have different keys. -/
def Separates (Q : Reference → Prop) : Prop := ∀ r q, Q r → Q q → r.key = q.key → r = q

/-- A step of a paired session that comes to what it comes to with keys, and meets no reference
outside of `Q`. -/
structure Follows (Q : Reference → Prop) (r' : α × Paired σ) (r : α × Session σ) : Prop where
  value : r.1 = r'.1
  session : r.2 = r'.2.keyed
  within : r'.2.Within Q

variable {Q : Reference → Prop} {p : Paired σ}

/-- A step that follows one with keys has the same value, and the same session but for the keys. -/
theorem Follows.exists_eq {r' : α × Paired σ} {r : α × Session σ} (h : Follows Q r' r) :
    ∃ v p, r' = (v, p) ∧ r = (v, p.keyed) ∧ p.Within Q :=
  ⟨r'.1, r'.2, rfl, Prod.ext h.value h.session, h.within⟩

/-- Where keys tell the references apart, an outcome is found by the key just if it is by the
reference. -/
theorem lookup_keyed (hQ : Separates Q) (hp : p.Within Q) {r : Reference} (hr : Q r) :
    p.keyed.memo.lookup r.key = p.lookup r := by
  have hfind : ∀ outcomes : List (Reference × Outcome), (∀ o ∈ outcomes, Q o.1) →
      ((outcomes.map fun o => (o.1.key, o.2)).find? (·.1 == r.key)).map (·.2) =
        (outcomes.find? (·.1 == r)).map (·.2) := by
    intro outcomes ho
    induction outcomes with
    | nil => rfl
    | cons o rest ih =>
      have hkey : (o.1.key == r.key) = (o.1 == r) := by
        rw [Bool.eq_iff_iff, beq_iff_eq, beq_iff_eq]
        exact ⟨hQ _ _ (ho o List.mem_cons_self) hr, congrArg Reference.key⟩
      rw [List.map_cons, List.find?_cons, List.find?_cons, hkey]
      cases o.1 == r with
      | true => rfl
      | false => exact ih fun o' h => ho o' (List.mem_cons_of_mem _ h)
  exact hfind p.outcomes hp.outcomes

/-- A reference is in flight if its key is, where different references have different keys. -/
theorem isCyclic_keyed (hQ : Separates Q) (hp : p.Within Q) {r : Reference} (hr : Q r) :
    p.keyed.memo.isCyclic r.key = p.inFlight.contains r := by
  rw [Memo.isCyclic, Bool.eq_iff_iff, List.contains_iff_mem, List.contains_iff_mem]
  constructor
  · intro hk
    obtain ⟨q, hq, hkey⟩ := List.mem_map.1 hk
    exact hQ q r (hp.inFlight q hq) hr hkey ▸ hq
  · exact List.mem_map_of_mem

namespace Within

theorem record (hp : p.Within Q) (e : Error) : (p.record e).Within Q :=
  ⟨hp.outcomes, hp.inFlight⟩

theorem run (hp : p.Within Q) (f : Function σ) (args : List String) : (p.run f args).2.Within Q :=
  ⟨hp.outcomes, hp.inFlight⟩

theorem begin (hp : p.Within Q) {r : Reference} (hr : Q r) :
    Within Q { p with inFlight := r :: p.inFlight } :=
  ⟨hp.outcomes, fun q hq => (List.mem_cons.1 hq).elim (fun h => h ▸ hr) (hp.inFlight q)⟩

theorem fail (hp : p.Within Q) (e : Error) : Follows Q (p.fail e) (p.keyed.fail e) :=
  ⟨rfl, rfl, hp.record e⟩

/-- Where keys tell the references apart, finishing a reference takes no other one out of flight. -/
theorem complete (hQ : Separates Q) (hp : p.Within Q) {r : Reference} (hr : Q r) (value : String)
    (error : Option Error) :
    Follows Q (p.complete r value error) (p.keyed.complete r.key value error) := by
  have hfly : (p.inFlight.map Reference.key).filter (· != r.key) =
      (p.inFlight.filter (· != r)).map Reference.key := by
    rw [List.filter_map]
    refine congrArg (List.map Reference.key) (List.filter_congr fun q hq => ?_)
    rw [Function.comp_apply, Bool.eq_iff_iff, bne_iff_ne, bne_iff_ne]
    exact not_congr ⟨hQ q r (hp.inFlight q hq) hr, congrArg Reference.key⟩
  refine ⟨rfl, ?_, fun o ho => ?_, fun q hq => hp.inFlight q (List.mem_filter.1 hq).1⟩
  · simp only [Session.complete, Memo.finish, keyed, Paired.complete, hfly, List.map_cons]
  · rcases List.mem_cons.1 ho with rfl | ho
    · exact hr
    · exact hp.outcomes o ho

theorem completeFailed (hQ : Separates Q) (hp : p.Within Q) {r : Reference} (hr : Q r)
    (e : Error) : Follows Q (p.completeFailed r e) (p.keyed.completeFailed r.key e) :=
  (hp.record e).complete hQ hr e.marker (some e)

end Within

/-! ## Steps -/

open Session

variable {registry : Registry σ}

/-- A paired session in which the reference of a call was put in flight and its function has run. -/
def launched (p : Paired σ) (c : Call) (f : Function σ) : Paired σ :=
  ⟨p.outcomes, c.reference :: p.inFlight, p.errors, (f.call c.args p.world).2⟩

theorem Within.launched (hp : p.Within Q) {c : Call} (hc : Q c.reference) (f : Function σ) :
    (p.launched c f).Within Q :=
  ⟨hp.outcomes, (hp.begin hc).inFlight⟩

/-- How what a call returns is evaluated where `headroom` more expansions may nest. -/
def expansion? (registry : Registry σ) :
    Nat → Option (String → Paired σ → Except Error String × Paired σ)
  | 0 => none
  | headroom + 1 => some (evaluate registry headroom)

/-- Makes a call where `headroom` more expansions may nest. -/
def invokeAt (registry : Registry σ) (headroom : Nat) : Call → Paired σ → String × Paired σ :=
  invoke registry (expansion? registry headroom)

/-- Texts are evaluated with calls that may nest as deep as the headroom allows. -/
theorem evaluate_eq (registry : Registry σ) (headroom : Nat) :
    evaluate registry headroom = evaluateWith registry (invokeAt registry headroom) := by
  cases headroom <;> rfl

/-- A call that opens comes to the same if what it returns is evaluated so. -/
theorem follows_expandCall (hQ : Separates Q) (hp : p.Within Q) {c : Call} (hc : Q c.reference)
    {n : Nat} {f : Function σ} (ho : Opens registry c p.keyed f)
    (nested : ∀ raw, (f.call c.args p.world).1 = .ok raw →
      Follows Q (evaluate registry n raw (p.launched c f))
        (Session.evaluate registry n raw (p.keyed.launched c f))) :
    Follows Q
      (expandCall (evaluate registry n) f c { p with inFlight := c.reference :: p.inFlight })
      (Session.invokeAt registry (n + 1) c p.keyed) := by
  have hrun : run { p with inFlight := c.reference :: p.inFlight } f c.args =
      ((f.call c.args p.world).1, p.launched c f) := rfl
  have hworld : p.keyed.world = p.world := rfl
  have hlaunched := hp.launched hc f
  rw [invokeAt_of_opens ho, expandCall, hrun, hworld]
  cases hraw : (f.call c.args p.world).1 with
  | error e => exact hlaunched.completeFailed hQ hc e
  | ok raw =>
    obtain ⟨v, p', hpaired, hkeyed, hwithin⟩ := (nested raw hraw).exists_eq
    simp only [hpaired, hkeyed]
    cases v with
    | error e => exact hwithin.completeFailed hQ hc e
    | ok value => exact hwithin.complete hQ hc value _

/-- A call comes to the same if what it returns is evaluated so. -/
theorem follows_invokeAt (hQ : Separates Q) (hp : p.Within Q) {c : Call}
    (hacc : registry.Accepts c.reference) (hc : registry.Expanding c.reference → Q c.reference)
    {n : Nat} (nested : ∀ {m f raw}, n = m + 1 → Opens registry c p.keyed f →
      (f.call c.args p.world).1 = .ok raw →
      Follows Q (evaluate registry m raw (p.launched c f))
        (Session.evaluate registry m raw (p.keyed.launched c f))) :
    Follows Q (invokeAt registry n c p) (Session.invokeAt registry n c p.keyed) := by
  obtain ⟨f, hf, -⟩ := Registry.accepts_iff.1 hacc
  have hf : Table.get? c.name registry = some f := hf
  cases hx : f.expands with
  | false =>
    have hrun : p.keyed.run f c.args = ((p.run f c.args).1, (p.run f c.args).2.keyed) := rfl
    have hwithin := hp.run f c.args
    simp only [invokeAt, Session.invokeAt, invoke, Session.invoke, hf, hx, Bool.not_false, if_true,
      hrun]
    generalize p.run f c.args = r at hwithin
    obtain ⟨e | v, p'⟩ := r
    · exact hwithin.fail e
    · exact ⟨rfl, rfl, hwithin⟩
  | true =>
    have hc := hc (hacc.expanding hf hx)
    -- From here on the two sessions ask the same questions of what they remember, each by its own
    -- key.
    have hlookup : p.keyed.memo.lookup c.key = p.lookup c.reference := lookup_keyed hQ hp hc
    have hcyclic : p.keyed.memo.isCyclic c.key = p.inFlight.contains c.reference :=
      isCyclic_keyed hQ hp hc
    have herrors : p.keyed.errors = p.errors := rfl
    cases hl : p.lookup c.reference with
    | some o =>
      obtain ⟨v, _ | e⟩ := o
      all_goals
        simp only [invokeAt, Session.invokeAt, invoke, Session.invoke, hf, hx, hlookup, hl,
          Bool.not_true, Bool.false_eq_true, if_false]
      · exact ⟨rfl, rfl, hp⟩
      · exact ⟨rfl, rfl, hp.record e⟩
    | none =>
      cases ha : f.sideEffects && !p.errors.isEmpty with
      | true =>
        simp only [invokeAt, Session.invokeAt, invoke, Session.invoke, hf, hx, hlookup, hl, ha,
          herrors, Bool.not_true, Bool.false_eq_true, if_false, if_true]
        exact hp.fail _
      | false =>
        cases n with
        | zero =>
          simp only [invokeAt, Session.invokeAt, invoke, Session.invoke, hf, hx, hlookup, hl, ha,
            herrors, Bool.not_true, Bool.false_eq_true, if_false]
          exact hp.fail _
        | succ n =>
          cases hk : p.inFlight.contains c.reference with
          | true =>
            simp only [invokeAt, Session.invokeAt, invoke, Session.invoke, hf, hx, hlookup, hl, ha,
              herrors, expansion?, Session.expansion?, Memo.begin?, hcyclic, hk, Bool.not_true,
              Bool.false_eq_true, if_false, if_true]
            exact hp.fail _
          | false =>
            -- None of the tests ends the call, so it opens in both sessions.
            have ho : Opens registry c p.keyed f := by
              refine ⟨hf, hx, hlookup.trans hl, ha, fun hmem => ?_⟩
              rw [Memo.isCyclic, List.contains_iff_mem.2 hmem] at hcyclic
              rw [hk] at hcyclic
              cases hcyclic
            have hself : invokeAt registry (n + 1) c p = expandCall (evaluate registry n) f c
                { p with inFlight := c.reference :: p.inFlight } := by
              simp only [invokeAt, invoke, hf, hx, hl, ha, expansion?, hk, Bool.not_true,
                Bool.false_eq_true, if_false]
            rw [hself]
            exact follows_expandCall hQ hp hc ho fun raw => nested rfl ho

/-- Nodes are written the same if every call among them comes to the same. -/
theorem follows_writeNodes {n : Nat} {nodes : List Node} (hp : p.Within Q)
    (h : ∀ c p', Meets (Session.invokeAt registry n) nodes p.keyed c p'.keyed → p'.Within Q →
      Follows Q (invokeAt registry n c p') (Session.invokeAt registry n c p'.keyed)) :
    Follows Q (writeNodes (invokeAt registry n) nodes p)
      (Session.writeNodes (Session.invokeAt registry n) nodes p.keyed) := by
  induction nodes generalizing p with
  | nil => exact ⟨rfl, rfl, hp⟩
  | cons node rest ih =>
    cases node with
    | text t =>
      obtain ⟨hv, hs, hw⟩ := ih hp fun c p' hm => h c p' (.afterText hm)
      exact ⟨congrArg (t :: ·) hv, hs, hw⟩
    | literal t =>
      obtain ⟨hv, hs, hw⟩ := ih hp fun c p' hm => h c p' (.afterLiteral hm)
      exact ⟨congrArg (t :: ·) hv, hs, hw⟩
    | call c =>
      obtain ⟨hvc, hsc, hwc⟩ := h c p .call hp
      obtain ⟨hv, hs, hw⟩ := ih hwc fun d p' hm => h d p' (.afterCall (hsc ▸ hm))
      rw [← hsc] at hv hs
      exact ⟨congrArg₂ List.cons hvc hv, hs, hw⟩

/-! ## Evaluations -/

/-- A text is evaluated the same if keys tell the expanding references apart that the evaluation
meets. -/
theorem follows_evaluate (hQ : Separates Q) (n : Nat) (text : String) (hp : p.Within Q)
    (hv : ∀ m c s, Evaluation.Visits registry ⟨n, text, p.keyed⟩ m c s →
      registry.Expanding c.reference → Q c.reference) :
    Follows Q (evaluate registry n text p) (Session.evaluate registry n text p.keyed) := by
  -- The induction is on the headroom: an evaluation nested in a call has less of it.
  induction n using Nat.strongRecOn generalizing text p with
  | ind n ih =>
    rw [evaluate_eq, Session.evaluate_eq, evaluateWith, evaluateWith_read]
    cases hread : registry.read text with
    | error e => exact ⟨rfl, rfl, hp⟩
    | ok nodes =>
      have hwritten : Follows Q (writeNodes (invokeAt registry n) nodes p)
          (Session.writeNodes (Session.invokeAt registry n) nodes p.keyed) := by
        refine follows_writeNodes hp fun c p' hm hp' => ?_
        have hc : Evaluation.Calls registry ⟨n, text, p.keyed⟩ c p'.keyed := ⟨nodes, hread, hm⟩
        have hmet := hv n c p'.keyed hc.visits
        refine follows_invokeAt hQ hp' hc.accepts hmet ?_
        intro m f raw hn ho hraw
        have hx := hc.accepts.expanding ho.found ho.expands
        refine ih m (by omega) raw (hp'.launched (hmet hx) f) fun m' d s hd => ?_
        exact hv m' d s ((Evaluation.Nests.intro hc hn ho hraw).visits hd)
      obtain ⟨hvalue, hsession, hwithin⟩ := hwritten
      exact ⟨congrArg (Except.ok ∘ String.join) hvalue, hsession, hwithin⟩

/-! ## Sessions -/

/-- Rendering a text by itself comes to the same. -/
theorem follows_renderText (hQ : Separates Q) (text : String) (hp : p.Within Q)
    (hv : ∀ m c s, Evaluation.Visits registry ⟨maxDepth, text, p.keyed⟩ m c s →
      registry.Expanding c.reference → Q c.reference) :
    Follows Q (renderText registry text p) (Session.renderText registry text p.keyed) := by
  obtain ⟨v, p', hpaired, hkeyed, hwithin⟩ := (follows_evaluate hQ maxDepth text hp hv).exists_eq
  rw [renderText, Session.renderText, hpaired, hkeyed]
  cases v with
  | error e => exact ⟨rfl, rfl, hwithin.record e⟩
  | ok value => exact ⟨rfl, rfl, hwithin⟩

/-- Rendering a text of a thing comes to the same. -/
theorem follows_renderLeaf (hQ : Separates Q) (text : String) (hp : p.Within Q)
    (hv : ∀ m c s, Evaluation.Visits registry ⟨maxDepth, text, p.keyed⟩ m c s →
      registry.Expanding c.reference → Q c.reference) :
    Follows Q ((renderLeaf registry text).run p)
      ((Session.renderLeaf registry text).run p.keyed) := by
  have hrun : (renderLeaf registry text).run p = renderLeaf registry text p := rfl
  have hrun' : (Session.renderLeaf registry text).run p.keyed =
      Session.renderLeaf registry text p.keyed := rfl
  rw [hrun, hrun', renderLeaf, Session.renderLeaf]
  by_cases hh : hasPlaceholder text = true
  · rw [if_pos hh, if_pos hh]
    obtain ⟨v, p', hpaired, hkeyed, hwithin⟩ := (follows_evaluate hQ maxDepth text hp hv).exists_eq
    rw [hpaired, hkeyed]
    cases v with
    | error e => exact hwithin.fail e
    | ok value => exact ⟨rfl, rfl, hwithin⟩
  · rw [if_neg hh, if_neg hh]
    exact ⟨rfl, rfl, hp⟩

/-- Rendering the texts of a thing comes to the same texts. -/
theorem follows_leaves (hQ : Separates Q) (texts : List String) (hp : p.Within Q)
    (hv : ∀ before t after, texts = before ++ t :: after → ∀ m c s,
      Evaluation.Visits registry ⟨maxDepth, t, renderTexts registry before p.keyed⟩ m c s →
        registry.Expanding c.reference → Q c.reference) :
    Follows Q (outputs (renderLeaf registry) texts p,
        texts.foldl (fun p t => ((renderLeaf registry t).run p).2) p)
      (outputs (Session.renderLeaf registry) texts p.keyed,
        renderTexts registry texts p.keyed) := by
  induction texts generalizing p with
  | nil => exact ⟨rfl, rfl, hp⟩
  | cons t rest ih =>
    obtain ⟨hvt, hst, hwt⟩ := follows_renderLeaf hQ t hp (hv [] t rest rfl)
    have hst' : (Session.renderText registry t p.keyed).2 =
        ((renderLeaf registry t).run p).2.keyed := by
      rw [← renderLeaf_state, hst]
    obtain ⟨hvr, hsr, hwr⟩ := ih hwt fun before t' after ht m c s hvis =>
      hv (t :: before) t' after (by rw [ht, List.cons_append]) m c s
        (by rwa [renderTexts, hst'])
    refine ⟨?_, ?_, hwr⟩
    · dsimp only [outputs] at hvr ⊢
      rw [hvt, hst, hvr]
    · dsimp only [renderTexts, List.foldl_cons] at hsr ⊢
      rw [hst', hsr]

end Paired

end Stencil.Template
