import Stencil.Proofs.Template.Likeness
import Stencil.Template.Standard

/-!
# Checks before calls

A text is checked as a whole before anything in it runs. A fault anywhere in it, in its words or in
one of its calls, is found before the first call is made, and the session stays as it was. Where
there is none, every call that is made has a function that takes its arguments; so it makes no
difference what functions would do with other arguments.
-/

namespace Stencil.Template

variable {σ : Type} {registry : Registry σ}

open Session

/-! ## Faults -/

/-- A text that does not parse, or in which some call is not accepted. -/
inductive Faulty (registry : Registry σ) (text : String) : Prop
  | malformed {e} : parse text = .error e → Faulty registry text
  | refused {nodes c} : parse text = .ok nodes → .call c ∈ nodes →
      ¬ registry.Accepts c.reference → Faulty registry text

/-- A text that does not parse is known to before anything runs. -/
theorem isStatic_of_parseFrom {line : Nat} {trims : Bool} {cs : List Char} {e : Error}
    (h : parseFrom line trims cs = .error e) : e.isStatic = true := by
  fun_induction parseFrom line trims cs with
  | case1 => cases h
  | case2 =>
    cases h
    rfl
  | case3 line trims cs body hs here a ha passed ih =>
    generalize parseFrom (here + lineEnds passed) a.trimsRight a.rest = r at h ih
    cases r with
    | error e' =>
      cases h
      exact ih rfl
    | ok nodes => cases h

/-- A call that is not accepted is known to be before anything runs. -/
theorem Registry.isStatic_of_check {name : String} {count : Nat} {e : Error}
    (h : registry.check name count = .error e) : e.isStatic = true := by
  unfold check at h
  split at h
  · cases h
    rfl
  · split at h <;> cases h
    rfl

/-- Calls of which one is not accepted are known to be before anything runs. -/
theorem Registry.isStatic_of_checkNodes {nodes : List Node} {e : Error}
    (h : registry.checkNodes nodes = .error e) : e.isStatic = true := by
  induction nodes with
  | nil => cases h
  | cons node rest ih =>
    cases node with
    | text t => exact ih h
    | literal t => exact ih h
    | call c =>
      rw [checkNodes] at h
      split at h
      · rename_i e' hc
        cases h
        exact isStatic_of_check hc
      · exact ih h

/-- A faulty text is known to be before anything runs. -/
theorem Registry.isStatic_of_read {text : String} {e : Error}
    (h : registry.read text = .error e) : e.isStatic = true := by
  unfold read at h
  split at h
  · rename_i e' hp
    cases h
    exact isStatic_of_parseFrom hp
  · rename_i nodes hp
    cases hk : registry.checkNodes nodes with
    | error e' =>
      rw [hk] at h
      cases h
      exact isStatic_of_checkNodes hk
    | ok u =>
      rw [hk] at h
      cases h

/-- A text is rejected if there is a fault anywhere in it. -/
theorem Registry.read_eq_error_iff {text : String} :
    (∃ e, registry.read text = .error e) ↔ Faulty registry text := by
  unfold read
  constructor
  · rintro ⟨e, h⟩
    split at h
    · rename_i e' hp
      exact .malformed hp
    · rename_i nodes hp
      by_contra hf
      have hall : ∀ c, .call c ∈ nodes → registry.Accepts c.reference := fun c hc =>
        by_contra fun ha => hf (.refused hp hc ha)
      rw [checkNodes_eq_ok_iff.2 hall] at h
      cases h
  · rintro (⟨hp⟩ | ⟨hp, hc, ha⟩)
    · rw [hp]
      exact ⟨_, rfl⟩
    · rename_i nodes c
      rw [hp]
      dsimp only
      cases hk : registry.checkNodes nodes with
      | error e => exact ⟨e, rfl⟩
      | ok u => exact absurd (checkNodes_eq_ok_iff.1 hk c hc) ha

/-! ## Evaluations -/

/-- A text that is rejected makes no calls. -/
theorem Evaluation.not_visits_of_read_error {e : Evaluation σ} {err : Error}
    (h : registry.read e.text = .error err) (n : Nat) (c : Call) (s : Session σ) :
    ¬ e.Visits registry n c s := by
  have hcalls : ∀ c s, ¬ e.Calls registry c s := by
    rintro c s ⟨nodes, hread, -⟩
    rw [h] at hread
    cases hread
  rintro ⟨e', hn, -, hc⟩
  rcases Relation.ReflTransGen.cases_head hn with rfl | ⟨e'', hfirst, -⟩
  · exact hcalls c s hc
  · obtain ⟨hc', -⟩ := hfirst
    exact hcalls _ _ hc'

/-- Registries whose functions differ in nothing but what they do with numbers of arguments that
they do not accept. -/
abbrev Registry.SameWhereAccepted (registry' registry : Registry σ) : Prop :=
  Registry.Like Eq registry' registry

/-- How an evaluation is settled before anything in it runs. -/
structure ChecksFirst (registry : Registry σ) (e : Evaluation σ) : Prop where
  /-- A text with a fault anywhere is rejected with an error that is known before any function
  runs: no call is made, and the session stays as it was. -/
  rejects : Faulty registry e.text → (∀ n c s, ¬ e.Visits registry n c s) ∧
    ∃ err, err.isStatic = true ∧ e.result registry = (.error err, e.session)
  /-- Any other text comes to a value. -/
  evaluates : ¬ Faulty registry e.text → ∃ v, (e.result registry).1 = .ok v
  /-- Every call that is made, at any depth, has a function that accepts its number of
  arguments. -/
  calls : ∀ n c s, e.Visits registry n c s →
    ∃ f, Table.get? c.name registry = some f ∧ f.arity.accepts c.args.length = true
  /-- What functions do with any other number of arguments makes no difference. -/
  unseen : ∀ registry' : Registry σ, registry'.SameWhereAccepted registry →
    e.result registry' = e.result registry

/-- Every evaluation reads and checks its text before anything in it runs. -/
theorem checksFirst (registry : Registry σ) (e : Evaluation σ) : ChecksFirst registry e where
  rejects hf := by
    obtain ⟨err, hread⟩ := Registry.read_eq_error_iff.2 hf
    refine ⟨e.not_visits_of_read_error hread, err, Registry.isStatic_of_read hread, ?_⟩
    rw [Evaluation.result, evaluate_of_read_error hread]
  evaluates hf := by
    cases hread : registry.read e.text with
    | error err => exact absurd (Registry.read_eq_error_iff.1 ⟨err, hread⟩) hf
    | ok nodes =>
      rw [Evaluation.result, evaluate_of_read_ok hread]
      exact ⟨_, rfl⟩
  calls n c s hv := Registry.accepts_iff.1 hv.accepts
  unseen registry' h := by
    obtain ⟨hv, hs⟩ := alike_evaluate h e.headroom e.text e.session e.session ⟨rfl, rfl, rfl⟩
    exact Prod.ext hv hs.eq

/-! ## The standard functions -/

/-- Of the standard functions, those that look something up or register a file take one argument. -/
theorem Registry.exists_argument_of_standard {around : Surroundings σ} {ns : Namespace}
    {r : Reference} (h : (Registry.standard around ns).Accepts r)
    (hname : r.name ∈ ["cfg", "var", "env", "upload"]) : ∃ x, r.args = [x] := by
  obtain ⟨f, hf, ha⟩ := accepts_iff.1 h
  rw [← List.length_eq_one_iff]
  rcases get?_standard hf with h | h | h | h | h | h | h <;> rw [h.1] at hname <;>
    rw [h.2] at ha <;> first
    | simpa [Arity.accepts, Function.lookup, Function.upload] using ha
    | exact absurd hname (by decide)

/-- Every text is checked before anything in it runs, so no function is given a number of arguments
that it does not accept; those of the standard functions that look at their first argument have
one. -/
theorem checked_before_called (registry : Registry σ) (around : Surroundings σ) (ns : Namespace) :
    (∀ e, ChecksFirst registry e) ∧
      ∀ e n c s, Evaluation.Visits (.standard around ns) e n c s →
        c.name ∈ ["cfg", "var", "env", "upload"] → ∃ x, c.args = [x] :=
  ⟨checksFirst registry, fun _ _ _ _ hv => Registry.exists_argument_of_standard hv.accepts⟩

end Stencil.Template
