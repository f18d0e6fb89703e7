import Mathlib.Logic.Relation
import Stencil.Proofs.Template.Expansion

/-!
# Dependencies

A reference refers to the calls in the text that its function returns for it. It is bad if it leads
to a reference that fails by itself: its function refuses it, the text it is answered with does not
pass its checks, or it leads back to itself. So whether a reference is bad is read off the graph
alone, and nothing that a session has done enters into it.

A reference that comes to something is not bad: the depth at which it does falls with every step
through the graph.
-/

namespace Stencil.Template

variable {σ : Type}

/-- A reference and a call in the text that its function returns for it. -/
inductive Refers (registry : Registry σ) (world : σ) : Reference → Reference → Prop
  | intro {r f raw nodes c} : Table.get? r.name registry = some f → f.expands = true →
      (f.call r.args world).1 = .ok raw → registry.read raw = .ok nodes → .call c ∈ nodes →
      Refers registry world r c.reference

/-- A reference that fails by itself. -/
inductive Fails (registry : Registry σ) (world : σ) (r : Reference) : Prop
  | refused {f e} : Table.get? r.name registry = some f → (f.call r.args world).1 = .error e →
      Fails registry world r
  | unreadable {f raw e} : Table.get? r.name registry = some f → f.expands = true →
      (f.call r.args world).1 = .ok raw → registry.read raw = .error e → Fails registry world r
  | cyclic : Relation.TransGen (Refers registry world) r r → Fails registry world r

/-- A reference that leads to one that fails. -/
def Bad (registry : Registry σ) (world : σ) (r : Reference) : Prop :=
  ∃ q, Relation.ReflTransGen (Refers registry world) r q ∧ Fails registry world q

/-- A reference that comes to something where texts nest less than `n` deep. -/
def SettlesBelow (registry : Registry σ) (world : σ) (n : Nat) (r : Reference) : Prop :=
  ∃ v, Comes registry world (ExpandsBelow registry world n) r v

variable {registry : Registry σ} {world : σ}

theorem Bad.of_fails {r : Reference} (h : Fails registry world r) : Bad registry world r :=
  ⟨r, .refl, h⟩

/-- What refers to a bad reference is bad. -/
theorem Bad.of_refers {r q : Reference} (h : Refers registry world r q)
    (hq : Bad registry world q) : Bad registry world r := by
  obtain ⟨p, hp, hf⟩ := hq
  exact ⟨p, hp.head h, hf⟩

/-! ## Depths -/

/-- What settles below a depth settles below greater ones. -/
theorem SettlesBelow.mono {n m : Nat} (hnm : n ≤ m) {r : Reference}
    (h : SettlesBelow registry world n r) : SettlesBelow registry world m r := by
  obtain ⟨v, hv⟩ := h
  exact ⟨v, hv.mono fun _ _ => ExpandsBelow.mono hnm⟩

/-- What comes to something does so at some depth. -/
theorem Comes.settlesBelow {r : Reference} {v : String}
    (h : Comes registry world (Expands registry world) r v) :
    ∃ n, SettlesBelow registry world n r := by
  cases h with
  | plain hf hx hv => exact ⟨0, v, .plain hf hx hv⟩
  | expanding hf hx hraw hv =>
    obtain ⟨n, hn⟩ := hv.exists_below
    exact ⟨n, v, .expanding hf hx hraw hn⟩

/-- Every step through the graph is a step down. -/
theorem SettlesBelow.step {n : Nat} {r q : Reference} (h : SettlesBelow registry world n r)
    (hr : Refers registry world r q) : ∃ m < n, SettlesBelow registry world m q := by
  obtain ⟨v, hv⟩ := h
  obtain ⟨hf, hx, hraw, hread, hc⟩ := hr
  obtain ⟨raw', hraw', hv⟩ := hv.expanding_inv hf hx
  obtain rfl := Except.ok.inj (hraw.symm.trans hraw')
  cases n with
  | zero => exact hv.elim
  | succ n =>
    obtain ⟨nodes, hread', hw⟩ := hv
    obtain rfl := Except.ok.inj (hread.symm.trans hread')
    exact ⟨n, Nat.lt_succ_self n, hw.comes hc⟩

/-- What a reference that settles leads to settles no deeper. -/
theorem SettlesBelow.path {n : Nat} {r q : Reference} (h : SettlesBelow registry world n r)
    (hr : Relation.ReflTransGen (Refers registry world) r q) :
    ∃ m ≤ n, SettlesBelow registry world m q := by
  induction hr with
  | refl => exact ⟨n, Nat.le_refl n, h⟩
  | tail _ hs ih =>
    obtain ⟨m, hm, hq⟩ := ih
    obtain ⟨k, hk, hq⟩ := hq.step hs
    exact ⟨k, Nat.le_trans (Nat.le_of_lt hk) hm, hq⟩

/-- Nothing that settles leads back to itself. -/
theorem SettlesBelow.acyclic {n : Nat} {r : Reference} (h : SettlesBelow registry world n r) :
    ¬ Relation.TransGen (Refers registry world) r r := by
  intro hc
  -- A round trip settles at a smaller depth, so the least depth admits none.
  induction n using Nat.strongRecOn with
  | ind n ih =>
    obtain ⟨q, hs, hq⟩ := Relation.TransGen.head'_iff.1 hc
    obtain ⟨m, hm, hsq⟩ := h.step hs
    obtain ⟨k, hk, hsr⟩ := hsq.path hq
    exact ih k (Nat.lt_of_le_of_lt hk hm) hsr

/-! ## What comes to something is not bad -/

/-- A reference that settles does not fail by itself. -/
theorem SettlesBelow.not_fails {n : Nat} {r : Reference} (h : SettlesBelow registry world n r) :
    ¬ Fails registry world r := by
  intro hfail
  have hacyclic := h.acyclic
  obtain ⟨v, hv⟩ := h
  cases hfail with
  | refused hf he =>
    obtain ⟨raw, hraw⟩ := hv.exists_ok hf
    rw [he] at hraw
    cases hraw
  | unreadable hf hx hraw hread =>
    obtain ⟨raw', hraw', hv⟩ := hv.expanding_inv hf hx
    obtain rfl := Except.ok.inj (hraw.symm.trans hraw')
    cases n with
    | zero => exact hv
    | succ n =>
      obtain ⟨nodes, hread', _⟩ := hv
      rw [hread] at hread'
      cases hread'
  | cyclic hc => exact hacyclic hc

/-- A reference that comes to something is not bad. -/
theorem Comes.not_bad {r : Reference} {v : String}
    (h : Comes registry world (Expands registry world) r v) : ¬ Bad registry world r := by
  rintro ⟨q, hq, hfail⟩
  obtain ⟨n, hn⟩ := h.settlesBelow
  obtain ⟨m, _, hm⟩ := hn.path hq
  exact hm.not_fails hfail

end Stencil.Template
