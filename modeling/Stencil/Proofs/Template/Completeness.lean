import Mathlib.Data.Nat.Find
import Stencil.Proofs.Template.Soundness

/-!
# Complete sessions

A text that comes to something with no more nesting than there is headroom is evaluated to just
that, without an error. The invariant is that no key in flight belongs to a reference that settles
at the depth at hand, so no call that has to be made is ever taken for a cycle.
-/

namespace Stencil.Template

variable {σ : Type}

open Session

/-- A sound session that has seen no error. -/
structure Clear (registry : Registry σ) (P : σ → Prop) (world : σ) (s : Session σ) : Prop
    extends Sound registry P world s where
  errors : s.errors = []
  outcomes : ∀ o ∈ s.memo.outcomes, o.2.error = none

/-- No key in flight belongs to a reference that settles where texts nest less than `n` deep. -/
def Unsettled (registry : Registry σ) (world : σ) (n : Nat) (keys : List CallKey) : Prop :=
  ∀ r, registry.Expanding r → r.key ∈ keys → ¬ SettlesBelow registry world n r

/-- Every text that comes to something where expanding calls nest at most `n` deep is evaluated to
it, with at least that much headroom. -/
def Complete (registry : Registry σ) (P : σ → Prop) (world : σ) (n : Nat) : Prop :=
  ∀ {h text out s}, n ≤ h → ExpandsWithin registry world n text out → Clear registry P world s →
    Unsettled registry world n s.memo.inFlight →
    ∃ s', evaluate registry h text s = (.ok out, s') ∧ Clear registry P world s'

variable {registry : Registry σ} {P : σ → Prop} {world : σ}

/-! ## Single steps -/

namespace Clear

variable {s : Session σ}

theorem start (hs : registry.Steady (fun _ => True) P world) :
    Clear registry P world (Session.start world) :=
  ⟨.start hs, rfl, by simp [Session.start, Memo.empty]⟩

/-- Running a function keeps a session clear. -/
theorem run (hs : registry.Steady (fun _ => True) P world) (h : Clear registry P world s)
    {name : String} {f : Function σ} (hf : Table.get? name registry = some f)
    (args : List String) : Clear registry P world (s.run f args).2 :=
  ⟨h.toSound.run hs hf args, h.errors, h.outcomes⟩

/-- Launching a call keeps a session clear. -/
theorem launched (hs : registry.Steady (fun _ => True) P world) (h : Clear registry P world s)
    {c : Call} {f : Function σ} (hf : Table.get? c.name registry = some f) :
    Clear registry P world (s.launched c f) :=
  ⟨h.toSound.launched hs hf, h.errors, h.outcomes⟩

/-- Ending a call with what it comes to keeps a session clear. -/
theorem complete (hk : registry.Keyed) (h : Clear registry P world s) {c : Call}
    (hc : registry.Expanding c.reference) {v : String}
    (hv : Comes registry world (Expands registry world) c.reference v) :
    Clear registry P world (s.complete c.key v none).2 := by
  refine ⟨h.toSound.complete hk hc fun _ => hv, h.errors, fun o ho => ?_⟩
  rw [complete_memo, Memo.finish, List.mem_cons] at ho
  rcases ho with rfl | ho
  · rfl
  · exact h.outcomes o ho

end Clear

/-- What settles does so at a least depth. -/
theorem SettlesBelow.exists_least {n : Nat} {r : Reference} (h : SettlesBelow registry world n r) :
    ∃ k ≤ n, SettlesBelow registry world k r ∧ ∀ j < k, ¬ SettlesBelow registry world j r := by
  classical
  have hex : ∃ k, SettlesBelow registry world k r := ⟨n, h⟩
  exact ⟨Nat.find hex, Nat.find_min' hex h, Nat.find_spec hex, fun j hj => Nat.find_min hex hj⟩

/-- The text behind a reference that settles comes to its value at a depth at which the keys in
flight are still unsettled, its own key among them. -/
theorem Unsettled.descend (hk : registry.Keyed) {r : Reference} (hr : registry.Expanding r)
    {n : Nat} {v : String} (hv : Comes registry world (ExpandsBelow registry world n) r v)
    {keys : List CallKey} (hg : Unsettled registry world n keys) {f : Function σ}
    (hf : Table.get? r.name registry = some f) (hx : f.expands = true) :
    ∃ k < n, ∃ raw, (f.call r.args world).1 = .ok raw ∧ ExpandsWithin registry world k raw v ∧
      Unsettled registry world k (r.key :: keys) := by
  obtain ⟨k, hkn, ⟨v', hv'⟩, hleast⟩ := SettlesBelow.exists_least ⟨v, hv⟩
  obtain rfl := hv.of_below.value_unique hv'.of_below
  obtain ⟨raw, hraw, hexp⟩ := hv'.expanding_inv hf hx
  cases k with
  | zero => exact hexp.elim
  | succ k =>
    refine ⟨k, hkn, raw, hraw, hexp, fun q hq hmem => ?_⟩
    -- The reference is unsettled below its least depth, the others even above it.
    rcases List.mem_cons.1 hmem with he | hmem
    · obtain rfl := hk q r hq hr he
      exact hleast k (Nat.lt_succ_self k)
    · exact fun hset => hg q hq hmem (hset.mono (Nat.le_of_lt hkn))

/-! ## Calls -/

/-- A call that comes to something is made as it should be if what it returns is evaluated so. -/
theorem invokeAt_complete (hk : registry.Keyed) (hs : registry.Steady (fun _ => True) P world)
    {n h : Nat} (ih : ∀ k < n, Complete registry P world k) (hn : n ≤ h) {c : Call} {v : String}
    {s : Session σ} (hacc : registry.Accepts c.reference)
    (hv : Comes registry world (ExpandsBelow registry world n) c.reference v)
    (hc : Clear registry P world s) (hg : Unsettled registry world n s.memo.inFlight) :
    ∃ s', invokeAt registry h c s = (v, s') ∧ Clear registry P world s' := by
  have hm := makes_invokeAt registry h c s
  generalize invokeAt registry h c s = r at hm ⊢
  cases hm with
  | unknown hf =>
    obtain ⟨f, hf'⟩ := hv.exists_found
    rw [Call.reference, hf] at hf'
    cases hf'
  | plain hf hx hv' =>
    rw [hs.answers hc.holds trivial hf] at hv'
    obtain rfl := Except.ok.inj ((hv.plain_inv hf hx).symm.trans hv')
    exact ⟨_, rfl, hc.run hs hf _⟩
  | plainFailed hf hx he =>
    rw [hs.answers hc.holds trivial hf] at he
    cases (hv.plain_inv hf hx).symm.trans he
  | @reused f o hf hx hl =>
    have hmem := Memo.mem_of_lookup hl
    obtain ⟨v', error⟩ := o
    obtain rfl : error = none := hc.outcomes _ hmem
    have hv' := hc.clean c.reference v' (hacc.expanding hf hx) hmem
    obtain rfl := hv.of_below.value_unique hv'
    exact ⟨_, rfl, by simpa [replay] using hc⟩
  | skipped _ _ _ ha =>
    rw [hc.errors] at ha
    simp at ha
  | tooDeep hf hx _ _ h0 =>
    -- Without headroom nothing below depth zero is left for the text to settle at.
    obtain ⟨raw, _, hexp⟩ := hv.expanding_inv hf hx
    obtain rfl : n = 0 := by omega
    exact hexp.elim
  | cyclic hf hx _ _ _ hkey =>
    -- Keys in flight are unsettled at this depth, and the reference settles.
    exact absurd ⟨v, hv⟩ (hg _ (hacc.expanding hf hx) hkey)
  | failed ho _ he =>
    obtain ⟨raw, hraw⟩ := hv.exists_ok ho.found
    rw [hs.answers hc.holds trivial ho.found] at he
    cases hraw.symm.trans he
  | rejected ho _ hraw hread =>
    have hx := hacc.expanding ho.found ho.expands
    obtain ⟨k, _, raw', hraw', ⟨_, hread', _⟩, _⟩ := hg.descend hk hx hv ho.found ho.expands
    rw [hs.answers hc.holds trivial ho.found] at hraw
    obtain rfl := Except.ok.inj (hraw'.symm.trans hraw)
    cases hread'.symm.trans hread
  | @expanded f raw v' m s' ho hm hraw he =>
    have hx := hacc.expanding ho.found ho.expands
    obtain ⟨k, hkn, raw', hraw', hexp, hg'⟩ := hg.descend hk hx hv ho.found ho.expands
    rw [hs.answers hc.holds trivial ho.found] at hraw
    obtain rfl := Except.ok.inj (hraw'.symm.trans hraw)
    obtain ⟨s'', he', hc'⟩ := ih k hkn (show k ≤ m by omega) hexp (hc.launched hs ho.found) hg'
    rw [he', Prod.mk.injEq, Except.ok.injEq] at he
    obtain ⟨rfl, rfl⟩ := he
    rw [hc'.errors, List.getElem?_nil]
    exact ⟨_, rfl, hc'.complete hk hx hv.of_below⟩

/-- Nodes are written as they should be if every call among them is made as it should be. -/
theorem writeNodes_complete {n h : Nat} {nodes : List Node} {out : String} {s : Session σ}
    (hcall : ∀ c v s', Node.call c ∈ nodes → s'.memo.inFlight = s.memo.inFlight →
      Comes registry world (ExpandsBelow registry world n) c.reference v →
      Clear registry P world s' →
        ∃ s'', invokeAt registry h c s' = (v, s'') ∧ Clear registry P world s'')
    (hw : Writes registry world (ExpandsBelow registry world n) nodes out)
    (hs : Clear registry P world s) :
    String.join (writeNodes (invokeAt registry h) nodes s).1 = out ∧
      Clear registry P world (writeNodes (invokeAt registry h) nodes s).2 := by
  induction nodes generalizing out s with
  | nil =>
    cases hw
    exact ⟨rfl, hs⟩
  | cons node rest ih =>
    have hrest := fun c v s' hc => hcall c v s' (List.mem_cons_of_mem node hc)
    cases node with
    | text t =>
      cases hw with
      | text hw =>
        obtain ⟨hj, hc⟩ := ih hrest hw hs
        exact ⟨by rw [writeNodes, String.join_cons, hj], hc⟩
    | literal t =>
      cases hw with
      | literal hw =>
        obtain ⟨hj, hc⟩ := ih hrest hw hs
        exact ⟨by rw [writeNodes, String.join_cons, hj], hc⟩
    | call c =>
      obtain ⟨v, out', rfl, hcv, hw'⟩ := hw.call_inv
      obtain ⟨s', he, hs'⟩ := hcall c v s List.mem_cons_self rfl hcv hs
      -- The nodes after the call find the same keys in flight as those before it.
      have hfly : s'.memo.inFlight = s.memo.inFlight := by
        have := (extends_invokeAt registry h c s).inFlight
        rwa [he] at this
      rw [writeNodes, he, String.join_cons]
      obtain ⟨hj, hc⟩ := ih (fun c v s'' hc hf => hrest c v s'' hc (hf.trans hfly)) hw' hs'
      exact ⟨by rw [hj], hc⟩

/-! ## Evaluations -/

/-- A text that comes to something with no more nesting than there is headroom is evaluated to
it. -/
theorem complete (hk : registry.Keyed) (hs : registry.Steady (fun _ => True) P world) (n : Nat) :
    Complete registry P world n := by
  -- The induction is on the depth at which texts settle, not on the headroom.
  induction n using Nat.strongRecOn with
  | ind n ih =>
    intro h text out s hn he hc hg
    obtain ⟨nodes, hread, hw⟩ := he
    have hwritten := writeNodes_complete (h := h) (fun c v s' hmem hfly hv hs' =>
      invokeAt_complete hk hs ih hn (Registry.accepts_of_read hread hmem) hv hs'
        (by rwa [hfly])) hw hc
    rw [evaluate_of_read_ok hread, hwritten.1]
    exact ⟨_, rfl, hwritten.2⟩

end Stencil.Template
