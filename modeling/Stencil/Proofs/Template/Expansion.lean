import Stencil.Proofs.Template.Reference

/-!
# What templates mean

`Expands` says what a text comes to where every function answers as it does in some surroundings,
with no memo, no keys in flight and no bound: the parts of the text one after the other, and for a
call that expands what its result comes to in turn. `ExpandsWithin` is the same with a bound on how
deep such calls nest. A text comes to one thing at most.
-/

namespace Stencil.Template

variable {σ : Type}

/-- What nodes are written as, where results of calls come to what `expand` says. -/
inductive Writes (registry : Registry σ) (world : σ) (expand : String → String → Prop) :
    List Node → String → Prop
  | nil : Writes registry world expand [] ""
  | text {t rest out} : Writes registry world expand rest out →
      Writes registry world expand (.text t :: rest) (t ++ out)
  | literal {t rest out} : Writes registry world expand rest out →
      Writes registry world expand (.literal t :: rest) (t ++ out)
  | plain {c f v rest out} : Table.get? c.name registry = some f → f.expands = false →
      (f.call c.args world).1 = .ok v → Writes registry world expand rest out →
      Writes registry world expand (.call c :: rest) (v ++ out)
  | expanding {c f raw v rest out} : Table.get? c.name registry = some f → f.expands = true →
      (f.call c.args world).1 = .ok raw → expand raw v → Writes registry world expand rest out →
      Writes registry world expand (.call c :: rest) (v ++ out)

/-- What a text comes to: it parses, all its calls are accepted, and its parts are written one after
the other. -/
inductive Expands (registry : Registry σ) (world : σ) : String → String → Prop
  | intro {text nodes out} : registry.read text = .ok nodes →
      Writes registry world (Expands registry world) nodes out → Expands registry world text out

/-- What a text comes to where texts nest less than `n` deep. -/
def ExpandsBelow (registry : Registry σ) (world : σ) : Nat → String → String → Prop
  | 0, _, _ => False
  | n + 1, text, out => ∃ nodes, registry.read text = .ok nodes ∧
      Writes registry world (ExpandsBelow registry world n) nodes out

/-- What a text comes to where expanding calls nest at most `n` deep. -/
def ExpandsWithin (registry : Registry σ) (world : σ) (n : Nat) : String → String → Prop :=
  ExpandsBelow registry world (n + 1)

/-- What a reference comes to, where its result comes to what `expand` says. -/
inductive Comes (registry : Registry σ) (world : σ) (expand : String → String → Prop)
    (r : Reference) (v : String) : Prop
  | plain {f} : Table.get? r.name registry = some f → f.expands = false →
      (f.call r.args world).1 = .ok v → Comes registry world expand r v
  | expanding {f raw} : Table.get? r.name registry = some f → f.expands = true →
      (f.call r.args world).1 = .ok raw → expand raw v → Comes registry world expand r v

variable {registry : Registry σ} {world : σ} {expand expand' : String → String → Prop}

/-! ## Single calls -/

/-- A call before other nodes is written as what it comes to. -/
theorem Writes.call {c : Call} {v out : String} {rest : List Node}
    (h : Comes registry world expand c.reference v) (hr : Writes registry world expand rest out) :
    Writes registry world expand (.call c :: rest) (v ++ out) := by
  cases h with
  | plain hf hx hv => exact .plain hf hx hv hr
  | expanding hf hx hraw hv => exact .expanding hf hx hraw hv hr

/-- What a call and other nodes are written as starts with what the call comes to. -/
theorem Writes.call_inv {c : Call} {out : String} {rest : List Node}
    (h : Writes registry world expand (.call c :: rest) out) :
    ∃ v out', out = v ++ out' ∧ Comes registry world expand c.reference v ∧
      Writes registry world expand rest out' := by
  cases h with
  | plain hf hx hv hr => exact ⟨_, _, rfl, .plain hf hx hv, hr⟩
  | expanding hf hx hraw hv hr => exact ⟨_, _, rfl, .expanding hf hx hraw hv, hr⟩

/-- A reference that comes to something is one to a function that is there. -/
theorem Comes.exists_found {r : Reference} {v : String} (h : Comes registry world expand r v) :
    ∃ f, Table.get? r.name registry = some f := by
  cases h with
  | plain hf _ _ => exact ⟨_, hf⟩
  | expanding hf _ _ _ => exact ⟨_, hf⟩

/-- A function that does not expand comes to what it returns. -/
theorem Comes.plain_inv {r : Reference} {v : String} {f : Function σ}
    (h : Comes registry world expand r v) (hf : Table.get? r.name registry = some f)
    (hx : f.expands = false) : (f.call r.args world).1 = .ok v := by
  rcases h with ⟨hf', _, hv⟩ | ⟨hf', hx', _, _⟩ <;>
    obtain rfl := Option.some.inj (hf.symm.trans hf')
  · exact hv
  · rw [hx] at hx'
    cases hx'

/-- A function that expands comes to what its result does. -/
theorem Comes.expanding_inv {r : Reference} {v : String} {f : Function σ}
    (h : Comes registry world expand r v) (hf : Table.get? r.name registry = some f)
    (hx : f.expands = true) : ∃ raw, (f.call r.args world).1 = .ok raw ∧ expand raw v := by
  rcases h with ⟨hf', hx', _⟩ | ⟨hf', _, hraw, hv⟩ <;>
    obtain rfl := Option.some.inj (hf.symm.trans hf')
  · rw [hx] at hx'
    cases hx'
  · exact ⟨_, hraw, hv⟩

/-- What a function is asked for by a reference that comes to something, it answers. -/
theorem Comes.exists_ok {r : Reference} {v : String} {f : Function σ}
    (h : Comes registry world expand r v) (hf : Table.get? r.name registry = some f) :
    ∃ raw, (f.call r.args world).1 = .ok raw := by
  by_cases hx : f.expands = true
  · obtain ⟨raw, hraw, _⟩ := h.expanding_inv hf hx
    exact ⟨raw, hraw⟩
  · exact ⟨v, h.plain_inv hf (Bool.eq_false_iff.2 hx)⟩

/-- What references come to may be said of more results. -/
theorem Comes.mono (hsub : ∀ t v, expand t v → expand' t v) {r : Reference} {v : String}
    (h : Comes registry world expand r v) : Comes registry world expand' r v := by
  cases h with
  | plain hf hx hv => exact .plain hf hx hv
  | expanding hf hx hraw hv => exact .expanding hf hx hraw (hsub _ _ hv)

/-- What nodes are written as may be said of more results. -/
theorem Writes.mono (hsub : ∀ t v, expand t v → expand' t v) {nodes : List Node} {out : String}
    (h : Writes registry world expand nodes out) : Writes registry world expand' nodes out := by
  induction h with
  | nil => exact .nil
  | text _ ih => exact .text ih
  | literal _ ih => exact .literal ih
  | plain hf hx hv _ ih => exact .plain hf hx hv ih
  | expanding hf hx hraw hv _ ih => exact .expanding hf hx hraw (hsub _ _ hv) ih

/-- Every call among nodes that are written comes to something. -/
theorem Writes.comes {nodes : List Node} {out : String}
    (h : Writes registry world expand nodes out) {c : Call} (hc : .call c ∈ nodes) :
    ∃ v, Comes registry world expand c.reference v := by
  induction h with
  | nil => cases hc
  | text _ ih => exact ih (by simpa using hc)
  | literal _ ih => exact ih (by simpa using hc)
  | plain hf hx hv _ ih =>
    rcases List.mem_cons.1 hc with he | hc
    · cases he
      exact ⟨_, .plain hf hx hv⟩
    · exact ih hc
  | expanding hf hx hraw hv _ ih =>
    rcases List.mem_cons.1 hc with he | hc
    · cases he
      exact ⟨_, .expanding hf hx hraw hv⟩
    · exact ih hc

/-! ## A text comes to one thing at most -/

/-- A reference comes to one thing if its result does. -/
theorem Comes.unique (hu : ∀ t v v', expand t v → expand' t v' → v = v') {r : Reference}
    {v v' : String} (h : Comes registry world expand r v) (h' : Comes registry world expand' r v') :
    v = v' := by
  cases h with
  | plain hf hx hv => exact Except.ok.inj (hv.symm.trans (h'.plain_inv hf hx))
  | expanding hf hx hraw hv =>
    obtain ⟨raw', hraw', hv'⟩ := h'.expanding_inv hf hx
    obtain rfl := Except.ok.inj (hraw.symm.trans hraw')
    exact hu _ _ _ hv hv'

/-- Nodes are written as one text if results come to one. -/
theorem Writes.unique (hu : ∀ t v v', expand t v → expand' t v' → v = v') {nodes : List Node}
    {out out' : String} (h : Writes registry world expand nodes out)
    (h' : Writes registry world expand' nodes out') : out = out' := by
  induction nodes generalizing out out' with
  | nil =>
    cases h
    cases h'
    rfl
  | cons node rest ih =>
    cases node with
    | text t =>
      cases h with | text h => cases h' with | text h' => rw [ih h h']
    | literal t =>
      cases h with | literal h => cases h' with | literal h' => rw [ih h h']
    | call c =>
      obtain ⟨v, o, rfl, hc, hr⟩ := h.call_inv
      obtain ⟨v', o', rfl, hc', hr'⟩ := h'.call_inv
      rw [hc.unique hu hc', ih hr hr']

/-- A text comes to the same at all depths. -/
theorem ExpandsBelow.unique {n m : Nat} {text out out' : String}
    (h : ExpandsBelow registry world n text out) (h' : ExpandsBelow registry world m text out') :
    out = out' := by
  induction n generalizing m text out out' with
  | zero => exact h.elim
  | succ n ih =>
    cases m with
    | zero => exact h'.elim
    | succ m =>
      obtain ⟨nodes, hread, hw⟩ := h
      obtain ⟨nodes', hread', hw'⟩ := h'
      obtain rfl := Except.ok.inj (hread.symm.trans hread')
      have hu : ∀ t v v', ExpandsBelow registry world n t v → ExpandsBelow registry world m t v' →
          v = v' := fun _ _ _ => ih
      exact hw.unique hu hw'

/-- A text comes to the same one level deeper. -/
theorem ExpandsBelow.succ {n : Nat} {text out : String}
    (h : ExpandsBelow registry world n text out) :
    ExpandsBelow registry world (n + 1) text out := by
  induction n generalizing text out with
  | zero => exact h.elim
  | succ n ih =>
    obtain ⟨nodes, hread, hw⟩ := h
    exact ⟨nodes, hread, hw.mono fun _ _ => ih⟩

/-- A text comes to the same at greater depths. -/
theorem ExpandsBelow.mono {n m : Nat} (hnm : n ≤ m) {text out : String}
    (h : ExpandsBelow registry world n text out) : ExpandsBelow registry world m text out := by
  induction hnm with
  | refl => exact h
  | step _ ih => exact ih.succ

/-! ## Bounded and unbounded meaning -/

/-- What a text comes to at some depth it comes to. -/
theorem ExpandsBelow.expands {n : Nat} {text out : String}
    (h : ExpandsBelow registry world n text out) : Expands registry world text out := by
  induction n generalizing text out with
  | zero => exact h.elim
  | succ n ih =>
    obtain ⟨nodes, hread, hw⟩ := h
    exact .intro hread (hw.mono fun _ _ => ih)

/-- A text that comes to something does so at some depth. -/
theorem Expands.exists_below {text out : String} (h : Expands registry world text out) :
    ∃ n, ExpandsBelow registry world n text out := by
  -- The induction is on the derivation, nodes and nested texts together.
  refine @Expands.rec σ registry world
    (fun text out _ => ∃ n, ExpandsBelow registry world n text out)
    (fun nodes out _ => ∃ n, Writes registry world (ExpandsBelow registry world n) nodes out)
    ?_ ?_ ?_ ?_ ?_ ?_ _ _ h
  · rintro text nodes out hread _ ⟨n, hn⟩
    exact ⟨n + 1, nodes, hread, hn⟩
  · exact ⟨0, .nil⟩
  · rintro t rest out _ ⟨n, hn⟩
    exact ⟨n, .text hn⟩
  · rintro t rest out _ ⟨n, hn⟩
    exact ⟨n, .literal hn⟩
  · rintro c f v rest out hf hx hv _ ⟨n, hn⟩
    exact ⟨n, .plain hf hx hv hn⟩
  · rintro c f raw v rest out hf hx hraw _ _ ⟨m, hm⟩ ⟨n, hn⟩
    refine ⟨max m n, .expanding hf hx hraw (hm.mono (Nat.le_max_left m n)) ?_⟩
    exact hn.mono fun _ _ => ExpandsBelow.mono (Nat.le_max_right m n)

/-- A text comes to one thing at most. -/
theorem Expands.unique {text out out' : String} (h : Expands registry world text out)
    (h' : Expands registry world text out') : out = out' := by
  obtain ⟨n, hn⟩ := h.exists_below
  obtain ⟨m, hm⟩ := h'.exists_below
  exact hn.unique hm

/-- What a reference comes to at some depth it comes to. -/
theorem Comes.of_below {n : Nat} {r : Reference} {v : String}
    (h : Comes registry world (ExpandsBelow registry world n) r v) :
    Comes registry world (Expands registry world) r v :=
  h.mono fun _ _ => ExpandsBelow.expands

/-- A reference comes to one thing at most. -/
theorem Comes.value_unique {r : Reference} {v v' : String}
    (h : Comes registry world (Expands registry world) r v)
    (h' : Comes registry world (Expands registry world) r v') : v = v' :=
  have hu : ∀ t w w', Expands registry world t w → Expands registry world t w' → w = w' :=
    fun _ _ _ => Expands.unique
  h.unique hu h'

/-! ## The standard functions -/

section

variable (answer : Domain → String → Except Error String)
  (register : String → σ → Except Error String × σ) (ns : Namespace) (world : σ)

/-- What the standard functions that expand return for a reference. -/
inductive Returns : Reference → String → Prop
  | config {args raw} : answer .config (Function.first args) = .ok raw → Returns ⟨"cfg", args⟩ raw
  | values {args raw} : answer .values (Function.first args) = .ok raw → Returns ⟨"var", args⟩ raw
  | environment {args raw} : answer .environment (Function.first args) = .ok raw →
      Returns ⟨"env", args⟩ raw
  | upload {args raw} : (register (Function.first args) world).1 = .ok raw →
      Returns ⟨"upload", args⟩ raw
  | id {args} : Returns ⟨"id", args⟩ ns.id.text
  | uploadPrefix {args} : Returns ⟨"prefix", args⟩ ns.uploadPrefix.text

/-- A reference to a standard function comes to an identifier of its arguments if it is to `hash`,
and else to what the answer comes to. -/
theorem comes_answering {expand : String → String → Prop} {r : Reference} {v : String} :
    Comes (.answering answer register ns) world expand r v ↔
      (r.name = "hash" ∧ v = (ns.hash r.args).text) ∨
        ∃ raw, Returns answer register ns world r raw ∧ expand raw v := by
  obtain ⟨name, args⟩ := r
  constructor
  · rintro (⟨hf, hx, hv⟩ | ⟨hf, hx, hraw, hv⟩)
    · rcases Registry.get?_standard hf with h | h | h | h | h | h | h <;> obtain ⟨rfl, rfl⟩ := h
      all_goals try cases hx
      exact .inl ⟨rfl, (Except.ok.inj hv).symm⟩
    · refine .inr ⟨_, ?_, hv⟩
      -- Of the standard functions only the one for identifiers does not expand.
      rcases Registry.get?_standard hf with h | h | h | h | h | h | h <;> obtain ⟨rfl, rfl⟩ := h
      · exact .config hraw
      · exact .environment hraw
      · cases hx
      · exact Except.ok.inj hraw ▸ .id
      · exact Except.ok.inj hraw ▸ .uploadPrefix
      · exact .upload hraw
      · exact .values hraw
  · rw [Registry.answering, Registry.standard_eq]
    rintro (⟨rfl, rfl⟩ | ⟨raw, hr, hv⟩)
    · exact .plain rfl rfl rfl
    · cases hr with
      | config h => exact .expanding rfl rfl h hv
      | values h => exact .expanding rfl rfl h hv
      | environment h => exact .expanding rfl rfl h hv
      | upload h => exact .expanding rfl rfl h hv
      | id => exact .expanding rfl rfl rfl hv
      | uploadPrefix => exact .expanding rfl rfl rfl hv

end

end Stencil.Template
