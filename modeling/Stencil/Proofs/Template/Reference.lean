import Stencil.Proofs.Template.Subject
import Stencil.Template.Standard

/-!
# References

What a call refers to is a function and its arguments, wherever the call stands. A registry is
`Keyed` if the key of a reference to an expanding function tells it from all others, as with the
standard functions. It is `Steady` if some of its functions always answer as they answered at first,
whatever was called in between.
-/

namespace Stencil.Template

variable {σ : Type}

open Session

/-- What a call refers to. -/
structure Reference where
  name : String
  args : List String
  deriving DecidableEq

/-- What a call refers to, wherever it stands. -/
def Call.reference (c : Call) : Reference := ⟨c.name, c.args⟩

/-- The key of a reference. -/
def Reference.key (r : Reference) : CallKey := .of r.name (" ".intercalate r.args)

/-- The name and the argument can be read off a key if names hold no colon. -/
theorem CallKey.of_inj {name name' argument argument' : String} (h : ':' ∉ name.toList)
    (h' : ':' ∉ name'.toList) (he : CallKey.of name argument = .of name' argument') :
    name = name' ∧ argument = argument' := by
  have hcs : name.toList ++ ':' :: argument.toList = name'.toList ++ ':' :: argument'.toList := by
    have := congrArg (fun k => k.text.toList) he
    simpa [CallKey.of, String.toList_append] using this
  have hpass : ∀ {cs : List Char}, ':' ∉ cs → ∀ c ∈ cs, (c != ':') = true := by
    intro cs hcs c hc
    simp only [bne_iff_ne, ne_eq]
    rintro rfl
    exact hcs hc
  -- The name is what stands before the first colon.
  have hname : name.toList = name'.toList := by
    have := congrArg (List.takeWhile (· != ':')) hcs
    rwa [List.takeWhile_append_of_pos (hpass h), List.takeWhile_append_of_pos (hpass h'),
      List.takeWhile_cons_of_neg (by simp), List.takeWhile_cons_of_neg (by simp),
      List.append_nil, List.append_nil] at this
  rw [hname, List.append_cancel_left_eq, List.cons.injEq] at hcs
  exact ⟨String.toList_injective hname, String.toList_injective hcs.2⟩

/-! ## Accepted references -/

namespace Registry

/-- A reference to a function with as many arguments as the function takes. -/
def Accepts (registry : Registry σ) (r : Reference) : Prop :=
  registry.check r.name r.args.length = .ok ()

/-- A reference is accepted if its function takes as many arguments. -/
theorem accepts_iff {registry : Registry σ} {r : Reference} :
    registry.Accepts r ↔
      ∃ f, Table.get? r.name registry = some f ∧ f.arity.accepts r.args.length = true := by
  unfold Accepts check
  cases hf : Table.get? r.name registry with
  | none => simp
  | some f => by_cases ha : f.arity.accepts r.args.length = true <;> simp [ha]

/-- Nodes pass their checks if every call among them is accepted. -/
theorem checkNodes_eq_ok_iff {registry : Registry σ} {nodes : List Node} :
    registry.checkNodes nodes = .ok () ↔ ∀ c, .call c ∈ nodes → registry.Accepts c.reference := by
  induction nodes with
  | nil => simp [checkNodes]
  | cons node rest ih =>
    cases node with
    | text t => simp [checkNodes, ih]
    | literal t => simp [checkNodes, ih]
    | call c =>
      have hc : registry.check c.name c.args.length = .ok () ↔ registry.Accepts c.reference :=
        Iff.rfl
      cases hk : registry.check c.name c.args.length with
      | error e =>
        rw [hk] at hc
        simpa [checkNodes, hk] using fun h => absurd h (by simp [← hc])
      | ok u =>
        have hacc : registry.Accepts c.reference := hc.1 hk
        simp [checkNodes, hk, ih, hacc]

/-- Every call of a text that passes its checks is accepted. -/
theorem accepts_of_read {registry : Registry σ} {text : String} {nodes : List Node}
    (h : registry.read text = .ok nodes) {c : Call} (hc : .call c ∈ nodes) :
    registry.Accepts c.reference := by
  unfold read at h
  split at h
  · cases h
  · rename_i nodes' _
    cases hk : registry.checkNodes nodes' with
    | error e => simp [hk, Except.map] at h
    | ok u =>
      simp only [hk, Except.map, Except.ok.injEq] at h
      subst h
      exact checkNodes_eq_ok_iff.1 hk c hc

/-- An accepted reference to a function that expands. -/
def Expanding (registry : Registry σ) (r : Reference) : Prop :=
  ∃ f, Table.get? r.name registry = some f ∧ f.arity.accepts r.args.length = true ∧
    f.expands = true

/-- An accepted reference to a function that expands is an expanding one. -/
theorem Accepts.expanding {registry : Registry σ} {r : Reference} {f : Function σ}
    (h : registry.Accepts r) (hf : Table.get? r.name registry = some f) (hx : f.expands = true) :
    registry.Expanding r := by
  obtain ⟨g, hg, ha⟩ := accepts_iff.1 h
  obtain rfl := Option.some.inj (hf.symm.trans hg)
  exact ⟨f, hf, ha, hx⟩

/-- The key of a reference to an expanding function tells it from all others. -/
def Keyed (registry : Registry σ) : Prop :=
  ∀ r q, registry.Expanding r → registry.Expanding q → r.key = q.key → r = q

/-! ## Steady answers -/

/-- The named functions answer as they do in `world` wherever `P` holds, and it holds in `world` and
after every call. -/
structure Steady (registry : Registry σ) (names : String → Prop) (P : σ → Prop) (world : σ) :
    Prop where
  here : P world
  answers : ∀ {w name f}, P w → names name → Table.get? name registry = some f →
    ∀ args, (f.call args w).1 = (f.call args world).1
  keeps : ∀ {w name f}, P w → Table.get? name registry = some f → ∀ args, P (f.call args w).2

end Registry

/-- Every call that an evaluation makes is accepted. -/
theorem Evaluation.Calls.accepts {registry : Registry σ} {e : Evaluation σ} {c : Call}
    {s : Session σ} (h : e.Calls registry c s) : registry.Accepts c.reference := by
  obtain ⟨nodes, hread, hm⟩ := h
  exact Registry.accepts_of_read hread hm.mem

/-- Every call that an evaluation makes is accepted. -/
theorem Evaluation.Visits.accepts {registry : Registry σ} {e : Evaluation σ} {n : Nat} {c : Call}
    {s : Session σ} (h : e.Visits registry n c s) : registry.Accepts c.reference := by
  obtain ⟨e', -, -, hc⟩ := h
  exact hc.accepts

/-- Every call that a session makes is accepted. -/
theorem Subject.Visits.accepts {registry : Registry σ} {world : σ} {subject : Subject} {n : Nat}
    {c : Call} {s : Session σ} (h : subject.Visits registry world n c s) :
    registry.Accepts c.reference := by
  obtain ⟨before, t, after, -, hv⟩ := h
  exact hv.accepts

/-! ## Keys in flight and references -/

/-- Every key in flight belongs to a reference from which steps of `R` lead to all calls of the
text. -/
def Evaluation.LinkedBy (registry : Registry σ) (R : Reference → Reference → Prop)
    (e : Evaluation σ) : Prop :=
  ∀ k ∈ e.session.memo.inFlight, ∃ r, registry.Expanding r ∧ r.key = k ∧
    ∀ nodes c, registry.read e.text = .ok nodes → .call c ∈ nodes →
      Relation.TransGen R r c.reference

/-- The keys in flight stay linked to the calls of a nested text if a step leads to them from the
call that returned it. -/
theorem Evaluation.LinkedBy.nested {registry : Registry σ} {R : Reference → Reference → Prop}
    {e : Evaluation σ} (h : e.LinkedBy registry R) {n : Nat} {c : Call} {s : Session σ}
    {f : Function σ} {raw : String} (hc : e.Calls registry c s) (ho : Opens registry c s f)
    (hR : ∀ nodes d, registry.read raw = .ok nodes → .call d ∈ nodes → R c.reference d.reference) :
    LinkedBy registry R ⟨n, raw, s.launched c f⟩ := by
  intro k hk
  rw [launched_inFlight, List.mem_cons] at hk
  rcases hk with rfl | hk
  · refine ⟨c.reference, hc.accepts.expanding ho.found ho.expands, rfl, ?_⟩
    exact fun nodes d hread hd => .single (hR nodes d hread hd)
  · rw [hc.extends_before.inFlight] at hk
    obtain ⟨r, hr, hkey, hlead⟩ := h k hk
    obtain ⟨nodes', hread', hm⟩ := hc
    refine ⟨r, hr, hkey, fun nodes d hread hd => ?_⟩
    exact (hlead nodes' c hread' hm.mem).tail (hR nodes d hread hd)

/-! ## Closed sets of references -/

section

variable {registry : Registry σ} {Q : Reference → Prop}

/-- With a reference, the calls in every text that its function may return for it are in `Q`. -/
def Registry.Closed (registry : Registry σ) (Q : Reference → Prop) : Prop :=
  ∀ r f w raw nodes c, Q r → Table.get? r.name registry = some f → f.expands = true →
    (f.call r.args w).1 = .ok raw → registry.read raw = .ok nodes → .call c ∈ nodes →
      Q c.reference

/-- An evaluation makes no call outside of a closed set that holds the calls of its text. -/
theorem Evaluation.Visits.of_closed (hQ : registry.Closed Q) {e : Evaluation σ}
    (htext : ∀ nodes c, registry.read e.text = .ok nodes → .call c ∈ nodes → Q c.reference)
    {n : Nat} {c : Call} {s : Session σ} (hv : e.Visits registry n c s) : Q c.reference := by
  have hall : ∀ {e'}, Relation.ReflTransGen (Nests registry) e e' → ∀ nodes c,
      registry.read e'.text = .ok nodes → .call c ∈ nodes → Q c.reference := by
    intro e' hn
    induction hn with
    | refl => exact htext
    | tail _ hlast ih =>
      obtain ⟨⟨nodes', hread', hm⟩, _, ho, hraw⟩ := hlast
      exact fun nodes d => hQ _ _ _ _ nodes d (ih nodes' _ hread' hm.mem) ho.found ho.expands hraw
  obtain ⟨e', hn, _, nodes, hread, hm⟩ := hv
  exact hall hn nodes c hread hm.mem

/-- A session makes no call outside of a closed set that holds the calls of its texts. -/
theorem Subject.Visits.of_closed (hQ : registry.Closed Q) {subject : Subject}
    (htexts : ∀ t ∈ subject.texts, ∀ nodes c, registry.read t = .ok nodes → .call c ∈ nodes →
      Q c.reference)
    {world : σ} {n : Nat} {c : Call} {s : Session σ} (hv : subject.Visits registry world n c s) :
    Q c.reference := by
  obtain ⟨before, t, after, ht, hv⟩ := hv
  exact hv.of_closed hQ (htexts t (by rw [ht]; exact List.mem_append_right _ List.mem_cons_self))

end

namespace Registry

/-! ## The standard functions -/

/-- The standard functions, by their names. -/
theorem standard_eq (around : Surroundings σ) (ns : Namespace) : Registry.standard around ns =
    [("cfg", .lookup around .config), ("env", .lookup around .environment), ("hash", .hash ns),
      ("id", .constant ns.id), ("prefix", .constant ns.uploadPrefix), ("upload", .upload around),
      ("var", .lookup around .values)] := by
  simp only [Registry.standard, Table.ofList, List.foldl_cons, List.foldl_nil, Table.insert,
    String.reduceLT, String.reduceBEq, Bool.false_eq_true, ↓reduceIte]

/-- What the standard functions are, by their names. -/
theorem get?_standard {around : Surroundings σ} {ns : Namespace} {name : String} {f : Function σ}
    (h : Table.get? name (Registry.standard around ns) = some f) :
    (name = "cfg" ∧ f = .lookup around .config) ∨
      (name = "env" ∧ f = .lookup around .environment) ∨ (name = "hash" ∧ f = .hash ns) ∨
      (name = "id" ∧ f = .constant ns.id) ∨ (name = "prefix" ∧ f = .constant ns.uploadPrefix) ∨
      (name = "upload" ∧ f = .upload around) ∨ (name = "var" ∧ f = .lookup around .values) := by
  rw [standard_eq] at h
  simp only [Table.get?, beq_iff_eq] at h
  split_ifs at h with h₁ h₂ h₃ h₄ h₅ h₆ h₇ <;> cases h <;> simp [*]

/-- No argument or a single one can be read off the text that arguments enter a key as. -/
theorem intercalate_inj {arity : Arity} (ha : arity = .exactly 0 ∨ arity = .exactly 1)
    {xs ys : List String} (hx : arity.accepts xs.length = true)
    (hy : arity.accepts ys.length = true)
    (h : " ".intercalate xs = " ".intercalate ys) : xs = ys := by
  rcases ha with rfl | rfl
  · simp only [Arity.accepts, beq_iff_eq, List.length_eq_zero_iff] at hx hy
    rw [hx, hy]
  · simp only [Arity.accepts, beq_iff_eq] at hx hy
    obtain ⟨x, rfl⟩ := List.length_eq_one_iff.1 hx
    obtain ⟨y, rfl⟩ := List.length_eq_one_iff.1 hy
    simpa using h

/-- The standard functions are keyed: all that expand take one argument or none. -/
theorem keyed_standard (around : Surroundings σ) (ns : Namespace) :
    (Registry.standard around ns).Keyed := by
  rintro ⟨rn, ra⟩ ⟨qn, qa⟩ ⟨f, hf, haf, hxf⟩ ⟨g, hg, hag, hxg⟩ hk
  have hcolon : ∀ {name f}, Table.get? name (Registry.standard around ns) = some f →
      ':' ∉ name.toList := by
    intro name f h
    rcases get?_standard h with h | h | h | h | h | h | h <;> (rw [h.1]; decide)
  obtain ⟨hname, hargs⟩ := CallKey.of_inj (hcolon hf) (hcolon hg) hk
  rw [hname, hg] at hf
  obtain rfl := Option.some.inj hf
  -- Only `hash` takes more than one argument, and it does not expand.
  have harity : g.arity = .exactly 0 ∨ g.arity = .exactly 1 := by
    rcases get?_standard hg with h | h | h | h | h | h | h <;> rw [h.2] at hxg ⊢
    · exact .inr rfl
    · exact .inr rfl
    · cases hxg
    · exact .inl rfl
    · exact .inl rfl
    · exact .inr rfl
    · exact .inr rfl
  rw [Reference.mk.injEq]
  exact ⟨hname, intercalate_inj harity haf hag hargs⟩

/-- The standard functions with fixed answers for lookups. -/
def answering (answer : Domain → String → Except Error String)
    (register : String → σ → Except Error String × σ) (ns : Namespace) : Registry σ :=
  .standard ⟨fun domain key w => (answer domain key, w), register⟩ ns

/-- The keys of the standard functions tell their references apart. -/
theorem keyed_answering (answer : Domain → String → Except Error String)
    (register : String → σ → Except Error String × σ) (ns : Namespace) :
    (answering answer register ns).Keyed :=
  keyed_standard _ ns

end Registry

/-- A placeholder for a setting. -/
abbrev placeholder (key : String) : String :=
  "\x7b\x7bcfg `" ++ key ++ "`\x7d\x7d"

end Stencil.Template
