import Stencil.Proofs.Template.Grammar
import Stencil.Proofs.Template.Nesting
import Stencil.Proofs.Template.Opening
import Stencil.Proofs.Template.Paired

/-!
# How sessions recognise calls

A session recognises a call by its key, a text that its name and its arguments can be read off only
as far as spaces do not hide where an argument ends. So what it takes for a call that it has met is
an earlier or an enclosing call of the same function with the same text of arguments.

As long as different arguments of one function read differently, that is a call with the same
arguments, and the session is the paired one. Where they do not, it need not be: a function may be
given the value of other arguments, or be taken for a cycle that is none.
-/

namespace Stencil.Template

variable {σ : Type} {registry : Registry σ} {world : σ} {subject : Subject}

open Session

/-! ## Keys of calls -/

/-- Calls of one function whose arguments read the same with spaces between them. -/
def Call.ReadsAs (c d : Call) : Prop := d.name = c.name ∧ d.argumentKey = c.argumentKey

/-- The function of a call that an evaluation makes has a name. -/
theorem Evaluation.Calls.isName {e : Evaluation σ} {c : Call} {s : Session σ}
    (h : e.Calls registry c s) : IsName c.name := by
  obtain ⟨nodes, hread, hm⟩ := h
  unfold Registry.read at hread
  split at hread
  · cases hread
  · rename_i nodes' hparse
    obtain ⟨_, _, rfl⟩ := map_eq_ok_iff.1 hread
    exact isName_of_parseFrom hparse hm.mem

namespace Subject.Visits

variable {n m : Nat} {c d : Call} {s s' : Session σ}

/-- The function of a call that a session makes has a name. -/
theorem isName (h : subject.Visits registry world n c s) : IsName c.name := by
  obtain ⟨_, _, _, _, _, _, _, hc⟩ := h
  exact hc.isName

/-- The key of a call gives its name and the text of its arguments. -/
theorem readsAs_of_key (h : subject.Visits registry world n c s)
    (h' : subject.Visits registry world m d s') (hk : d.key = c.key) : c.ReadsAs d :=
  CallKey.of_inj h'.isName.colon_not_mem h.isName.colon_not_mem hk

end Subject.Visits

/-! ## Calls that were met before -/

/-- What a session takes for calls that it has met before. -/
structure Recognises (registry : Registry σ) (world : σ) (subject : Subject)
    (Same : Call → Call → Prop) : Prop where
  /-- What is remembered for a call is the outcome of the same call, which opened and was finished
  before this one is made. -/
  remembered : ∀ n c s o, subject.Visits registry world n c s → s.memo.lookup c.key = some o →
    ∃ m d s' f, subject.Visits registry world (m + 1) d s' ∧ Opens registry d s' f ∧ Same c d ∧
      o = outcomeAt registry (m + 1) d s' ∧
      (invokeAt registry (m + 1) d s').2.memo.outcomes <:+ s.memo.outcomes
  /-- What is under way is the same call, and this one is made inside of it. -/
  underWay : ∀ n c s, subject.Visits registry world n c s → s.memo.isCyclic c.key = true →
    ∃ calls d, subject.VisitsInside registry world calls n c s ∧ d ∈ calls ∧ Same c d

/-- The call that wrote what is remembered had ended when it was found. -/
theorem Subject.Visits.ended {n m : Nat} {c d : Call} {s s' : Session σ} {f : Function σ}
    {o : Outcome} (h : subject.Visits registry world n c s)
    (h' : subject.Visits registry world (m + 1) d s') (ho : Opens registry d s' f)
    (hkey : d.key = c.key) (hmem : (c.key, o) ∈ s.memo.outcomes) :
    (invokeAt registry (m + 1) d s').2.memo.outcomes <:+ s.memo.outcomes := by
  have hnodup : (subject.session registry world).memo.keys.Nodup :=
    subject.extends_session.nodup_keys List.nodup_nil
  have hend := h'.grows.outcomes
  obtain ⟨s'', -, hmemo⟩ := ho.writes m
  rw [hmemo, Memo.finish] at hend ⊢
  refine Memo.suffix_of_mem hnodup hend h.outcomes_before ?_
  rw [hkey]
  exact List.mem_map_of_mem hmem

/-- A session recognises calls of the same function with the same text of arguments. -/
theorem recognises_readsAs (registry : Registry σ) (world : σ) (subject : Subject) :
    Recognises registry world subject Call.ReadsAs where
  remembered n c s o h hl := by
    have hmem := Memo.mem_of_lookup hl
    obtain ⟨m, d, s', f, h', ho, hkey, hout⟩ := Subject.written (h.outcomes_before.subset hmem)
    exact ⟨m, d, s', f, h', ho, h.readsAs_of_key h' hkey, hout, h.ended h' ho hkey hmem⟩
  underWay n c s h hk := by
    have hv := h
    obtain ⟨before, t, after, ht, e, hn, rfl, hc⟩ := hv
    obtain ⟨calls, he⟩ := Encloses.exists_of_nests hn
    have hstart := extends_renderTexts registry before (start world)
    rw [Memo.isCyclic, List.contains_iff_mem, hc.extends_before.inFlight, he.inFlight,
      hstart.inFlight] at hk
    obtain ⟨d, hd, hkey⟩ := List.mem_map.1 ((List.mem_append.1 hk).resolve_right List.not_mem_nil)
    obtain ⟨m, s', f, hvd, -⟩ := he.visits hd
    exact ⟨calls, d, ⟨before, t, after, e, ht, he, rfl, hc⟩, hd,
      h.readsAs_of_key ⟨before, t, after, ht, hvd⟩ hkey⟩

/-! ## Arguments that read differently -/

/-- Different arguments that the session gives to one function that expands read differently. -/
def Subject.Separate (registry : Registry σ) (world : σ) (subject : Subject) : Prop :=
  ∀ n c s m d s' f, subject.Visits registry world n c s → subject.Visits registry world m d s' →
    Table.get? c.name registry = some f → f.expands = true → c.ReadsAs d → d.args = c.args

/-- Where different arguments read differently, a call is recognised exactly by its reference. -/
theorem Recognises.of_separate (h : subject.Separate registry world) :
    Recognises registry world subject fun c d => d.reference = c.reference where
  remembered n c s o hv hl := by
    obtain ⟨m, d, s', f, hv', ho, hsame, hrest⟩ :=
      (recognises_readsAs registry world subject).remembered n c s o hv hl
    have hargs := h n c s (m + 1) d s' f hv hv' (hsame.1 ▸ ho.found) ho.expands hsame
    exact ⟨m, d, s', f, hv', ho, congrArg₂ Reference.mk hsame.1 hargs, hrest⟩
  underWay n c s hv hk := by
    obtain ⟨calls, d, hinside, hd, hsame⟩ :=
      (recognises_readsAs registry world subject).underWay n c s hv hk
    obtain ⟨before, t, after, e, ht, he, -⟩ := id hinside
    obtain ⟨m, s', f, hvd, ho⟩ := he.visits hd
    have hargs := h n c s (m + 1) d s' f hv ⟨before, t, after, ht, hvd⟩ (hsame.1 ▸ ho.found)
      ho.expands hsame
    exact ⟨calls, d, hinside, hd, congrArg₂ Reference.mk hsame.1 hargs⟩

/-- The references to functions that expand that a session meets. -/
def Subject.Met (registry : Registry σ) (world : σ) (subject : Subject) (r : Reference) : Prop :=
  ∃ n c s, subject.Visits registry world n c s ∧ registry.Expanding r ∧ c.reference = r

/-- Where different arguments read differently, the references that a session meets have different
keys. -/
theorem Subject.Separate.separates (h : subject.Separate registry world) :
    Paired.Separates (subject.Met registry world) := by
  rintro _ _ ⟨n, c, s, hv, ⟨f, hf, -, hx⟩, rfl⟩ ⟨m, d, s', hv', -, rfl⟩ hk
  have hsame : c.ReadsAs d := hv.readsAs_of_key hv' hk.symm
  exact congrArg₂ Reference.mk hsame.1.symm (h n c s m d s' f hv hv' hf hx hsame).symm

/-- A session over one text is the paired one. -/
theorem render_paired {text : String} (h : (Subject.text text).Separate registry world) :
    render registry text world = Paired.render registry text world := by
  have hwithin : (Paired.start world).Within ((Subject.text text).Met registry world) :=
    ⟨fun _ ho => absurd ho List.not_mem_nil, fun _ hr => absurd hr List.not_mem_nil⟩
  obtain ⟨hvalue, hsession, -⟩ := Paired.follows_renderText h.separates text hwithin
    fun m c s hv hx => ⟨m, c, s, ⟨[], text, [], rfl, hv⟩, hx, rfl⟩
  have hstart : (Paired.start world).keyed = start world := rfl
  rw [hstart] at hvalue hsession
  rw [render, Paired.render, ending, hvalue, hsession]
  rfl

/-- A session over a document is the paired one. -/
theorem renderAll_paired {document : Json.Value}
    (h : (Subject.thing document).Separate registry world) :
    renderAll registry document world = Paired.renderAll registry document world := by
  have hwithin : (Paired.start world).Within ((Subject.thing document).Met registry world) :=
    ⟨fun _ ho => absurd ho List.not_mem_nil, fun _ hr => absurd hr List.not_mem_nil⟩
  obtain ⟨hvalues, hsession, -⟩ := Paired.follows_leaves h.separates document.texts
    hwithin fun before t after ht m c s hv hx => ⟨m, c, s, ⟨before, t, after, ht, hv⟩, hx, rfl⟩
  have hstart : (Paired.start world).keyed = start world := rfl
  rw [hstart] at hvalues hsession
  have hvalue := Json.Value.output_mapTexts document hvalues
  have hend : ((document.mapTexts (renderLeaf registry)).run (start world)).2 =
      ((document.mapTexts (Paired.renderLeaf registry)).run (Paired.start world)).2.keyed := by
    rw [Json.Value.state_mapTexts (Paired.renderLeaf registry), ← hsession]
    exact (Subject.thing document).session_eq_renderTexts
  show ending ((document.mapTexts (renderLeaf registry)).run (start world)) =
    Paired.ending ((document.mapTexts (Paired.renderLeaf registry)).run (Paired.start world))
  rw [ending, hvalue, hend]
  rfl

/-- In every session, what is taken for a call that was met before is an earlier call that had
ended, or one around it, of the same function with the same text of arguments. If different
arguments read differently, it has the same arguments, and the session is the paired one. -/
theorem recognised_by_key (registry : Registry σ) (world : σ) :
    (∀ subject, Recognises registry world subject Call.ReadsAs) ∧
      (∀ subject, subject.Separate registry world →
        Recognises registry world subject fun c d => d.reference = c.reference) ∧
      (∀ text, (Subject.text text).Separate registry world →
        render registry text world = Paired.render registry text world) ∧
      ∀ document : Json.Value, (Subject.thing document).Separate registry world →
        renderAll registry document world = Paired.renderAll registry document world :=
  ⟨recognises_readsAs registry world, fun _ => .of_separate, fun _ => render_paired,
    fun _ => renderAll_paired⟩

/-- A function that writes its arguments with commas between them, and one that asks for itself with
its argument in two parts. -/
def joining : Registry Unit :=
  [("join", ⟨.atLeast 1, true, false, fun args w => (.ok (",".intercalate args), w)⟩),
    ("part", ⟨.atLeast 1, true, false, fun args w =>
      (.ok (if args.length = 1 then "\x7b\x7bpart \"a\" \"b\"\x7d\x7d" else "end"), w)⟩)]

/-- A text with two different calls of two arguments, of which one stands there twice. -/
abbrev joined : String :=
  "\x7b\x7bjoin \"a b\" \"c\"\x7d\x7d " ++
    "\x7b\x7bjoin \"a\" \"b\"\x7d\x7d \x7b\x7bjoin \"a\" \"b\"\x7d\x7d"

/-- The references of the calls in that text. -/
def InJoined (r : Reference) : Prop :=
  r = ⟨"join", ["a b", "c"]⟩ ∨ r = ⟨"join", ["a", "b"]⟩

/-- The text is read as its three calls with blanks between them. -/
theorem read_joined : joining.read joined = .ok [.call ⟨"join", ["a b", "c"], 1⟩, .text " ",
    .call ⟨"join", ["a", "b"], 1⟩, .text " ", .call ⟨"join", ["a", "b"], 1⟩] :=
  eq_ok_of_toOption (by decide +kernel)

/-- The texts that come of those references hold no calls. -/
theorem closed_inJoined : joining.Closed InJoined := by
  intro r f w raw nodes c hr hf _ hraw hread hc
  have hf : Table.get? "join" joining = some f := by
    rcases hr with rfl | rfl <;> exact hf
  obtain rfl := Option.some.inj hf
  obtain rfl := Except.ok.inj hraw
  have hnone : joining.read (",".intercalate r.args) = .ok [.text (",".intercalate r.args)] := by
    rcases hr with rfl | rfl <;> exact eq_ok_of_toOption (by decide +kernel)
  obtain rfl := Except.ok.inj (hnone.symm.trans hread)
  cases List.mem_singleton.1 hc

/-- The session makes no calls but those of the text. -/
theorem inJoined_of_visits {n : Nat} {c : Call} {s : Session Unit}
    (hv : (Subject.text joined).Visits joining () n c s) : InJoined c.reference := by
  refine hv.of_closed closed_inJoined fun t ht nodes d hread hd => ?_
  obtain rfl := List.mem_singleton.1 ht
  obtain rfl := Except.ok.inj (read_joined.symm.trans hread)
  simp only [List.mem_cons, List.not_mem_nil, or_false, Node.call.injEq, reduceCtorEq,
    false_or] at hd
  rcases hd with rfl | rfl | rfl
  · exact .inl rfl
  · exact .inr rfl
  · exact .inr rfl

/-- The arguments in the text read differently. -/
theorem separate_joined : (Subject.text joined).Separate joining () := by
  intro n c s m d s' f hv hv' _ _ hsame
  have hne : " ".intercalate ["a b", "c"] ≠ " ".intercalate ["a", "b"] := by decide +kernel
  have hc : c.args = ["a b", "c"] ∨ c.args = ["a", "b"] :=
    (inJoined_of_visits hv).imp (congrArg Reference.args) (congrArg Reference.args)
  have hd : d.args = ["a b", "c"] ∨ d.args = ["a", "b"] :=
    (inJoined_of_visits hv').imp (congrArg Reference.args) (congrArg Reference.args)
  have htext : " ".intercalate d.args = " ".intercalate c.args := hsame.2
  rcases hc with hc | hc <;> rcases hd with hd | hd <;> rw [hc, hd] at htext ⊢
  · exact absurd htext.symm hne
  · exact absurd htext hne

/-- The text is rendered as calls are told apart by what they refer to. -/
theorem recognised_by_key_joining :
    (Subject.text joined).Separate joining () ∧
      render joining joined () = Paired.render joining joined () :=
  ⟨separate_joined, (recognised_by_key joining ()).2.2.1 joined separate_joined⟩

/-- Different arguments that read the same are taken for each other: a call is given the value of
another one, and a call that is made inside another one is taken for a cycle. -/
theorem same_key_for_different_arguments :
    (render joining "\x7b\x7bjoin \"a b\"\x7d\x7d \x7b\x7bjoin \"a\" \"b\"\x7d\x7d" ()).1.output =
        "a b a b" ∧
      (Paired.render joining
        "\x7b\x7bjoin \"a b\"\x7d\x7d \x7b\x7bjoin \"a\" \"b\"\x7d\x7d" ()).1.output = "a b a,b" ∧
      (render joining "\x7b\x7bpart \"a b\"\x7d\x7d" ()).1.error = some (.cyclic "part:a b") ∧
      (Paired.render joining "\x7b\x7bpart \"a b\"\x7d\x7d" ()).1.error = none := by
  decide +kernel

end Stencil.Template
