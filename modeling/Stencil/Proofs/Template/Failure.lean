import Stencil.Proofs.Template.Exactness
import Stencil.Proofs.Template.Opening

/-!
# Which placeholders fail

Where lookups have fixed answers, nothing is uploaded and nothing nests too deep, a placeholder
records an error just if its reference is bad, wherever and whenever it is evaluated. Then it fails
in a session of its own too: all that it leads to was evaluated in the first session, so nothing is
uploaded there either.
-/

namespace Stencil.Template

variable {σ : Type} {registry : Registry σ} {names : String → Prop} {world : σ}

open Session

/-! ## What a session evaluates -/

namespace Subject

variable {subject : Subject} {n : Nat} {c : Call} {s : Session σ}

/-- A call that opened evaluates every call in the text that its function returned. -/
theorem Visits.nested {f : Function σ} {raw : String} {nodes : List Node} {d : Call}
    (h : subject.Visits registry world (n + 1) c s) (ho : Opens registry c s f)
    (hraw : (f.call c.args s.world).1 = .ok raw) (hread : registry.read raw = .ok nodes)
    (hd : .call d ∈ nodes) : ∃ s', subject.Visits registry world n d s' := by
  obtain ⟨before, t, after, ht, e, hn, hh, hc⟩ := h
  obtain ⟨s', hm⟩ := exists_meets (invokeAt registry n) hd (s.launched c f)
  exact ⟨s', before, t, after, ht, _, hn.tail (.intro hc hh ho hraw), rfl, nodes, hread, hm⟩

/-- A reference that refers to others was opened by some call, if it was evaluated at all. -/
theorem Visits.exists_opens_of_refers (hk : registry.Keyed) (hq : registry.Quiet names)
    (hnames : ∀ n c s, subject.Visits registry world n c s → names c.name)
    (hdepth : ∀ key limit, Error.tooDeep key limit ∉ (subject.session registry world).errors)
    (h : subject.Visits registry world n c s) {f : Function σ}
    (hf : Table.get? c.name registry = some f) (hx : f.expands = true) :
    ∃ m d s', subject.Visits registry world (m + 1) d s' ∧ Opens registry d s' f ∧
      d.reference = c.reference := by
  have hsame {k : CallKey} (hkey : c.key = k) (hmem : k ∈ s.memo.keys ∨ k ∈ s.memo.inFlight) :
      ∃ m d s', subject.Visits registry world (m + 1) d s' ∧ Opens registry d s' f ∧
        d.reference = c.reference := by
    obtain ⟨m, d, s', g, hv, ho, hdk⟩ := h.exists_opens hmem
    have href := hk d.reference c.reference (hv.accepts.expanding ho.found ho.expands)
      (h.accepts.expanding hf hx) (hdk.trans hkey.symm)
    have hname : d.name = c.name := congrArg Reference.name href
    have hg := ho.found
    rw [hname, hf] at hg
    obtain rfl := Option.some.inj hg
    exact ⟨m, d, s', hv, ho, href⟩
  have hself {m : Nat} {g : Function σ} (ho : Opens registry c s g) (hm : n = m + 1) :
      ∃ m d s', subject.Visits registry world (m + 1) d s' ∧ Opens registry d s' f ∧
        d.reference = c.reference := by
    obtain rfl := Option.some.inj (ho.found.symm.trans hf)
    exact ⟨m, c, s, hm ▸ h, ho, rfl⟩
  -- The key is known, in flight or new: in each case some call of it has opened.
  have hgrows := h.grows.errors
  have hm := makes_invokeAt registry n c s
  generalize invokeAt registry n c s = r at hm hgrows
  cases hm with
  | unknown hf' => cases hf'.symm.trans hf
  | plain hf' hx' _ =>
    obtain rfl := Option.some.inj (hf'.symm.trans hf)
    rw [hx] at hx'
    cases hx'
  | plainFailed hf' hx' _ =>
    obtain rfl := Option.some.inj (hf'.symm.trans hf)
    rw [hx] at hx'
    cases hx'
  | reused _ _ hl => exact hsame rfl (.inl (List.mem_map_of_mem (Memo.mem_of_lookup hl)))
  | skipped hf' _ _ ha =>
    rw [hq c.name _ (hnames n c s h) hf'] at ha
    cases ha
  | tooDeep _ _ _ _ _ =>
    exact absurd (hgrows.subset (List.mem_append_right _ List.mem_cons_self)) (hdepth _ _)
  | cyclic _ _ _ _ _ hkey => exact hsame rfl (.inr hkey)
  | failed ho hm _ => exact hself ho hm
  | rejected ho hm _ _ => exact hself ho hm
  | expanded ho hm _ _ => exact hself ho hm

/-- All that an evaluated reference leads to is evaluated. -/
theorem Visits.closed (hk : registry.Keyed)
    (hs : registry.Steady names (fun _ => True) world) (hq : registry.Quiet names)
    (hnames : ∀ n c s, subject.Visits registry world n c s → names c.name)
    (hdepth : ∀ key limit, Error.tooDeep key limit ∉ (subject.session registry world).errors)
    (h : subject.Visits registry world n c s) {q : Reference}
    (hr : Relation.ReflTransGen (Refers registry world) c.reference q) :
    ∃ m d s', subject.Visits registry world m d s' ∧ d.reference = q := by
  induction hr with
  | refl => exact ⟨n, c, s, h, rfl⟩
  | tail _ hlast ih =>
    obtain ⟨m, d, s', hv, rfl⟩ := ih
    obtain ⟨hf, hx, hraw, hread, hd⟩ := hlast
    obtain ⟨m', d', s'', hv', ho, href⟩ := hv.exists_opens_of_refers hk hq hnames hdepth hf hx
    have hargs : d'.args = d.args := congrArg Reference.args href
    -- The call that opened may be another one, in other surroundings; its answer is the same.
    rw [← hs.answers trivial (hnames _ _ _ hv') ho.found] at hraw
    obtain ⟨s₃, hv₃⟩ := hv'.nested ho (by rw [hargs]; exact hraw) hread hd
    exact ⟨m', _, s₃, hv₃, rfl⟩

end Subject

/-! ## A session of its own -/

/-- Evaluation reaches only what the calls of the text lead to. -/
theorem Evaluation.Visits.reached (hs : registry.Steady names (fun _ => True) world)
    {e : Evaluation σ} {r : Reference}
    (hreach : ∀ q, Relation.ReflTransGen (Refers registry world) r q → names q.name)
    (htext : ∀ nodes c, registry.read e.text = .ok nodes → .call c ∈ nodes → c.reference = r)
    {n : Nat} {c : Call} {s : Session σ} (hv : e.Visits registry n c s) :
    Relation.ReflTransGen (Refers registry world) r c.reference := by
  refine hv.of_closed (Q := Relation.ReflTransGen (Refers registry world) r) ?_ ?_
  · intro q f w raw nodes d hq hf hx hraw hread hd
    rw [hs.answers trivial (hreach q hq) hf] at hraw
    exact hq.tail (.intro hf hx hraw hread hd)
  · intro nodes d hread hd
    rw [htext nodes d hread hd]

/-- A text that is one bad placeholder fails in a session of its own. -/
theorem render_fails_of_bad (hk : registry.Keyed)
    (hs : registry.Steady names (fun _ => True) world) {text : String} {d : Call}
    (hread : registry.read text = .ok [.call d])
    (hreach : ∀ q, Relation.ReflTransGen (Refers registry world) d.reference q → names q.name)
    (hbad : Bad registry world d.reference) : (render registry text world).1.error ≠ none := by
  intro herr
  have htext : ∀ nodes c, registry.read text = .ok nodes → .call c ∈ nodes →
      c.reference = d.reference := by
    intro nodes c hread' hc
    obtain rfl := Except.ok.inj (hread.symm.trans hread')
    rw [List.mem_singleton, Node.call.injEq] at hc
    rw [hc]
  have hsound := Evaluation.sound (e := ⟨maxDepth, text, start world⟩) hk hs
    (fun n c s hv => hreach _ (hv.reached hs hreach htext)) (.start hs)
  rw [Evaluation.result] at hsound
  rw [render, ending, renderText, evaluate_of_read_ok hread] at herr
  rw [evaluate_of_read_ok hread] at hsound
  obtain ⟨hread', hw⟩ := hsound.2 _ rfl (List.head?_eq_none_iff.1 herr)
  obtain rfl := Except.ok.inj (hread.symm.trans hread')
  obtain ⟨v, hv⟩ := hw.comes (c := d) List.mem_cons_self
  exact hv.not_bad hbad

/-! ## The standard functions -/

section

variable (answer : Domain → String → Except Error String)
  (register : String → σ → Except Error String × σ) (ns : Namespace) (world : σ)

/-- All standard functions but one answer the same in all surroundings. -/
theorem steady_answering : (Registry.answering answer register ns).Steady (· ≠ "upload")
    (fun _ => True) world where
  here := trivial
  answers := by
    intro w name f _ hname hf args
    rcases Registry.get?_standard hf with h | h | h | h | h | h | h <;> rw [h.2]
    all_goals try rfl
    exact absurd h.1 hname
  keeps _ _ _ := trivial

/-- All standard functions but one have no side effects. -/
theorem quiet_answering : (Registry.answering answer register ns).Quiet (· ≠ "upload") := by
  intro name f hname hf
  rcases Registry.get?_standard hf with h | h | h | h | h | h | h <;> rw [h.2]
  all_goals try rfl
  exact absurd h.1 hname

/-- Where lookups have fixed answers, nothing is uploaded and nothing nests too deep, a placeholder
records an error just if its reference is bad. Then a text that is this placeholder alone fails in a
session of its own. -/
theorem fails_iff_bad (subject : Subject)
    (hupload : ∀ n c s, subject.Visits (.answering answer register ns) world n c s →
      c.name ≠ "upload")
    (hdepth : ∀ key limit, Error.tooDeep key limit ∉
      (subject.session (.answering answer register ns) world).errors)
    {n : Nat} {c : Call} {s : Session σ}
    (hv : subject.Visits (.answering answer register ns) world n c s) :
    ((invokeAt (.answering answer register ns) n c s).2.errors ≠ s.errors ↔
      Bad (.answering answer register ns) world c.reference) ∧
    (Bad (.answering answer register ns) world c.reference → ∀ text d,
      Registry.read (.answering answer register ns) text = .ok [.call d] →
      d.reference = c.reference →
        (render (.answering answer register ns) text world).1.error ≠ none) := by
  have hk := Registry.keyed_answering answer register ns
  have hs := steady_answering answer register ns world
  have hq := quiet_answering answer register ns
  refine ⟨hv.errors_iff_bad hk hs hq hupload hdepth, fun hbad text d hread hd => ?_⟩
  rw [← hd] at hbad
  refine render_fails_of_bad hk hs hread (fun q hq' => ?_) hbad
  rw [hd] at hq'
  obtain ⟨m, c', s', hv', rfl⟩ := hv.closed hk hs hq hupload hdepth hq'
  exact hupload m c' s' hv'

end

/-- Functions where every lookup answers with the same placeholder. -/
abbrev selfReferring : Registry Unit :=
  .answering (fun _ _ => .ok (placeholder "a")) (fun _ w => (.ok "", w)) ⟨⟨[]⟩⟩

/-- The placeholder is read as the call that asks for it. -/
theorem read_selfReferring :
    selfReferring.read (placeholder "a") = .ok [.call ⟨"cfg", ["a"], 1⟩] := by
  have h : (selfReferring.read (placeholder "a")).toOption = some [.call ⟨"cfg", ["a"], 1⟩] := by
    decide +kernel
  cases hr : selfReferring.read (placeholder "a") with
  | error e =>
    rw [hr] at h
    cases h
  | ok nodes =>
    rw [hr] at h
    rw [Option.some.inj h]

/-- A placeholder for itself is bad, and fails by itself. -/
theorem fails_iff_bad_selfReferring :
    Bad selfReferring () ⟨"cfg", ["a"]⟩ ∧
      (render selfReferring (placeholder "a") ()).1.error ≠ none := by
  -- The placeholder leads to nothing but itself, and so to no upload.
  have hself : ∀ q, Relation.ReflTransGen (Refers selfReferring ()) ⟨"cfg", ["a"]⟩ q →
      q.name ≠ "upload" := by
    intro q hq
    have hq' : q = ⟨"cfg", ["a"]⟩ := by
      induction hq with
      | refl => rfl
      | tail _ hlast ih =>
        subst ih
        obtain ⟨hf, _, hraw, hread, hd⟩ := hlast
        obtain rfl := Option.some.inj (hf.symm.trans rfl)
        obtain rfl := Except.ok.inj (hraw.symm.trans rfl)
        rw [read_selfReferring, Except.ok.injEq] at hread
        subst hread
        rw [List.mem_singleton, Node.call.injEq] at hd
        rw [hd]
        rfl
    rw [hq']
    decide
  have hupload : ∀ n c s, Subject.Visits selfReferring () (.text (placeholder "a")) n c s →
      c.name ≠ "upload" := by
    rintro n c s ⟨before, t, after, ht, hv⟩
    obtain ⟨rfl, rfl, rfl⟩ : before = [] ∧ t = placeholder "a" ∧ after = [] := by
      simpa [Subject.texts, List.singleton_eq_append_iff, and_assoc] using ht
    refine hself _ (hv.reached (steady_answering _ _ _ ()) hself ?_)
    intro nodes d hread hd
    obtain rfl := Except.ok.inj (read_selfReferring.symm.trans hread)
    rw [List.mem_singleton, Node.call.injEq] at hd
    rw [hd]
    rfl
  have herrors : ((Subject.text (placeholder "a")).session selfReferring ()).errors =
      [.cyclic "cfg:a"] := by
    decide +kernel
  have hv : Subject.Visits selfReferring () (.text (placeholder "a")) maxDepth ⟨"cfg", ["a"], 1⟩
      (start ()) :=
    ⟨[], _, [], rfl, _, .refl, rfl, _, read_selfReferring, .call⟩
  obtain ⟨hiff, hfresh⟩ := fails_iff_bad _ _ _ () (.text (placeholder "a")) hupload
    (fun key limit hmem => by rw [herrors] at hmem; simp at hmem) hv
  have hbad := hiff.1 (by decide +kernel)
  exact ⟨hbad, hfresh hbad _ _ read_selfReferring rfl⟩

end Stencil.Template
