import Stencil.Proofs.Settings.Verbatim
import Stencil.Proofs.Template.Calls
import Stencil.Proofs.Upload.Braces
import Stencil.Proofs.Upload.Lifecycle
import Stencil.Proofs.Upload.Order

/-!
# Files in templates

A template that uploads files gets their addresses, and the files go into the plan. Both agree: what
is written for a call of `upload` that recorded no error is what the address of a file in the plan
comes to, and the files that a session without errors adds are those that its calls named, in the
order of the calls.

What `upload` returns is a template again. An address without opening braces comes to itself, and no
address has any unless its container has.
-/

namespace Stencil.Upload

open Template Session

/-- The standard functions with fixed answers for lookups, over an uploader. -/
abbrev standard (answer : Domain → String → Except Template.Error String) (ns : Namespace) :
    Registry Uploader :=
  .answering answer Uploader.register ns

/-- The function behind `upload`. -/
abbrev uploadFunction (answer : Domain → String → Except Template.Error String) :
    Template.Function Uploader :=
  .upload ⟨fun domain key w => (answer domain key, w), Uploader.register⟩

/-- The reference to `upload` with a local path. -/
def uploading (source : String) : Reference := ⟨"upload", [source]⟩

/-- The local paths that some calls upload, in the order of the calls. -/
def uploadsOf (calls : List Call) : List String :=
  (calls.filter (·.name == "upload")).map fun c => Function.first c.args

/-- Calls that follow each other upload what both do. -/
theorem uploadsOf_append (calls later : List Call) :
    uploadsOf (calls ++ later) = uploadsOf calls ++ uploadsOf later := by
  rw [uploadsOf, List.filter_append, List.map_append]
  rfl

variable {answer : Domain → String → Except Template.Error String} {ns : Namespace}

/-! ## Calls that upload -/

/-- The function behind uploads is found under its name. -/
theorem get?_upload : Table.get? "upload" (standard answer ns) = some (uploadFunction answer) := by
  rw [standard, Registry.answering, Registry.standard_eq]
  rfl

/-- A reference to an upload is an expanding one. -/
theorem expanding_uploading (source : String) :
    (standard answer ns).Expanding (uploading source) :=
  ⟨_, get?_upload, rfl, rfl⟩

/-- A call of `upload` that is accepted names one local path. -/
theorem reference_of_accepts {c : Call} (h : (standard answer ns).Accepts c.reference)
    (hname : c.name = "upload") : c.reference = uploading (Function.first c.args) := by
  obtain ⟨f, hf, ha⟩ := Registry.accepts_iff.1 h
  rw [Call.reference, hname, get?_upload] at hf
  obtain rfl := Option.some.inj hf
  have hargs : c.args.length = 1 := by
    simpa [Arity.accepts, Function.upload, Call.reference] using ha
  obtain ⟨source, hsource⟩ := List.length_eq_one_iff.1 hargs
  rw [Call.reference, uploading, hname, hsource]
  rfl

/-- Every function but `upload` leaves the uploader alone. -/
theorem call_world {name : String} {f : Template.Function Uploader}
    (hf : Table.get? name (standard answer ns) = some f) (args : List String) (u : Uploader) :
    (f.call args u).2 = if name = "upload" then (u.add (Function.first args)).2 else u := by
  rcases Registry.get?_standard hf with h | h | h | h | h | h | h <;> obtain ⟨rfl, rfl⟩ := h <;> rfl

/-! ## Sessions and their plans -/

/-- The plan of a session has a file for every call of `upload` that is remembered without an
error. -/
structure Agrees (s : Session Uploader) : Prop where
  placed : s.world.Placed
  named : s.world.Named
  stocked : ∀ source v, ((uploading source).key, ⟨v, none⟩) ∈ s.memo.outcomes →
    sourceKey source ∈ s.world.sourceKeys

theorem agrees_start {u : Uploader} (hp : u.Placed) (hn : u.Named) : Agrees (start u) :=
  ⟨hp, hn, fun _ _ h => absurd h List.not_mem_nil⟩

namespace Agrees

variable {s : Session Uploader}

/-- A plan may get more files while nothing else is remembered. -/
theorem of_adds {s' : Session Uploader} (h : Agrees s) (ha : s.world.Adds s'.world)
    (hm : s'.memo.outcomes = s.memo.outcomes) : Agrees s' where
  placed := ha.keeps (P := Uploader.Placed) (fun _ source hu => Uploader.placed_add hu source)
    h.placed
  named := ha.keeps (P := Uploader.Named) (fun _ source hu => Uploader.named_add hu source) h.named
  stocked source v hmem := ha.sourceKeys_subset (h.stocked source v (hm ▸ hmem))

/-- Launching a call keeps a session in agreement with its plan. -/
theorem launched (h : Agrees s) {c : Call} {f : Template.Function Uploader}
    (hf : Table.get? c.name (standard answer ns) = some f) : Agrees (s.launched c f) := by
  have hadds : s.world.Adds (s.launched c f).world := adds_call answer ns hf c.args s.world
  exact h.of_adds hadds rfl

/-- A call of `upload` that was answered has its file in the plan. -/
theorem sourceKey_mem_launched (h : Agrees s) {c : Call} {f : Template.Function Uploader}
    (hf : Table.get? c.name (standard answer ns) = some f) (hname : c.name = "upload")
    {raw : String} (hraw : (f.call c.args s.world).1 = .ok raw) :
    sourceKey (Function.first c.args) ∈ (s.launched c f).world.sourceKeys := by
  have hworld : (s.launched c f).world = (s.world.add (Function.first c.args)).2 := by
    rw [Session.launched, call_world hf, if_pos hname]
  rw [hname, get?_upload] at hf
  obtain rfl := Option.some.inj hf
  have hregister : (s.world.register (Function.first c.args)).1 = .ok raw := hraw
  rw [hworld]
  cases ha : (s.world.add (Function.first c.args)).1 with
  | error e =>
    rw [Uploader.register, ha] at hregister
    cases hregister
  | ok a => exact Uploader.sourceKey_mem_of_add h.placed h.named ha

/-- The outcome of a call may be remembered if it carries an error or the plan has the file. -/
theorem complete (h : Agrees s) {c : Call} (hx : (standard answer ns).Expanding c.reference)
    {value : String} {error : Option Template.Error}
    (hmem : error = none → c.name = "upload" →
      sourceKey (Function.first c.args) ∈ s.world.sourceKeys) :
    Agrees (s.complete c.key value error).2 := by
  refine ⟨h.placed, h.named, fun source v ho => ?_⟩
  rw [complete_memo, Memo.finish, List.mem_cons] at ho
  rcases ho with ho | ho
  · rw [Prod.mk.injEq, Outcome.mk.injEq] at ho
    have hc : c.reference = uploading source :=
      Registry.keyed_answering _ _ _ _ _ hx (expanding_uploading source) ho.1.symm
    rw [Call.reference, uploading, Reference.mk.injEq] at hc
    have hkey := hmem ho.2.2.symm hc.1
    rwa [hc.2] at hkey
  · exact h.stocked source v ho

end Agrees

/-- A session over an uploader adds files at most, and its plan goes on to agree with what it
remembers. -/
theorem keeps_agrees : Keeps (standard answer ns)
    (fun _ c _ => (standard answer ns).Accepts c.reference)
    fun s s' => s.world.Adds s'.world ∧ (Agrees s → Agrees s') where
  refl _ := ⟨.refl, id⟩
  trans h h' := ⟨h.1.trans h'.1, h'.2 ∘ h.2⟩
  record _ _ := ⟨.refl, fun h => ⟨h.placed, h.named, h.stocked⟩⟩
  plain _ hf _ :=
    ⟨adds_call answer ns hf _ _, fun h => h.of_adds (adds_call answer ns hf _ _) rfl⟩
  finish := by
    intro n c s f s' value error hacc ho h he
    refine ⟨(adds_call answer ns ho.found c.args s.world).trans h.1, fun hs => ?_⟩
    have hlaunched := hs.launched ho.found
    refine (h.2 hlaunched).complete (hacc.expanding ho.found ho.expands) fun hnone hname => ?_
    cases hr : (f.call c.args s.world).1 with
    | ok raw => exact h.1.sourceKeys_subset (hs.sourceKey_mem_launched ho.found hname hr)
    | error e =>
      -- A call that was not answered is remembered with its error.
      rw [invokeAt_of_opens ho, hr] at he
      have houtcomes := congrArg (fun r => r.2.memo.outcomes.head?) he
      simp only [completeFailed, complete_memo, Memo.finish, List.head?_cons, Option.some.injEq,
        Prod.mk.injEq, Outcome.mk.injEq] at houtcomes
      rw [hnone] at houtcomes
      cases houtcomes.2.2

/-- A call adds files at most, and keeps a session in agreement with its plan. -/
theorem agrees_invokeAt {n : Nat} {c : Call} (hacc : (standard answer ns).Accepts c.reference)
    (s : Session Uploader) :
    s.world.Adds (invokeAt (standard answer ns) n c s).2.world ∧
      (Agrees s → Agrees (invokeAt (standard answer ns) n c s).2) :=
  keeps_agrees.invokeAt hacc fun {m f raw} _ _ _ =>
    keeps_agrees.evaluate ⟨m, raw, s.launched c f⟩ fun _ _ _ hv => hv.accepts

/-! ## Traces and the plan -/

section

variable {n : Nat} {c : Call} {s s' : Session Uploader} {nodes : List Node} {traces : List Trace}

/-- A call that is not unfolded and records no error leaves the plan alone; if it uploads, the file
is in the plan already. -/
theorem world_of_not_unfolds (hacc : (standard answer ns).Accepts c.reference) (h : Agrees s)
    (hnot : ∀ m nodes s₀, ¬ Unfolds (standard answer ns) n c s m nodes s₀)
    (hclean : (invokeAt (standard answer ns) n c s).2.errors = s.errors) :
    (invokeAt (standard answer ns) n c s).2.world = s.world ∧
      (c.name = "upload" → sourceKey (Function.first c.args) ∈ s.world.sourceKeys) := by
  have hm := makes_invokeAt (standard answer ns) n c s
  generalize invokeAt (standard answer ns) n c s = r at hm hclean
  -- Only a plain function, a call that is remembered and one that unfolds end without an error.
  cases hm with
  | plain hf hx _ =>
    -- A plain function is not the one that uploads, which expands.
    have hne : c.name ≠ "upload" := by
      intro hname
      rw [hname, get?_upload] at hf
      obtain rfl := Option.some.inj hf
      cases hx
    refine ⟨?_, fun hname => absurd hname hne⟩
    show (Function.call _ c.args s.world).2 = s.world
    rw [call_world hf, if_neg hne]
  | @reused f o hf _ hl =>
    refine ⟨rfl, fun hname => ?_⟩
    obtain ⟨v, error⟩ := o
    cases error with
    | none =>
      refine h.stocked _ v (Memo.mem_of_lookup ?_)
      rw [← reference_of_accepts hacc hname]
      exact hl
    | some e => exact absurd hclean (errors_ne_of_concat List.prefix_rfl e)
  | expanded ho hn hraw he =>
    subst hn
    cases hread : (standard answer ns).read _ with
    | error e =>
      rw [evaluate_of_read_error hread] at he
      cases he
    | ok nodes => exact absurd (.intro ho hraw hread) (hnot _ _ _)
  | unknown _ | plainFailed _ _ _ | skipped _ _ _ _ | tooDeep _ _ _ _ _ | cyclic _ _ _ _ _ _
    | failed _ _ _ | rejected _ _ _ _ =>
    exact absurd hclean (errors_ne_of_concat List.prefix_rfl _)

/-- A call that is unfolded has its file in the plan before the text that it returned is read. -/
theorem world_of_unfolds {m : Nat} {inner : List Node} {s₀ : Session Uploader}
    (hu : Unfolds (standard answer ns) n c s m inner s₀) :
    s₀.world = Uploader.addAll (uploadsOf [c]) s.world ∧ s.world.Adds s₀.world ∧
      (Agrees s → Agrees s₀ ∧
        (c.name = "upload" → sourceKey (Function.first c.args) ∈ s₀.world.sourceKeys)) := by
  obtain ⟨ho, hraw, _⟩ := hu
  refine ⟨?_, adds_call answer ns ho.found c.args s.world, fun h =>
    ⟨h.launched ho.found, fun hname => h.sourceKey_mem_launched ho.found hname hraw⟩⟩
  rw [Session.launched, call_world ho.found]
  by_cases hname : c.name = "upload" <;> simp [uploadsOf, hname, Uploader.addAll]

/-- What nodes leave of the plan: it has more files at most and agrees with what is remembered,
every call of `upload` that recorded no error has its file in it, and if no error was recorded at
all, then just the files that such calls named were added, in the order of the calls. -/
structure Stocks (s : Session Uploader) (traces : List Trace) (s' : Session Uploader) : Prop where
  adds : s.world.Adds s'.world
  agrees : Agrees s'
  registered : ∀ t ∈ traces, ∀ u, Trace.Within u t → ∀ c, u.node = .call c → c.name = "upload" →
    u.errors = [] → sourceKey (Function.first c.args) ∈ s'.world.sourceKeys
  clean : Trace.errorsAll traces = [] →
    s'.world = Uploader.addAll (uploadsOf (Trace.callsAll traces)) s.world

/-- A node before others that is no call changes nothing. -/
theorem Stocks.still (h : Stocks s traces s') {t : Trace} (hcall : ∀ u, Trace.Within u t → u = t)
    (hnode : ∀ c, t.node ≠ .call c) (herrors : t.errors = []) (hcalls : t.calls = []) :
    Stocks s (t :: traces) s' where
  adds := h.adds
  agrees := h.agrees
  registered := List.forall_mem_cons.2
    ⟨fun u hu c hc => absurd (hcall u hu ▸ hc) (hnode c), h.registered⟩
  clean := by
    rw [Trace.errorsAll, Trace.callsAll, herrors, hcalls]
    exact h.clean

/-- A call before other nodes that is not unfolded. -/
theorem Stocks.ended (hacc : (standard answer ns).Accepts c.reference) (hs : Agrees s)
    (hnot : ∀ m nodes s₀, ¬ Unfolds (standard answer ns) n c s m nodes s₀)
    {error : Option Template.Error}
    (herrors : (invokeAt (standard answer ns) n c s).2.errors = s.errors ++ error.toList)
    (h : Stocks (invokeAt (standard answer ns) n c s).2 traces s') :
    Stocks s (.ended c (invokeAt (standard answer ns) n c s).1 error :: traces) s' := by
  have hadds : s.world.Adds s'.world := (agrees_invokeAt hacc s).1.trans h.adds
  have hworld (he : error.toList = []) := world_of_not_unfolds hacc hs hnot
    (by rw [herrors, he, List.append_nil])
  refine ⟨hadds, h.agrees, List.forall_mem_cons.2 ⟨?_, h.registered⟩, fun hclean => ?_⟩
  · rintro _ ⟨⟩ d ⟨⟩ hname he
    exact hadds.sourceKeys_subset ((hworld he).2 hname)
  · obtain ⟨he, hclean⟩ := List.append_eq_nil_iff.1 hclean
    obtain ⟨hsame, hmem⟩ := hworld he
    -- A call of `upload` that is remembered names a file that is there.
    have hnone : Uploader.addAll (uploadsOf [c]) s.world = s.world := by
      by_cases hname : c.name = "upload"
      · have hknown :=
          (Uploader.add_eq_or hs.placed hs.named (Function.first c.args)).1 (hmem hname)
        simpa [uploadsOf, hname, Uploader.addAll] using hknown
      · simp [uploadsOf, hname, Uploader.addAll]
    rw [h.clean hclean, hsame]
    show _ = Uploader.addAll (uploadsOf ([c] ++ Trace.callsAll traces)) s.world
    rw [uploadsOf_append, Uploader.addAll_append, hnone]

/-- A call before other nodes that is unfolded. -/
theorem Stocks.unfolded {m : Nat} {inner : List Node} {s₀ s₁ : Session Uploader}
    {innerTraces : List Trace} (hs : Agrees s)
    (hu : Unfolds (standard answer ns) n c s m inner s₀)
    (hworld : (invokeAt (standard answer ns) n c s).2.world = s₁.world)
    (hinner : Stocks s₀ innerTraces s₁)
    (h : Stocks (invokeAt (standard answer ns) n c s).2 traces s') :
    Stocks s (.unfolded c innerTraces :: traces) s' := by
  obtain ⟨hfirst, hadds₀, hs₀⟩ := world_of_unfolds hu
  have hlater : s₁.world.Adds s'.world := hworld ▸ h.adds
  have hadds : s₀.world.Adds s'.world := hinner.adds.trans hlater
  refine ⟨hadds₀.trans hadds, h.agrees, List.forall_mem_cons.2 ⟨?_, h.registered⟩,
    fun hclean => ?_⟩
  · intro v hv d hd hname he
    cases hv with
    | self =>
      cases hd
      exact hadds.sourceKeys_subset ((hs₀ hs).2 hname)
    | inner ht hv => exact hlater.sourceKeys_subset (hinner.registered _ ht v hv d hd hname he)
  · obtain ⟨he, hclean⟩ := List.append_eq_nil_iff.1 hclean
    rw [h.clean hclean, hworld, hinner.clean he, hfirst]
    show _ = Uploader.addAll
      (uploadsOf ([c] ++ Trace.callsAll innerTraces ++ Trace.callsAll traces)) _
    rw [uploadsOf_append, uploadsOf_append, Uploader.addAll_append, Uploader.addAll_append]

/-- What nodes leave of the plan is told by their traces. -/
theorem stocks_of_traces (h : Traces (standard answer ns) n nodes s traces s')
    (hacc : ∀ c, .call c ∈ nodes → (standard answer ns).Accepts c.reference) (hs : Agrees s) :
    Stocks s traces s' := by
  induction h with
  | nil => exact ⟨.refl, hs, fun _ ht => absurd ht List.not_mem_nil, fun _ => rfl⟩
  | text _ ih =>
    refine (ih (fun c hc => hacc c (List.mem_cons_of_mem _ hc)) hs).still ?_ nofun rfl rfl
    rintro _ ⟨⟩
    rfl
  | literal _ ih =>
    refine (ih (fun c hc => hacc c (List.mem_cons_of_mem _ hc)) hs).still ?_ nofun rfl rfl
    rintro _ ⟨⟩
    rfl
  | @ended n c rest s error traces s' hnot herrors _ ih =>
    have hc := hacc c List.mem_cons_self
    have hrest := ih fun d hd => hacc d (List.mem_cons_of_mem _ hd)
    exact .ended hc hs hnot herrors (hrest ((agrees_invokeAt hc s).2 hs))
  -- A call that unfolds leaves the plan as the nodes inside leave it.
  | @unfolded n c rest s m nodes s₀ inner s₁ traces s' hu hinner _ ihinner ih =>
    have hc := hacc c List.mem_cons_self
    have hrest := ih fun d hd => hacc d (List.mem_cons_of_mem _ hd)
    have haccInner : ∀ d, .call d ∈ nodes → (standard answer ns).Accepts d.reference := by
      cases hu with
      | intro _ _ hread => exact fun d hd => Registry.accepts_of_read hread hd
    have hworld : (invokeAt (standard answer ns) n c s).2.world = s₁.world := by
      rw [hu.invokeAt_eq hinner.writeNodes_eq.1 hinner.writeNodes_eq.2]
      rfl
    exact .unfolded hs hu hworld (ihinner haccInner ((world_of_unfolds hu).2.2 hs).1)
      (hrest ((agrees_invokeAt hc s).2 hs))

end

/-! ## The whole session -/

/-- The address of every file is free of opening braces if that of the container is. -/
theorem plain_of_mem {p : Plan} (hc : Plain p.container.endpoint.chars) {u : Uploader}
    (ha : (Uploader.enabled p).Adds u) (hu : u.Placed) :
    ∀ item ∈ u.items, Plain item.url.chars := by
  have hsame : ∃ q, u = .enabled q ∧ q.container = p.container := by
    refine ha.keeps (P := fun v => ∃ q, v = .enabled q ∧ q.container = p.container) ?_ ⟨p, rfl, rfl⟩
    rintro v source ⟨q, hq, hcontainer⟩
    rcases Uploader.add_cases v source with he | ⟨q', _, item, hv, _, _, _, _, he⟩
    · exact ⟨q, he.trans hq, hcontainer⟩
    · rw [hq, Uploader.enabled.injEq] at hv
      exact ⟨_, he, hv ▸ hcontainer⟩
  obtain ⟨q, rfl, hcontainer⟩ := hsame
  intro item hmem
  exact Container.plain_urlOf (Plan.Placed.address hu item hmem) (hcontainer ▸ hc)

/-- What is written for a call of `upload` is what the address of a file with that key comes to. -/
theorem expands_of_comes {u u' : Uploader} (hu : u.Placed) (hp : u'.Placed) (hn : u'.Named)
    (haddress : u'.address = u.address) {c : Call} (hname : c.name = "upload") {v : String}
    (h : Comes (standard answer ns) u (Expands (standard answer ns) u) c.reference v)
    {item : Planned} (hi : item ∈ u'.items)
    (hkey : sourceKey item.source = sourceKey (Function.first c.args)) :
    Expands (standard answer ns) u item.url.text v := by
  rw [Call.reference, hname] at h
  obtain ⟨raw, hraw, hv⟩ := h.expanding_inv get?_upload rfl
  have hregister : (u.register (Function.first c.args)).1 = .ok raw := hraw
  rw [Uploader.register, Uploader.add_answer hu, ← haddress,
    Uploader.address_eq_of_mem hp hn hi hkey] at hregister
  rwa [Except.ok.inj hregister]

/-- A call of `upload` that comes to something names a file that has an address. -/
theorem exists_address_of_comes {u : Uploader} (hu : u.Placed) {c : Call}
    (hname : c.name = "upload") {v : String}
    (h : Comes (standard answer ns) u (Expands (standard answer ns) u) c.reference v) :
    ∃ a, u.address (Function.first c.args) = .ok a := by
  rw [Call.reference, hname] at h
  obtain ⟨raw, hraw⟩ := h.exists_ok get?_upload
  have hregister : (u.register (Function.first c.args)).1 = .ok raw := hraw
  rw [Uploader.register, Uploader.add_answer hu] at hregister
  cases ha : u.address (Function.first c.args) with
  | error e =>
    rw [ha] at hregister
    cases hregister
  | ok a => exact ⟨a, rfl⟩

/-- A session over the standard functions and an uploader agrees with its plan. What is written for
a call of `upload` that recorded no error, at any depth, is what the address of a file in the plan
for that source comes to, and so is that address itself if it has no opening braces; no address has
any unless the container has. A session without an error adds one file for each key that its calls
of `upload` named and that was not there, in the order in which they were named first. -/
theorem uploads_agree (answer : Domain → String → Except Template.Error String) (ns : Namespace)
    {u : Uploader} (hu : u.Reachable) (text : String) :
    (∀ e, (standard answer ns).read text = .error e →
      render (standard answer ns) text u = (⟨text, some e⟩, u)) ∧
    ∀ nodes, (standard answer ns).read text = .ok nodes → ∃ traces s',
      Traces (standard answer ns) maxDepth nodes (start u) traces s' ∧
      render (standard answer ns) text u =
        (⟨String.join (traces.map Trace.written), (traces.flatMap Trace.errors).head?⟩, s'.world) ∧
      (∀ t ∈ traces, ∀ t', Trace.Within t' t → ∀ c, t'.node = .call c → c.name = "upload" →
        t'.errors = [] → ∃ item ∈ s'.world.items,
          sourceKey item.source = sourceKey (Function.first c.args) ∧
          Expands (standard answer ns) u item.url.text t'.written ∧
          (Plain item.url.chars → t'.written = item.url.text)) ∧
      (∀ p, u = .enabled p → Plain p.container.endpoint.chars →
        ∀ item ∈ s'.world.items, Plain item.url.chars) ∧
      ((render (standard answer ns) text u).1.error = none → ∃ new,
        s'.world.items = u.items ++ new ∧ new.map (fun item => sourceKey item.source) =
          (((uploadsOf (traces.flatMap Trace.calls)).map sourceKey).filter
            (· ∉ u.sourceKeys)).eraseDups) := by
  refine ⟨fun e he => ?_, fun nodes hread => ?_⟩
  · rw [render, renderText, evaluate_of_read_error he]
    rfl
  obtain ⟨traces, s', h⟩ := exists_traces (standard answer ns) maxDepth nodes (remembers_start u)
  obtain ⟨herrors, hrender⟩ := h.render_eq hread
  have hsteady := steady_uploading answer ns hu.placed
  have hacc : ∀ c, .call c ∈ nodes → (standard answer ns).Accepts c.reference :=
    fun c hc => Registry.accepts_of_read hread hc
  obtain ⟨hsound, hfaithful⟩ := h.faithful (Registry.keyed_answering _ _ _) hsteady hacc
    (.start hsteady)
  have hstocks := stocks_of_traces h hacc (agrees_start hu.placed hu.named)
  obtain ⟨hplaced, haddress⟩ := hsound.holds
  refine ⟨traces, s', h, hrender, fun t ht t' hin c hc hname hclean => ?_, ?_, fun hnone => ?_⟩
  · obtain ⟨item, hi, hkey⟩ :=
      List.mem_map.1 (hstocks.registered t ht t' hin c hc hname hclean)
    have hexpands := expands_of_comes hu.placed hplaced hstocks.agrees.named haddress hname
      (hfaithful t ht t' hin c hc hclean) hi hkey
    refine ⟨item, hi, hkey, hexpands, fun hplain => hexpands.unique ?_⟩
    exact (expandsBelow_of_plain (by rwa [Url.text, String.toList_ofList]) 0).expands
  · rintro p rfl hc
    exact plain_of_mem hc hstocks.adds hplaced
  · rw [hrender, List.head?_eq_none_iff, ← Trace.errorsAll_eq_flatMap] at hnone
    rw [hstocks.clean hnone, Trace.callsAll_eq_flatMap]
    refine Uploader.items_addAll hu.placed hu.named fun source hmem => ?_
    -- Every call of `upload` comes to something, so its file has an address.
    obtain ⟨c, hc, rfl⟩ := List.mem_map.1 hmem
    obtain ⟨hcalls, hname⟩ := List.mem_filter.1 hc
    rw [← Trace.callsAll_eq_flatMap] at hcalls
    obtain ⟨t, ht, t', hin, hnode, hclean⟩ := Trace.exists_clean_of_mem_callsAll hnone hcalls
    exact exists_address_of_comes hu.placed (beq_iff_eq.1 hname)
      (hfaithful t ht t' hin c hnode hclean)

/-- A placeholder for the address of a file. -/
def uploadPlaceholder (source : String) : String :=
  "\x7b\x7bupload `" ++ source ++ "`\x7d\x7d"

/-- Two spellings of one file, and another file between them. -/
def mixedUploads : String :=
  uploadPlaceholder "b" ++ " " ++ uploadPlaceholder "./a" ++ " " ++ uploadPlaceholder "b/"

/-- The second spelling of a file is written with the address of the first, and adds no file. -/
theorem uploads_agree_mixed :
    let result := render (standard (fun _ key => .ok key) ⟨⟨[]⟩⟩) mixedUploads (.enabled .sample)
    (Uploader.enabled .sample).Reachable ∧
      result.1.output =
        "https://store/files/run/b https://store/files/run/a https://store/files/run/b" ∧
      result.2.items.map (fun item => sourceKey item.source) = [.ok "b", .ok "a"] ∧
      ∃ traces : List Trace, result.1.output = String.join (traces.map Trace.written) ∧
        ((uploadsOf (traces.flatMap Trace.calls)).map sourceKey).eraseDups =
          [.ok "b", .ok "a"] := by
  intro result
  have hu : (Uploader.enabled .sample).Reachable := .empty _ _ _
  have hfiles : result.2.items.map (fun item => sourceKey item.source) = [.ok "b", .ok "a"] := by
    decide +kernel
  have hnone : result.1.error = none := by decide +kernel
  refine ⟨hu, by decide +kernel, hfiles, ?_⟩
  obtain ⟨hrejected, hread⟩ := uploads_agree (fun _ key => .ok key) ⟨⟨[]⟩⟩ hu mixedUploads
  cases hr : (standard (fun _ key => .ok key) ⟨⟨[]⟩⟩).read mixedUploads with
  | error e =>
    have herror : result.1.error = some e := by rw [show result = _ from hrejected e hr]
    rw [hnone] at herror
    cases herror
  | ok nodes =>
    obtain ⟨traces, s', -, hrender, -, -, hadded⟩ := hread nodes hr
    obtain ⟨new, hnew, hkeys⟩ := hadded hnone
    have hworld : result.2 = s'.world := congrArg Prod.snd hrender
    refine ⟨traces, congrArg (·.1.output) hrender, ?_⟩
    rw [hworld, hnew] at hfiles
    rw [← hfiles, show (Uploader.enabled .sample).items = [] from rfl, List.nil_append, hkeys,
      show (Uploader.enabled .sample).sourceKeys = [] from rfl]
    simp

/-- A plan for a container whose address has opening braces in its query. -/
def Plan.braced : Plan :=
  .empty ⟨⟨"https".toList, some ⟨[], .ipv6 [0, 0, 0, 0, 0, 0, 0, 1], none⟩, .segments [[]],
    some "\x7b\x7b`x`\x7d\x7d".toList, none⟩, "c"⟩ "p" true

/-- An address with opening braces is expanded where it is put: what is written for a call of
`upload` that recorded no error is the address of no file. -/
theorem address_expanded :
    Container.atEndpoint "https://[::1]/?\x7b\x7b`x`\x7d\x7d" "c" = .ok Plan.braced.container ∧
      let result := render (standard (fun _ key => .ok key) ⟨⟨[]⟩⟩) (uploadPlaceholder "a")
        (.enabled .braced)
      result.1.error = none ∧ result.1.output = "https://[::1]/c/p/a?x" ∧
        result.2.items.map (·.url.text) = ["https://[::1]/c/p/a?\x7b\x7b`x`\x7d\x7d"] := by
  refine ⟨?_, ?_, ?_, ?_⟩ <;> decide +kernel

end Stencil.Upload
