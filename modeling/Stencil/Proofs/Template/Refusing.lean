import Stencil.Proofs.Template.Failure
import Stencil.Proofs.Template.Likeness
import Stencil.Proofs.Template.Unfailing

/-!
# Texts that need no uploads

Over functions that refuse every upload, a text comes to something only without uploading. So it
comes to the same over any uploader, if lookups have the same answers. A session over it that starts
afresh renders it to this, unless an expansion in it nests too deep.
-/

namespace Stencil.Template

open Session

variable {σ : Type} {answer : Domain → String → Except Error String} {refusal : Error}
  {register : String → σ → Except Error String × σ} {ns : Namespace}

/-- The standard functions with fixed answers for lookups, where every upload is refused. -/
abbrev Registry.refusing (answer : Domain → String → Except Error String) (refusal : Error)
    (ns : Namespace) : Registry Unit :=
  .answering answer (fun _ w => (.error refusal, w)) ns

/-- Which texts pass their checks does not depend on the uploads. -/
theorem Registry.read_refusing (text : String) :
    (Registry.answering answer register ns).read text =
      (Registry.refusing answer refusal ns).read text := by
  have hlike : Registry.Like (fun (_ : σ) (_ : Unit) => False)
      (.answering answer register ns) (.refusing answer refusal ns) := by
    intro name
    rw [Registry.answering, Registry.refusing, Registry.answering, Registry.standard_eq,
      Registry.standard_eq]
    simp only [Table.get?]
    split_ifs
    all_goals first
      | exact .none
      | exact .some ⟨rfl, rfl, rfl, fun _ h => h.elim⟩
  exact hlike.read text

/-- What is answered where uploads are refused is answered alike everywhere. -/
theorem Registry.answer_of_refusing (register : String → σ → Except Error String × σ)
    {name : String} {args : List String} {f : Function Unit} {raw : String}
    (hf : Table.get? name (Registry.refusing answer refusal ns) = some f)
    (h : (f.call args ()).1 = .ok raw) :
    ∃ g, Table.get? name (Registry.answering answer register ns) = some g ∧
      g.expands = f.expands ∧ ∀ w, (g.call args w).1 = .ok raw := by
  rw [Registry.answering, Registry.standard_eq]
  rcases get?_standard hf with hn | hn | hn | hn | hn | hn | hn <;> obtain ⟨rfl, rfl⟩ := hn
  all_goals first
    | exact ⟨_, rfl, rfl, fun _ => h⟩
    | cases h

/-- Where uploads are refused, what is answered is not an upload. -/
theorem Registry.ne_upload_of_refusing {name : String} {args : List String} {f : Function Unit}
    {raw : String} (hf : Table.get? name (Registry.refusing answer refusal ns) = some f)
    (h : (f.call args ()).1 = .ok raw) : name ≠ "upload" := by
  rintro rfl
  rw [Registry.refusing, Registry.answering, Registry.standard_eq] at hf
  cases hf
  cases h

/-- What a text comes to where uploads are refused, it comes to everywhere. -/
theorem Expands.of_refusing {text out : String}
    (h : Expands (.refusing answer refusal ns) () text out) (world : σ) :
    Expands (.answering answer register ns) world text out := by
  -- The induction is on the derivation, nodes and nested texts together.
  refine @Expands.rec Unit (.refusing answer refusal ns) ()
    (fun text out _ => Expands (.answering answer register ns) world text out)
    (fun nodes out _ => Writes (.answering answer register ns) world
      (Expands (.answering answer register ns) world) nodes out)
    ?_ ?_ ?_ ?_ ?_ ?_ _ _ h
  · intro text nodes out hread _ ih
    exact .intro ((Registry.read_refusing text).trans hread) ih
  · exact .nil
  · exact fun _ ih => .text ih
  · exact fun _ ih => .literal ih
  · intro c f v rest out hf hx hv _ ih
    obtain ⟨g, hg, hgx, hgv⟩ := Registry.answer_of_refusing register hf hv
    exact .plain hg (hgx.trans hx) (hgv world) ih
  · intro c f raw v rest out hf hx hraw _ _ ihv ih
    obtain ⟨g, hg, hgx, hgraw⟩ := Registry.answer_of_refusing register hf hraw
    exact .expanding hg (hgx.trans hx) (hgraw world) ihv ih

namespace Unfailing

variable {r : Reference}

/-- A reference that does not fail where uploads are refused fails nowhere. -/
theorem of_refusing
    (h : Unfailing (.refusing answer refusal ns) (fun _ => True) () r) (names : String → Prop)
    (world : σ) : Unfailing (.answering answer register ns) names world r := by
  induction h with
  | other hno => exact absurd trivial hno
  | plain hf hx hv =>
    obtain ⟨g, hg, hgx, hgv⟩ := Registry.answer_of_refusing register hf hv
    exact .plain hg (hgx.trans hx) (hgv world)
  | expanding hf hx hraw hread _ ih =>
    obtain ⟨g, hg, hgx, hgraw⟩ := Registry.answer_of_refusing register hf hraw
    exact .expanding hg (hgx.trans hx) (hgraw world) ((Registry.read_refusing _).trans hread) ih

/-- A reference that is unfailing where uploads are refused is none to an upload. -/
theorem name_ne_upload (h : Unfailing (.refusing answer refusal ns) (fun _ => True) () r) :
    r.name ≠ "upload" := by
  cases h with
  | other hno => exact absurd trivial hno
  | plain hf _ hv => exact Registry.ne_upload_of_refusing hf hv
  | expanding hf _ hraw _ _ => exact Registry.ne_upload_of_refusing hf hraw

/-- The references that do not fail where uploads are refused lead to no others. -/
theorem closed_refusing : (Registry.answering answer register ns).Closed
    (Unfailing (.refusing answer refusal ns) (fun _ => True) ()) := by
  intro r g w raw nodes c hr hg hx hraw hread hc
  cases hr with
  | other hno => exact absurd trivial hno
  | plain hf hx' hv =>
    obtain ⟨g', hg', hgx, -⟩ := Registry.answer_of_refusing register hf hv
    obtain rfl := Option.some.inj (hg.symm.trans hg')
    rw [hgx, hx'] at hx
    cases hx
  | expanding hf _ hraw' hread' hall =>
    obtain ⟨g', hg', -, hgraw⟩ := Registry.answer_of_refusing register hf hraw'
    obtain rfl := Option.some.inj (hg.symm.trans hg')
    obtain rfl := Except.ok.inj (hraw.symm.trans (hgraw w))
    rw [Registry.read_refusing, hread'] at hread
    exact hall c (Except.ok.inj hread ▸ hc)

end Unfailing

/-! ## What references come to -/

/-- What a node is written as, with a value for each reference. -/
def Node.filled (value : Reference → String) : Node → String
  | .text t => t
  | .literal t => t
  | .call c => value c.reference

section

variable {registry : Registry σ} {world : σ}

open Classical in
/-- What a reference comes to, if it comes to something. -/
noncomputable def Reference.meaning (registry : Registry σ) (world : σ) (r : Reference) : String :=
  if h : ∃ v, Comes registry world (Expands registry world) r v then h.choose else ""

/-- A reference that comes to something means that. -/
theorem Comes.meaning_eq {r : Reference} {v : String}
    (h : Comes registry world (Expands registry world) r v) : r.meaning registry world = v := by
  have hex : ∃ v, Comes registry world (Expands registry world) r v := ⟨v, h⟩
  rw [Reference.meaning, dif_pos hex]
  exact hex.choose_spec.value_unique h

/-- Nodes are written with what their references come to, if these all come to something. -/
theorem writes_filled {nodes : List Node} (h : ∀ c, .call c ∈ nodes →
    Comes registry world (Expands registry world) c.reference
      (c.reference.meaning registry world)) :
    Writes registry world (Expands registry world) nodes
      (String.join (nodes.map (Node.filled (Reference.meaning registry world)))) := by
  induction nodes with
  | nil => exact .nil
  | cons node rest ih =>
    have hrest := ih fun c hc => h c (List.mem_cons_of_mem _ hc)
    rw [List.map_cons, String.join_cons]
    cases node with
    | text t => exact .text hrest
    | literal t => exact .literal hrest
    | call c => exact .call (h c List.mem_cons_self) hrest

/-- An unfailing reference comes to something. -/
theorem Unfailing.comes {r : Reference} (h : Unfailing registry (fun _ => True) world r) :
    Comes registry world (Expands registry world) r (r.meaning registry world) := by
  induction h with
  | other hno => exact absurd trivial hno
  | plain hf hx hv =>
    have hcomes : Comes registry world (Expands registry world) _ _ := .plain hf hx hv
    rwa [hcomes.meaning_eq]
  | expanding hf hx hraw hread _ ih =>
    have hcomes := Comes.expanding hf hx hraw (Expands.intro hread (writes_filled ih))
    rwa [hcomes.meaning_eq]

/-- A reference that a safe text is returned for is unfailing. -/
theorem Unfailing.of_returns {names : String → Prop} {r : Reference} {raw : String}
    (h : Returns answer register ns world r raw)
    (hsafe : Safe (.answering answer register ns) names world raw) :
    Unfailing (.answering answer register ns) names world r := by
  obtain ⟨nodes, hread, hall⟩ := hsafe
  rw [Registry.answering, Registry.standard_eq] at hread hall ⊢
  cases h with
  | config h => exact .expanding rfl rfl h hread hall
  | values h => exact .expanding rfl rfl h hread hall
  | environment h => exact .expanding rfl rfl h hread hall
  | upload h => exact .expanding rfl rfl h hread hall
  | id => exact .expanding rfl rfl rfl hread hall
  | uploadPrefix => exact .expanding rfl rfl rfl hread hall

/-- A safe text comes to its nodes with what their references come to. -/
theorem Safe.expands {text : String} (h : Safe registry (fun _ => True) world text) :
    ∃ nodes, registry.read text = .ok nodes ∧ Expands registry world text
      (String.join (nodes.map (Node.filled (Reference.meaning registry world)))) := by
  obtain ⟨nodes, hread, hall⟩ := h
  exact ⟨nodes, hread, .intro hread (writes_filled fun c hc => (hall c hc).comes)⟩

end

/-! ## Sessions that start afresh -/

/-- A text that is safe where uploads are refused is rendered in a session of its own to what it
comes to there, over any uploader, unless an expansion in it nests too deep. -/
theorem render_of_refusing {text out : String}
    (hsafe : Safe (.refusing answer refusal ns) (fun _ => True) () text)
    (h : Expands (.refusing answer refusal ns) () text out) (world : σ) :
    (render (.answering answer register ns) text world).1 = ⟨out, none⟩ ∨
      ∃ key, (render (.answering answer register ns) text world).1.error =
        some (.tooDeep key maxDepth) := by
  have hk := Registry.keyed_answering answer register ns
  have hs := steady_answering answer register ns world
  have hq := quiet_answering answer register ns
  obtain ⟨nodes, hread, hall⟩ := hsafe
  have hread' : (Registry.answering answer register ns).read text = .ok nodes :=
    (Registry.read_refusing text).trans hread
  -- A safe text leads to no upload, so refusing uploads makes no difference to it.
  have hnames : ∀ n c s,
      (Subject.text text).Visits (.answering answer register ns) world n c s →
        c.name ≠ "upload" := by
    intro n c s hv
    have hu : Unfailing (.refusing answer refusal ns) (fun _ => True) () c.reference := by
      refine hv.of_closed Unfailing.closed_refusing fun t ht nodes' d hr hd => ?_
      obtain rfl := List.mem_singleton.1 ht
      exact hall d (Except.ok.inj (hread'.symm.trans hr) ▸ hd)
    exact hu.name_ne_upload
  have hsafe' : ∀ t ∈ (Subject.text text).texts,
      Safe (.answering answer register ns) (· ≠ "upload") world t := by
    intro t ht
    obtain rfl := List.mem_singleton.1 ht
    exact ⟨nodes, hread', fun c hc => (hall c hc).of_refusing _ world⟩
  -- A safe text can fail only by nesting too deep.
  rcases Subject.clean_or_cutOff hk hs hq hsafe' hnames with hclean | ⟨c, s, -, hhead⟩
  · left
    obtain ⟨-, hright⟩ := Evaluation.sound (e := ⟨maxDepth, text, start world⟩) hk hs
      (fun n c s hv => hnames n c s ⟨[], text, [], rfl, hv⟩) (.start hs)
    have herrors := hclean.errors
    rw [Subject.session, renderText, evaluate_of_read_ok hread'] at herrors
    rw [Evaluation.result, evaluate_of_read_ok hread'] at hright
    have hout := (hright _ rfl herrors).unique (h.of_refusing world)
    rw [render, renderText, evaluate_of_read_ok hread']
    simp only [ending]
    rw [herrors, hout]
    rfl
  · exact .inr ⟨c.key.text, hhead⟩

/-- A call by itself, of a reference that does not fail where uploads are refused, is rendered to
what the reference comes to, unless an expansion in it nests too deep. -/
theorem render_call_of_refusing {text : String} {c : Call}
    (h : Unfailing (.refusing answer refusal ns) (fun _ => True) () c.reference)
    (hread : (Registry.answering answer register ns).read text = .ok [.call c]) (world : σ) :
    (render (.answering answer register ns) text world).1 =
        ⟨c.reference.meaning (.refusing answer refusal ns) (), none⟩ ∨
      ∃ key, (render (.answering answer register ns) text world).1.error =
        some (.tooDeep key maxDepth) := by
  have hread' : (Registry.refusing answer refusal ns).read text = .ok [.call c] :=
    (Registry.read_refusing text).symm.trans hread
  refine render_of_refusing ⟨_, hread', fun d hd => ?_⟩ (.intro hread' ?_) world
  · rw [List.mem_singleton, Node.call.injEq] at hd
    exact hd ▸ h
  · have hwrites := Writes.call h.comes .nil
    rwa [String.append_empty] at hwrites

end Stencil.Template
