import Stencil.Proofs.Settings.Paths
import Stencil.Proofs.Template.Order
import Stencil.Proofs.Template.Refusing
import Stencil.Settings.Resolved

/-!
# Resolved settings are consistent

While settings are resolved, lookups answer from the settings as they are written. This makes no
difference: every reference to a setting comes to what the setting is resolved to. So two settings
that refer to the same one hold the same text of it, and so does a session of its own over the
settings as they are written, unless an expansion in it nests too deep.
-/

namespace Stencil

namespace Template

open Session

/-! ## Things that are resolved -/

/-- Over surroundings without a state, all functions are steady. -/
theorem Registry.steady_unit (registry : Registry Unit) :
    registry.Steady (fun _ => True) (fun _ => True) () where
  here := trivial
  answers _ _ _ _ := rfl
  keeps _ _ _ := trivial

section

variable {σ : Type} {registry : Registry σ} {world : σ} {α : Type} [Texts α] [LawfulTexts α]
  {thing output : α}

/-- A thing that is rendered without an error leaves a session without errors, and its texts are
what they were rendered to. -/
theorem session_of_result (h : (renderAll registry thing world).1.result = .ok output) :
    ((Subject.thing thing).session registry world).errors = [] ∧
      output = ((Texts.mapTexts (renderLeaf registry) thing).run (start world)).1 := by
  unfold Rendering.result at h
  split at h
  · cases h
  · rename_i hnone
    exact ⟨List.head?_eq_none_iff.1 hnone, (Except.ok.inj h).symm⟩

/-- The texts of a thing that is resolved are rendered to what they come to, where all functions
are steady. -/
theorem outputs_of_result (hk : registry.Keyed)
    (hs : registry.Steady (fun _ => True) (fun _ => True) world)
    (h : (renderAll registry thing world).1.result = .ok output) :
    outputs (renderLeaf registry) (LawfulTexts.texts thing) (start world) =
      (LawfulTexts.texts thing).map (meaning registry world) := by
  have hclean := (session_of_result h).1
  rw [Subject.session_eq_renderTexts] at hclean
  exact outputs_of_clean hk hs (fun _ _ _ _ _ _ _ _ => trivial) (.start hs) hclean

/-- Every text of a thing that is resolved is safe, where all functions are steady. -/
theorem safe_of_result (hk : registry.Keyed)
    (hs : registry.Steady (fun _ => True) (fun _ => True) world)
    (h : (renderAll registry thing world).1.result = .ok output) {t : String}
    (ht : t ∈ LawfulTexts.texts thing) : Safe registry (fun _ => True) world t :=
  @Subject.safe_of_mem _ _ _ _ (.thing thing) (session_of_result h).1 hk hs _ ht

end

end Template

namespace Settings

open Template Session

/-- The functions that settings are resolved with. -/
abbrev resolving (file : String) (raw : Config) (env : Environment) : Registry Unit :=
  .refusing (raw.lookup env) (.uploadsDisabled s!"upload: forbidden in {file}")
    (Namespace.ofSeed raw.hashNS)

namespace Resolved

variable {file : String} {raw : Config} {env : Environment} {r : Resolved}

/-- Settings are resolved by a session over them, and kept with what they were resolved with. -/
theorem result_of_resolve (h : resolve file raw env = .ok r) :
    (renderAll (resolving file raw env) raw ()).1.result = .ok r.config ∧
      r = ⟨file, raw, r.config, Namespace.ofSeed raw.hashNS, env⟩ := by
  unfold resolve at h
  have hsame : Registry.standard (closedSurroundings raw env s!"upload: forbidden in {file}")
      (Namespace.ofSeed raw.hashNS) = resolving file raw env := rfl
  simp only [hsame] at h
  generalize (renderAll (resolving file raw env) raw ()).1.result = result at h ⊢
  cases result with
  | error e => cases h
  | ok config =>
    cases h
    exact ⟨rfl, rfl⟩

/-- Every text of settings that are resolved is safe. -/
theorem safe_of_resolve (h : resolve file raw env = .ok r) {t : String}
    (ht : t ∈ LawfulTexts.texts raw) : Safe (resolving file raw env) (fun _ => True) () t :=
  safe_of_result (Registry.keyed_answering _ _ _) (Registry.steady_unit _)
    (result_of_resolve h).1 ht

/-- Resolved settings are those as written with what each text comes to in its place. -/
theorem config_of_resolve (h : resolve file raw env = .ok r) :
    r.config = raw.replace (meaning (resolving file raw env) ()) := by
  have hresult := (result_of_resolve h).1
  rw [(session_of_result hresult).2]
  exact Config.output_eq_replace
    (outputs_of_result (Registry.keyed_answering _ _ _) (Registry.steady_unit _) hresult)

/-- A reference that is answered with a text of settings that are resolved is unfailing, and comes
to what this text is resolved to. -/
theorem comes_of_resolve (h : resolve file raw env = .ok r) {q : Reference} {t : String}
    (hq : Returns (raw.lookup env)
      (fun _ w => (.error (.uploadsDisabled s!"upload: forbidden in {file}"), w))
      (Namespace.ofSeed raw.hashNS) () q t) (ht : t ∈ LawfulTexts.texts raw) :
    Unfailing (resolving file raw env) (fun _ => True) () q ∧
      q.meaning (resolving file raw env) () = meaning (resolving file raw env) () t := by
  obtain ⟨nodes, hread, hexpands⟩ := (safe_of_resolve h ht).expands
  refine ⟨.of_returns hq (safe_of_resolve h ht), ?_⟩
  rw [hexpands.meaning_eq]
  exact (comes_answering _ _ _ _).2 (.inr ⟨t, hq, hexpands⟩) |>.meaning_eq

end Resolved

/-- The settings give a text for a reference to it, by its path or by the name of a variable. -/
inductive Config.Gives (c : Config) : Reference → String → Prop
  | path {path t} : c.HasText path t → c.Gives ⟨"cfg", [path]⟩ t
  | name {name t} : Table.get? name c.values = some t → c.Gives ⟨"var", [name]⟩ t

namespace Config.Gives

variable {c : Config} {q : Reference} {t : String}

/-- What the settings give for a reference is one of their texts. -/
theorem mem_texts (h : c.Gives q t) : t ∈ LawfulTexts.texts c := by
  cases h with
  | path h => exact h.mem_texts
  | name h => exact mem_texts_of_values h

/-- Settings with other texts give these for the same references. -/
theorem replace (h : c.Gives q t) (value : String → String) :
    (c.replace value).Gives q (value t) := by
  cases h with
  | path h => exact .path (h.replace value)
  | name h =>
    refine .name ?_
    rw [values_replace, Table.get?_map fun _ => value, h]
    rfl

/-- Looked up in the settings, the reference is answered with the text. -/
theorem returns {σ : Type} (h : c.Gives q t) (env : Environment)
    (register : String → σ → Except Error String × σ) (ns : Namespace) (world : σ) :
    Returns (c.lookup env) register ns world q t := by
  cases h with
  | path h => exact .config h.atPath_eq
  | @name name t h =>
    refine .values ?_
    simp [Config.lookup, Function.first, h]

end Config.Gives

/-- Resolved settings are the settings as written with one value for each reference, wherever it
stands. The value of a reference to a text of the settings is what this text is resolved to, and a
session of its own over the settings as written renders a call of the reference to it, unless an
expansion in it nests too deep. -/
theorem resolved_consistently {file : String} {raw : Config} {env : Environment} {r : Resolved}
    (h : Resolved.resolve file raw env = .ok r) {σ : Type}
    (register : String → σ → Except Error String × σ) (world : σ) :
    ∃ (resolved : String → String) (value : Reference → String),
      r.config = raw.replace resolved ∧
      (∀ t ∈ LawfulTexts.texts raw, ∃ nodes,
        (Registry.answering (raw.lookup env) register r.ns).read t = .ok nodes ∧
        resolved t = String.join (nodes.map (Node.filled value))) ∧
      (∀ path t, raw.HasText path t → r.config.atPath path = .ok (value ⟨"cfg", [path]⟩)) ∧
      ∀ q t, raw.Gives q t → r.config.Gives q (value q) ∧
        ∀ text c, (Registry.answering (raw.lookup env) register r.ns).read text = .ok [.call c] →
          c.reference = q →
          (render (.answering (raw.lookup env) register r.ns) text world).1 = ⟨value q, none⟩ ∨
          ∃ key, (render (.answering (raw.lookup env) register r.ns) text world).1.error =
            some (.tooDeep key maxDepth) := by
  have hns : r.ns = Namespace.ofSeed raw.hashNS := by
    rw [(Resolved.result_of_resolve h).2]
  have hconfig := Resolved.config_of_resolve h
  -- The text behind a reference is among those that were resolved, so it came to something.
  have hcomes {q : Reference} {t : String} (hq : raw.Gives q t) :=
    Resolved.comes_of_resolve h (hq.returns env _ _ ()) hq.mem_texts
  have hvalue {q : Reference} {t : String} (hq : raw.Gives q t) :
      r.config.Gives q (q.meaning (resolving file raw env) ()) := by
    rw [(hcomes hq).2, hconfig]
    exact hq.replace _
  rw [hns]
  refine ⟨meaning (resolving file raw env) (), Reference.meaning (resolving file raw env) (),
    hconfig, fun t ht => ?_, fun path t hpath => ?_, fun q t hq => ⟨hvalue hq, ?_⟩⟩
  · obtain ⟨nodes, hread, hexpands⟩ := (Resolved.safe_of_resolve h ht).expands
    exact ⟨nodes, (Registry.read_refusing t).trans hread, hexpands.meaning_eq⟩
  · rw [(hcomes (.path hpath)).2, hconfig]
    exact (hpath.replace _).atPath_eq
  · rintro text c hread rfl
    exact render_call_of_refusing (hcomes hq).1 hread world

/-- Settings where a container is named after the identifier, and this after a variable. -/
abbrev crossReferring : Config where
  id := "\x7b\x7bvar `name`\x7d\x7d"
  values := [("name", "demo")]
  storage := { containerName := placeholder "id" }

/-- The identifier is the same wherever it is asked for. -/
theorem resolved_consistently_crossReferring :
    ∃ r, Resolved.resolve "settings" crossReferring [] = .ok r ∧
      r.config.storage.containerName = "demo" ∧ r.config.atPath "id" = .ok "demo" ∧
      (render (.answering (crossReferring.lookup []) (fun _ w => (.ok "", w)) r.ns)
        (placeholder "id") ()).1 = ⟨"demo", none⟩ := by
  have hsome : (Resolved.resolve "settings" crossReferring []).toOption.map
      (fun r => (r.config.storage.containerName, r.config.id)) = some ("demo", "demo") := by
    decide +kernel
  obtain ⟨r, hr, hvalues⟩ := Option.map_eq_some_iff.1 hsome
  obtain ⟨hcontainer, hid⟩ := Prod.mk.inj hvalues
  have h := eq_ok_of_toOption hr
  have hmem : ("id", .single (.text ⟨(·.id), fun x a => { a with id := x }⟩)) ∈ Config.parts := by
    simp [Config.parts]
  have hat : r.config.atPath "id" = .ok "demo" := hid ▸ (Config.HasText.single hmem).atPath_eq
  obtain ⟨resolved, value, -, -, hpath, hgives⟩ :=
    resolved_consistently h (fun _ w => (.ok "", w)) ()
  have hvalue : value ⟨"cfg", ["id"]⟩ = "demo" :=
    Except.ok.inj ((hpath "id" _ (.single hmem)).symm.trans hat)
  have hns : r.ns = Namespace.ofSeed "" := by
    rw [(Resolved.result_of_resolve h).2]
  refine ⟨r, h, hcontainer, hat, ?_⟩
  rw [hns] at hgives ⊢
  -- Nothing nests deeply here, so the other way out is closed by running the session.
  rcases (hgives _ _ (.path (.single hmem))).2 (placeholder "id") ⟨"cfg", ["id"], 1⟩
    (eq_ok_of_toOption (by decide +kernel)) rfl with hrendered | ⟨key, hkey⟩
  · rw [hrendered, hvalue]
  · have hclean : (render (.answering (crossReferring.lookup []) (fun _ w => (.ok "", w))
        (Namespace.ofSeed "")) (placeholder "id") ()).1.error = none := by decide +kernel
    cases hclean.symm.trans hkey

end Settings

end Stencil
