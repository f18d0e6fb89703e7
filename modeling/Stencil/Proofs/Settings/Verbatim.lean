import Stencil.Proofs.Settings.Consistency
import Stencil.Proofs.Template.Rendering

/-!
# Resolved settings in templates

A template that asks for a setting gets what the setting was resolved to, as it stands, if this
holds no opening braces. A setting may be resolved to a text that does hold them, by a literal in
it; then it is a template like all that functions return, and is expanded once more.
-/

namespace Stencil

namespace Template

open Session

variable {σ : Type} {registry : Registry σ} {world : σ}

/-- A text without opening braces comes to itself. -/
theorem expandsBelow_of_plain {text : String} (h : Plain text.toList) (n : Nat) :
    ExpandsBelow registry world (n + 1) text text := by
  have hparse : parse text = .ok (textNodes false false text.toList) := parseFrom_of_plain h
  refine ⟨textNodes false false text.toList, ?_, ?_⟩
  · rw [Registry.read, hparse, textNodes]
    split_ifs <;> rfl
  · by_cases hempty : text.toList = []
    · have htext : text = "" := String.toList_injective hempty
      rw [htext]
      exact .nil
    · rw [textNodes]
      simp only [Bool.false_eq_true, if_false, List.isEmpty_iff, hempty, String.ofList_toList]
      have hwrites : Writes registry world (ExpandsBelow registry world n) [.text text]
        (text ++ "") := .text .nil
      rwa [String.append_empty] at hwrites

/-- A text that is a call of an expanding function comes to what its answer comes to. -/
theorem expands_call_iff {text raw out : String} {c : Call} {f : Function σ}
    (hread : registry.read text = .ok [.call c]) (hf : Table.get? c.name registry = some f)
    (hx : f.expands = true) (hraw : (f.call c.args world).1 = .ok raw) :
    Expands registry world text out ↔ Expands registry world raw out := by
  constructor
  · rintro ⟨hread', hwrites⟩
    obtain rfl := Except.ok.inj (hread.symm.trans hread')
    obtain ⟨v, rest, rfl, hcomes, hnil⟩ := hwrites.call_inv
    obtain ⟨raw', hraw', hv⟩ := hcomes.expanding_inv hf hx
    obtain rfl := Except.ok.inj (hraw.symm.trans hraw')
    cases hnil
    rwa [String.append_empty]
  · intro h
    have hwrites := Writes.call (c := c) (.expanding hf hx hraw h) .nil
    rw [String.append_empty] at hwrites
    exact .intro hread hwrites

/-- A text that is a single call comes to what the answer of the call comes to, one level deeper. -/
theorem expandsWithin_call {text raw out : String} {c : Call} {f : Function σ} {n : Nat}
    (hread : registry.read text = .ok [.call c]) (hf : Table.get? c.name registry = some f)
    (hx : f.expands = true) (hraw : (f.call c.args world).1 = .ok raw)
    (h : ExpandsBelow registry world n raw out) : ExpandsWithin registry world n text out := by
  have hwrites := Writes.call (c := c) (.expanding hf hx hraw h) .nil
  rw [String.append_empty] at hwrites
  exact ⟨_, hread, hwrites⟩

/-- A placeholder reads as a call over the standard functions. -/
theorem Registry.read_placeholder (answer : Domain → String → Except Error String)
    (register : String → σ → Except Error String × σ) (ns : Namespace) {key : String}
    (h : rawMark ∉ key.toList) :
    (Registry.answering answer register ns).read (placeholder key) =
      .ok [.call ⟨"cfg", [key], 1⟩] := by
  rw [Registry.read, parse_placeholder h, Registry.answering, Registry.standard_eq]
  rfl

end Template

namespace Settings

open Template Session Upload

/-- A call for a setting over resolved settings is rendered to the text of the setting as it stands,
if that holds no opening braces. If it does, the text is a template once more: the call is rendered
to nothing but what this comes to, and to that if expanding calls in it nest less deep than a
session allows. -/
theorem setting_in_template (r : Resolved) {u : Uploader} (hu : u.Reachable) {path v : String}
    (hv : follow path (Text.splitString '.' path) r.config.value = .ok (.text v)) {text : String}
    {c : Call} (hread : (Command.registry r).read text = .ok [.call c])
    (hc : c.reference = ⟨"cfg", [path]⟩) :
    (Plain v.toList → (render (Command.registry r) text u).1 = ⟨v, none⟩) ∧
      ((render (Command.registry r) text u).1.error = none →
        Expands (Command.registry r) u v (render (Command.registry r) text u).1.output) ∧
      ∀ out, ExpandsWithin (Command.registry r) u (maxDepth - 1) v out →
        (render (Command.registry r) text u).1 = ⟨out, none⟩ := by
  have hat : r.config.atPath path = .ok v := by
    rw [Config.atPath, hv]
    rfl
  obtain ⟨hname, hargs⟩ := Reference.mk.inj hc
  rw [command_registry] at hread ⊢
  have hf : Table.get? c.name (Registry.answering r.lookup Uploader.register r.ns) =
      some (.lookup ⟨fun domain key w => (r.lookup domain key, w), Uploader.register⟩ .config) := by
    rw [hname, Registry.answering, Registry.standard_eq]
    rfl
  -- The call returns the text as it stands; what it comes to depends on the braces in it.
  have hraw : ((Function.lookup ⟨fun domain key w => (r.lookup domain key, w),
      Uploader.register⟩ .config).call c.args u).1 = .ok v := by
    rw [hargs]
    exact hat
  obtain ⟨hmeans, hrenders⟩ := render_meaning r.lookup r.ns hu text
  refine ⟨fun hplain => ?_, fun hnone => ?_, fun out hout => ?_⟩
  · exact hrenders v (expandsWithin_call hread hf rfl hraw (expandsBelow_of_plain hplain _))
  · exact (expands_call_iff hread hf rfl hraw).1 (hmeans hnone)
  · exact hrenders out (expandsWithin_call hread hf rfl hraw hout)

/-- The container of the settings that refer to each other, in a template. -/
theorem setting_in_template_crossReferring :
    ∃ r, Resolved.resolve "settings" crossReferring [] = .ok r ∧
      r.config.atPath "storage.containerName" = .ok "demo" ∧
      (render (Command.registry r) (placeholder "storage.containerName")
        (.disabled Command.noStorage)).1 = ⟨"demo", none⟩ := by
  have hsome : (Resolved.resolve "settings" crossReferring []).toOption.map
      (fun r => r.config.storage.containerName) = some "demo" := by
    decide +kernel
  obtain ⟨r, hr, hcontainer⟩ := Option.map_eq_some_iff.1 hsome
  have hgroup : ("storage", .group "StorageConfig" (Config.within Config.storagePlace
      Storage.settings)) ∈ Config.parts := by simp [Config.parts]
  have hmem : ("containerName", .text (Config.storagePlace.inside
      ⟨(·.containerName), fun x a => { a with containerName := x }⟩)) ∈
        Config.within Config.storagePlace Storage.settings := by
    simp [Config.within, Storage.settings, Setting.inside]
  have hpath : r.config.HasText "storage.containerName" "demo" := hcontainer ▸ .inner hgroup hmem
  have hread : (Command.registry r).read (placeholder "storage.containerName") = _ :=
    Registry.read_placeholder r.lookup Uploader.register r.ns (by decide)
  have hplain : Plain "demo".toList := plain_of_splitOpen (by decide)
  have hverbatim := (setting_in_template r (.disabled Command.noStorage) hpath.follow_eq hread
    rfl).1 hplain
  exact ⟨r, eq_ok_of_toOption hr, hpath.atPath_eq, hverbatim⟩

/-- Settings whose identifier holds opening braces as a literal, and a reference as a text. -/
abbrev escaping : Config where
  id := "\x7b\x7b`\x7b\x7b`\x7d\x7dcfg `tenantId`\x7d\x7d"
  tenantId := "tenant"

/-- A resolved setting that is expanded once more. -/
theorem resolved_setting_expanded_again :
    ∃ r, Resolved.resolve "settings" escaping [] = .ok r ∧
      follow "id" (Text.splitString '.' "id") r.config.value =
        .ok (.text (placeholder "tenantId")) ∧
      (Command.registry r).read (placeholder "id") = .ok [.call ⟨"cfg", ["id"], 1⟩] ∧
      (render (Command.registry r) (placeholder "id") (.disabled Command.noStorage)).1 =
        ⟨"tenant", none⟩ := by
  have hsome : (Resolved.resolve "settings" escaping []).toOption.map (fun r =>
      (r.config.id, (render (Command.registry r) (placeholder "id")
        (.disabled Command.noStorage)).1.output, (render (Command.registry r) (placeholder "id")
        (.disabled Command.noStorage)).1.error)) =
      some (placeholder "tenantId", "tenant", none) := by
    decide +kernel
  obtain ⟨r, hr, hvalues⟩ := Option.map_eq_some_iff.1 hsome
  simp only [Prod.mk.injEq] at hvalues
  obtain ⟨hid, houtput, herror⟩ := hvalues
  have hmem : ("id", .single (.text ⟨(·.id), fun x a => { a with id := x }⟩)) ∈ Config.parts := by
    simp [Config.parts]
  refine ⟨r, eq_ok_of_toOption hr, hid ▸ (Config.HasText.single hmem).follow_eq, ?_, ?_⟩
  · exact Registry.read_placeholder r.lookup Uploader.register r.ns (by decide)
  · rw [← houtput, ← herror]

end Settings

end Stencil
