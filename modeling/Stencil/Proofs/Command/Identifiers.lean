import Stencil.Proofs.Command.Course
import Stencil.Proofs.Command.Precedence
import Stencil.Proofs.Command.Spelling
import Stencil.Proofs.Template.Grammar
import Stencil.Proofs.Template.Reference
import Stencil.Proofs.Template.Steps
import Stencil.Proofs.Upload.Braces

/-!
# Identifiers by either command

An identifier can be asked for by a call in a template, or from a command of its own. Both derive it
from the seed that the settings are settled with, so they agree wherever a seed is configured. With
a seed among the options the second command needs no settings, and asks the machine for nothing.
-/

namespace Stencil

namespace Template

open Session

variable {σ : Type} {registry : Registry σ}

theorem join_singleton (text : String) : String.join [text] = text := by
  rw [String.join, List.foldl_cons, List.foldl_nil, String.empty_append]

/-- A text without opening braces is evaluated to itself. -/
theorem evaluate_of_plain {text : String} (h : Plain text.toList) (n : Nat) (s : Session σ) :
    evaluate registry n text s = (.ok text, s) := by
  have hread : registry.read text = .ok (textNodes false false text.toList) := by
    have hparse : parse text = .ok (textNodes false false text.toList) := parseFrom_of_plain h
    rw [Registry.read, hparse, textNodes]
    split_ifs <;> rfl
  rw [evaluate_of_read_ok hread]
  by_cases hempty : text.toList = []
  · have htext : text = "" := String.toList_injective hempty
    rw [htext]
    rfl
  · simp only [textNodes, Bool.false_eq_true, if_false, List.isEmpty_iff, hempty,
      String.ofList_toList, writeNodes, join_singleton]

/-- A text that is a single call of a function that only returns a text without opening braces is
rendered to that, and the surroundings stay as they are. -/
theorem render_call {text value : String} {c : Call} {f : Function σ} {world : σ}
    (hread : registry.read text = .ok [.call c]) (hf : Table.get? c.name registry = some f)
    (hcall : ∀ w, f.call c.args w = (.ok value, w)) (hplain : Plain value.toList) :
    render registry text world = (⟨value, none⟩, world) := by
  have hinvoke : ∃ memo,
      invokeAt registry maxDepth c (start world) = (value, ⟨memo, [], world⟩) := by
    by_cases hx : f.expands = true
    · have ho : Opens registry c (start world) f := ⟨hf, hx, rfl, by simp [start], List.not_mem_nil⟩
      have hlaunched : (start world).launched c f =
          ⟨{ (start world).memo with inFlight := [c.key] }, [], world⟩ := by
        rw [launched, hcall]
        rfl
      rw [show maxDepth = 127 + 1 from rfl, invokeAt_of_opens ho, hcall]
      dsimp only
      rw [evaluate_of_plain hplain, hlaunched]
      exact ⟨_, rfl⟩
    · rw [invokeAt, invoke, hf]
      refine ⟨(start world).memo, ?_⟩
      simp only [hx, Session.run, hcall]
      rfl
  obtain ⟨memo, hinvoke⟩ := hinvoke
  rw [render, renderText, evaluate_of_read_ok hread]
  simp only [writeNodes, hinvoke, join_singleton]
  rfl

end Template

/-! ## Identifiers as texts -/

/-- The digits of an octet are no braces. -/
theorem brace_not_mem_hexPair (b : UInt8) : '{' ∉ Text.hexPair b := by
  have hdigit : ∀ n < 16, '{' ≠ Nat.digitChar n := by decide
  have hb : b.toNat < 256 := b.toNat_lt
  rw [Text.hexPair, List.mem_cons, List.mem_singleton, not_or]
  exact ⟨hdigit _ (by omega), hdigit _ (by omega)⟩

/-- An identifier is written without braces. -/
theorem Identifier.plain_text (x : Identifier) : Template.Plain x.text.toList := by
  have hdigits : '{' ∉ x.octets.flatMap Text.hexPair := by
    rw [List.mem_flatMap]
    rintro ⟨b, -, hb⟩
    exact brace_not_mem_hexPair b hb
  have hgroup (start size : Nat) :
      '{' ∉ ((x.octets.flatMap Text.hexPair).drop start).take size := fun h =>
    hdigits (List.mem_of_mem_drop (List.mem_of_mem_take h))
  have hmem (part rest : List Char) : '{' ∉ part → '{' ∉ rest → '{' ∉ part ++ '-' :: rest := by
    intro hpart hrest
    simp [hpart, hrest]
  apply Template.plain_of_not_mem
  rw [Identifier.text, String.toList_ofList]
  simp only [List.append_assoc, List.cons_append]
  exact hmem _ _ (hgroup _ _) (hmem _ _ (hgroup _ _) (hmem _ _ (hgroup _ _) (hmem _ _ (hgroup _ _)
    (hgroup _ _))))

namespace Command

open Settings (Config Environment Overrides Resolved)
open Template (Call Reference Session)
open Upload (Uploader)

/-! ## The same identifier -/

/-- The call that asks for an identifier in a template. -/
def Wanted.reference : Wanted → Reference
  | .parts ps => ⟨"hash", ps⟩
  | .id => ⟨"id", []⟩
  | .folder => ⟨"prefix", []⟩

/-- A call for an identifier is rendered to it. -/
theorem render_wanted (r : Resolved) (u : Uploader) {wanted : Wanted} (hwanted : wanted ≠ .parts [])
    {text : String} {c : Call} (hparse : Template.parse text = .ok [.call c])
    (hc : c.reference = wanted.reference) :
    Session.render (registry r) text u = (⟨(wanted.identifier r.ns).text, none⟩, u) := by
  have hstandard : registry r = _ := Template.Registry.standard_eq (surroundings r) r.ns
  suffices h : ∃ f, Table.get? c.name (registry r) = some f ∧
      f.arity.accepts c.args.length = true ∧
      ∀ w, f.call c.args w = (.ok (wanted.identifier r.ns).text, w) by
    obtain ⟨f, hf, harity, hcall⟩ := h
    have hread : (registry r).read text = .ok [.call c] := by
      rw [Template.Registry.read, hparse]
      simp only [Template.Registry.checkNodes, Template.Registry.check, hf, harity]
      rfl
    exact Template.render_call hread hf hcall (Identifier.plain_text _)
  have hargs : c.args = wanted.reference.args := congrArg Reference.args hc
  rw [hstandard, show c.name = wanted.reference.name from congrArg Reference.name hc, hargs]
  cases wanted with
  | parts ps =>
    refine ⟨.hash r.ns, rfl, ?_, fun _ => rfl⟩
    have hlength : 1 ≤ ps.length := List.length_pos_iff.mpr fun hnil => hwanted (hnil ▸ rfl)
    exact decide_eq_true hlength
  | id => exact ⟨.constant r.ns.id, rfl, rfl, fun _ => rfl⟩
  | folder => exact ⟨.constant r.ns.uploadPrefix, rfl, rfl, fun _ => rfl⟩

/-! ## Seeds -/

/-- The first thing that stands in two lists of places is that of the first list, if there is
any. -/
theorem firstNonEmpty_append (items rest : List (Option String)) :
    Settings.firstNonEmpty (items ++ rest) =
      (Settings.firstNonEmpty items).or (Settings.firstNonEmpty rest) :=
  List.findSome?_append

/-- A fresh seed plays no part where another one is configured. -/
theorem settle_seeded {given : Option String} {written : String}
    (h : Settings.firstNonEmpty [given, some written] ≠ none) (fresh fresh' : String) :
    Overrides.settle given written fresh = Overrides.settle given written fresh' := by
  have happend (fallback : String) := firstNonEmpty_append [given, some written] [some fallback]
  obtain ⟨seed, hseed⟩ := Option.ne_none_iff_exists'.mp h
  simp only [List.cons_append, List.nil_append, hseed, Option.some_or] at happend
  rw [Overrides.settle, Overrides.settle, happend, happend]

/-- A seed among the options comes before any other. -/
theorem settle_of_given {given : Option String} {seed : String}
    (h : Settings.firstNonEmpty [given] = some seed) (written fresh : String) :
    Overrides.settle given written fresh = seed := by
  have happend := firstNonEmpty_append [given] [some written, some fresh]
  rw [h, List.singleton_append, Option.some_or] at happend
  rw [Overrides.settle, happend]
  rfl

/-- Settings are loaded from their file, a seed is drawn, and then they are resolved. -/
theorem load_run {ω : Type} (host : Host (StateM ω)) (env : Environment) (o : Options) (w : ω) :
    (Resolved.load host o.file o.overrides env).run w =
      match (Config.load host o.file).run w with
      | (.error failure, w) => (.error failure, w)
      | (.ok (path, written), w) =>
        match host.freshSeed.run w with
        | (fresh, w) => (Resolved.resolve path (o.overrides.apply fresh written) env, w) := by
  unfold Resolved.load
  rw [StateT.run_bind]
  generalize (Config.load host o.file).run w = loaded
  obtain ⟨failure | ⟨path, written⟩, w₁⟩ := loaded <;> rfl

/-- Identifiers are derived from the seed that the settings are settled with. -/
theorem ns_of_resolve {path : String} {raw : Config} {env : Environment} {r : Resolved}
    (h : Resolved.resolve path raw env = .ok r) : r.ns = Namespace.ofSeed raw.hashNS := by
  unfold Resolved.resolve at h
  dsimp only at h
  split at h
  · cases h
  · cases h
    rfl

/-- A configured seed takes effect on a workspace: no fresh one is used with its settings. -/
def Seeded (w : Workspace) (o : Options) : Prop :=
  ∀ path written w', (Config.load Workspace.host o.file).run w = (.ok (path, written), w') →
    Settings.firstNonEmpty [o.overrides.hashNS, some written.hashNS] ≠ none

/-- A workspace, and one that differs from it in the fresh seed only. -/
def Reseeded (s t : Workspace) : Prop := ∃ seed, t = { s with seed }

/-- Reading settings does not depend on the fresh seed. -/
theorem loadAlike_reseeded (file : String) :
    Settings.LoadAlike Reseeded Workspace.host Workspace.host file where
  look path _ := by
    rintro s _ ⟨seed, rfl⟩
    exact ⟨rfl, seed, rfl⟩
  read path _ := by
    rintro s _ ⟨seed, rfl⟩
    exact ⟨rfl, seed, rfl⟩
  readInput := by
    rintro s _ ⟨seed, rfl⟩
    exact ⟨rfl, seed, rfl⟩

variable {w w₁ : Workspace} {env : Environment} {o : Options} {r : Resolved}

/-- Where a configured seed takes effect, the fresh one plays no part. -/
theorem load_reseeded (hseeded : Seeded w o)
    (hload : (Resolved.load Workspace.host o.file o.overrides env).run w = (.ok r, w₁))
    (seed : String) :
    ∃ w₂, (Resolved.load Workspace.host o.file o.overrides env).run { w with seed } =
      (.ok r, w₂) := by
  rw [load_run] at hload ⊢
  obtain ⟨hanswer, seed', hmachine⟩ :=
    (loadAlike_reseeded o.file).config w { w with seed } ⟨seed, rfl⟩
  generalize hconfig : (Config.load Workspace.host o.file).run w = loaded at hload hanswer hmachine
  obtain ⟨failure | ⟨path, written⟩, w₂⟩ := loaded
  · cases hload
  · have hreseeded : (Config.load Workspace.host o.file).run { w with seed } =
        (.ok (path, written), { w₂ with seed := seed' }) := Prod.ext hanswer.symm hmachine
    have happly : o.overrides.apply seed' written = o.overrides.apply w₂.seed written := by
      simp only [Overrides.apply, settle_seeded (hseeded _ _ _ hconfig) seed' w₂.seed]
    have hresolve : Resolved.resolve path (o.overrides.apply w₂.seed written) env = .ok r :=
      congrArg Prod.fst hload
    rw [hreseeded]
    refine ⟨{ w₂ with seed := seed' }, ?_⟩
    show (Resolved.resolve path (o.overrides.apply seed' written) env, _) = _
    rw [happly, hresolve]
    rfl

/-- A seed among the options is the one that identifiers are derived from. -/
theorem ns_of_option {seed : String}
    (hseed : Settings.firstNonEmpty [o.overrides.hashNS] = some seed)
    (hload : (Resolved.load Workspace.host o.file o.overrides env).run w = (.ok r, w₁)) :
    r.ns = Namespace.ofSeed seed := by
  rw [load_run] at hload
  generalize (Config.load Workspace.host o.file).run w = loaded at hload
  obtain ⟨failure | ⟨path, written⟩, w₂⟩ := loaded
  · cases hload
  · have hresolve : Resolved.resolve path (o.overrides.apply w₂.seed written) env = .ok r :=
      congrArg Prod.fst hload
    rw [ns_of_resolve hresolve]
    exact congrArg Namespace.ofSeed (settle_of_given hseed written.hashNS w₂.seed)

/-- The command for identifiers derives them as the settings do, whatever the fresh seed is, and
leaves a workspace untouched. -/
theorem namespaceOf_reseeded (hseeded : Seeded w o)
    (hload : (Resolved.load Workspace.host o.file o.overrides env).run w = (.ok r, w₁))
    (seed : String) :
    ∃ w₂, ((namespaceOf Workspace.host env o).run).run { w with seed } = (.ok r.ns, w₂) ∧
      Workspace.Untouched { w with seed } w₂ := by
  unfold namespaceOf
  cases hoption : Settings.firstNonEmpty [o.overrides.hashNS] with
  | some given =>
    rw [ns_of_option hoption hload]
    exact ⟨{ w with seed }, rfl, .refl _⟩
  | none =>
    obtain ⟨w₂, hreseeded⟩ := load_reseeded hseeded hload seed
    have huntouched := Workspace.untouched_load env o { w with seed }
    rw [hreseeded] at huntouched
    refine ⟨w₂, ?_, huntouched⟩
    dsimp only
    rw [ExceptT.run_bind, run_load, StateT.run_bind, StateT.run_map, hreseeded]
    rfl

/-! ## Printing -/

/-- With a seed among the options, an identifier is printed and nothing else is done. -/
theorem run_hash_seeded {m : Type → Type} [Monad m] [LawfulMonad m] (host : Host m)
    {env : Environment} {args : List String} {o : Options} {wanted : Wanted} {seed : String}
    (h : Request.ofArguments env args = .ok ⟨o, .hash wanted⟩)
    (hseed : Settings.firstNonEmpty [o.overrides.hashNS] = some seed) :
    runProgram host env args =
      showText host ((wanted.identifier (.ofSeed seed)).text ++ "\n") := by
  have hnamespace : namespaceOf host env o = pure (Namespace.ofSeed seed) := by
    unfold namespaceOf
    rw [hseed]
  have hrun : (Request.run host env ⟨o, .hash wanted⟩).run =
      (·.mapError (unwritten streamPath)) <$>
        host.print ((wanted.identifier (.ofSeed seed)).text ++ "\n") := by
    show (runHash host env o wanted).run = _
    rw [runHash, hnamespace, pure_bind, run_writeOutput]
    rfl
  unfold runProgram showText
  rw [h]
  dsimp only
  rw [hrun, bind_map_left]
  congr 1
  funext answer
  cases answer <;> rfl

/-! ## Both commands -/

/-- A workspace before and after a text was written to an output, and nothing else. -/
def Wrote (output text : String) (w w' : Workspace) : Prop :=
  ∃ w₁, w.Untouched w₁ ∧ (put Workspace.host output text).run w₁ = (.ok (), w')

/-- A workspace whose settings can be loaded and whose input is then a text. -/
def Offers (w : Workspace) (env : Environment) (o : Options) (input text : String) : Prop :=
  ∃ r w₁ w₂, (Resolved.load Workspace.host o.file o.overrides env).run w = (.ok r, w₁) ∧
    (fetch Workspace.host input).run w₁ = (.ok text, w₂)

/-- That a workspace offers a text can be computed. -/
theorem offers_of_toOption {input text : String}
    (hload : ((Resolved.load Workspace.host o.file o.overrides env).run w).1.toOption.isSome = true)
    (hfetch : ((fetch Workspace.host input).run
      ((Resolved.load Workspace.host o.file o.overrides env).run w).2).1.toOption = some text) :
    Offers w env o input text := by
  obtain ⟨r, hr⟩ := Option.isSome_iff_exists.mp hload
  exact ⟨r, _, _, Prod.ext (Template.eq_ok_of_toOption hr) rfl,
    Prod.ext (Template.eq_ok_of_toOption hfetch) rfl⟩

/-- An uploader that nothing was added to has nothing to send. -/
theorem pending_uploaderOf {r : Resolved} {offline : Bool} {u : Uploader}
    (h : uploaderOf r offline = .ok u) : u.pending = [] := by
  unfold uploaderOf at h
  split_ifs at h
  · cases hcontainer : containerOf r.config.storage with
    | error e =>
      rw [hcontainer] at h
      cases h
    | ok container =>
      rw [hcontainer] at h
      cases h
      rfl
  · cases h
    rfl

/-- A template that asks for an identifier, and succeeds, writes what the settings make of it. -/
theorem template_wrote {args : List String} {input output : String} {w' : Workspace}
    (hargs : Request.ofArguments env args = .ok ⟨o, .template input output⟩)
    (hload : (Resolved.load Workspace.host o.file o.overrides env).run w = (.ok r, w₁))
    {text : String} {w₂ : Workspace}
    (hfetch : (fetch Workspace.host input).run w₁ = (.ok text, w₂)) {wanted : Wanted}
    (hwanted : wanted ≠ .parts []) {c : Call} (hparse : Template.parse text = .ok [.call c])
    (hc : c.reference = wanted.reference)
    (hrun : (runProgram Workspace.host env args).run w = (⟨0, none⟩, w')) :
    Wrote output (wanted.identifier r.ns).text w w' := by
  rw [runProgram_run Workspace.host env hargs,
    show Action.template input output = Work.action ⟨.text, input, output⟩ from rfl,
    run_work_run, prepare_run, hload] at hrun
  dsimp only at hrun
  rw [hfetch] at hrun
  dsimp only [Kind.source] at hrun
  generalize hattach : (attach Workspace.host r).run w₂ = attached at hrun
  obtain ⟨_ | _, w₃⟩ := attached
  · cases hrun
  dsimp only at hrun
  have hquiet := Workspace.quiet_hostWithin {}
  -- Nothing that comes before the output changes a file or prints.
  have huntouched : w.Untouched w₃ := Workspace.untouched_of_seen
    ((hquiet.attach hattach).trans ((hquiet.fetch hfetch).trans (hquiet.load hload)))
  cases huploader : uploaderOf r o.offline with
  | error e =>
    rw [huploader] at hrun
    cases hrun
  | ok u =>
    have hrendered :
        (Source.text text).rendered r u = .ok ((wanted.identifier r.ns).text, u) := by
      rw [Source.rendered, Source.render, render_wanted r u hwanted hparse hc]
      rfl
    rw [huploader] at hrun
    dsimp only at hrun
    rw [hrendered] at hrun
    dsimp only at hrun
    rw [deliver_run] at hrun
    generalize hput : (put Workspace.host output (wanted.identifier r.ns).text).run w₃ = answer
      at hrun
    obtain ⟨fault | _, w₄⟩ := answer
    · have hcode : (unwritten output fault).code = 0 := congrArg (fun r => r.1.code) hrun
      rw [code_unwritten] at hcode
      cases hcode
    · -- Identifiers mention no files, so there is nothing to ask for or to send.
      dsimp only at hrun
      rw [upload_run, pending_uploaderOf huploader] at hrun
      cases hrun
      exact ⟨w₃, huntouched, hput⟩

/-- Asking for an identifier by a command of its own prints it, also with another fresh seed. -/
theorem hash_wrote {args : List String} {wanted : Wanted}
    (hargs : Request.ofArguments env args = .ok ⟨o, .hash wanted⟩) (hseeded : Seeded w o)
    (hload : (Resolved.load Workspace.host o.file o.overrides env).run w = (.ok r, w₁))
    (seed : String) :
    ∃ w', (runProgram Workspace.host env args).run { w with seed } = (⟨0, none⟩, w') ∧
      Wrote streamPath ((wanted.identifier r.ns).text ++ "\n") { w with seed } w' := by
  obtain ⟨w₂, hnamespace, huntouched⟩ := namespaceOf_reseeded hseeded hload seed
  rw [runProgram_run Workspace.host env hargs]
  show ∃ w', (endingOf ((runHash Workspace.host env o wanted).run.run _).1,
    ((runHash Workspace.host env o wanted).run.run _).2) = _ ∧ _
  have hput := Workspace.put_stream ((wanted.identifier r.ns).text ++ "\n") w₂
  rw [runHash, run_bind_run, hnamespace]
  dsimp only
  rw [run_writeOutput, StateT.run_map, hput]
  exact ⟨_, rfl, w₂, huntouched, hput⟩

/-- Both commands agree on identifiers. The same shared options may be given to either. Wherever a
configured seed takes effect, and a template that is a call for an identifier succeeds, the command
for identifiers succeeds and prints what was written there; the identifier of uploads is that of a
single part. With a seed among the options nothing matters but this and what is asked for. -/
theorem identifiers_agree {above below : List String} {top g : Given} (habove : Spells above top)
    (hbelow : Spells below g) {wanted : Wanted} (hwanted : wanted ≠ .parts []) :
    let asking (wanted : Wanted) := above ++ "hash" :: (below ++ wanted.spelled)
    (∀ env input output, Request.ofArguments env
        (above ++ "template" :: (below ++ streamArguments input output)) =
      .ok ⟨optionsOf [g, top] env, .template input output⟩) ∧
    (∀ env args input output, Request.ofArguments env args =
        .ok ⟨optionsOf [g, top] env, .template input output⟩ →
      ∀ w w' text c, Seeded w (optionsOf [g, top] env) →
        Offers w env (optionsOf [g, top] env) input text →
        Template.parse text = .ok [.call c] → c.reference = wanted.reference →
        (runProgram Workspace.host env args).run w = (⟨0, none⟩, w') →
        ∃ identifier, Wrote output identifier w w' ∧
          ∀ seed, ∃ w'', (runProgram Workspace.host env (asking wanted)).run { w with seed } =
              (⟨0, none⟩, w'') ∧
            Wrote streamPath (identifier ++ "\n") { w with seed } w'') ∧
    (∀ {m : Type → Type} [Monad m] (host : Host m) env,
      runProgram host env (asking .folder) = runProgram host env (asking (.parts ["upload"]))) ∧
    ∀ seed, deepest [g, top] "hash-ns" = some seed → seed.isEmpty = false →
      ∀ {m : Type → Type} [Monad m] [LawfulMonad m] (host : Host m) env,
        runProgram host env (asking wanted) =
          showText host ((wanted.identifier (.ofSeed seed)).text ++ "\n") := by
  intro asking
  have hasking (env : Environment) : Request.ofArguments env (asking wanted) = _ :=
    Spells.ofArguments_hash habove hbelow hwanted env
  refine ⟨fun env input output => Spells.ofArguments_template habove hbelow input output env,
    ?_, ?_, ?_⟩
  -- Both commands load the same settings, and take the namespace from these.
  · rintro env args input output hargs w w' text c hseeded ⟨r, w₁, w₂, hload, hfetch⟩ hparse hc hrun
    exact ⟨_, template_wrote hargs hload hfetch hwanted hparse hc hrun,
      hash_wrote (hasking env) hseeded hload⟩
  · intro m _ host env
    have hfolder : Request.ofArguments env (asking .folder) = _ :=
      Spells.ofArguments_hash habove hbelow (show Wanted.folder ≠ .parts [] by decide) env
    have hparts : Request.ofArguments env (asking (.parts ["upload"])) = _ :=
      Spells.ofArguments_hash habove hbelow (show Wanted.parts ["upload"] ≠ .parts [] by decide) env
    unfold runProgram
    rw [hfolder, hparts]
    rfl
  · intro seed hseed hne m _ _ host env
    -- A seed among the options comes before all others, so no settings are loaded.
    apply run_hash_seeded host (hasking env)
    show Settings.firstNonEmpty [(deepest [g, top] "hash-ns").or _] = _
    rw [hseed]
    exact Settings.firstNonEmpty_value (by simp [hne]) []

/-- A seed from the environment, in a workspace with bare settings. -/
theorem identifiers_agree_variable :
    let env := [("CUSTOMAZED_HASHNS", "seed")]
    let w := bare "\x7b\x7bhash `a`\x7d\x7d"
    ∃ identifier w', (runProgram Workspace.host env ("template" :: streamArguments "-" "-")).run w =
        (⟨0, none⟩, w') ∧ Wrote "-" identifier w w' ∧
      ∀ seed, ∃ w'', (runProgram Workspace.host env ["hash", "--", "a"]).run { w with seed } =
          (⟨0, none⟩, w'') ∧ Wrote "-" (identifier ++ "\n") { w with seed } w'' := by
  intro env w
  have hnothing : Spells [] .nothing := ⟨rfl, List.not_mem_nil⟩
  have hwanted : Wanted.parts ["a"] ≠ .parts [] := by decide
  obtain ⟨htemplate, hagree, -, -⟩ := identifiers_agree hnothing hnothing hwanted
  have hcode : ((runProgram Workspace.host env
      ("template" :: streamArguments "-" "-")).run w).1 = ⟨0, none⟩ := by decide +kernel
  have hseeded : Seeded w (optionsOf [.nothing, .nothing] env) := by
    intro path written w' _
    show Settings.firstNonEmpty [some "seed", some written.hashNS] ≠ none
    rw [Settings.firstNonEmpty_value (by decide)]
    exact Option.some_ne_none _
  have hoffers : Offers w env (optionsOf [.nothing, .nothing] env) "-"
      "\x7b\x7bhash `a`\x7d\x7d" :=
    offers_of_toOption (by decide +kernel) (by decide +kernel)
  have hparse : Template.parse "\x7b\x7bhash `a`\x7d\x7d" = .ok [.call ⟨"hash", ["a"], 1⟩] :=
    Template.eq_ok_of_toOption (by decide +kernel)
  generalize hrun : (runProgram Workspace.host env
    ("template" :: streamArguments "-" "-")).run w = run at hcode
  obtain ⟨_, w'⟩ := run
  obtain rfl := hcode
  obtain ⟨identifier, hwrote, hhash⟩ := hagree env _ "-" "-" (htemplate env "-" "-") w w' _ _
    hseeded hoffers hparse rfl hrun
  exact ⟨identifier, w', rfl, hwrote, hhash⟩

end Command

end Stencil
