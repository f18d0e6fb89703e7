import Stencil.Proofs.Command.Deeds

/-!
# Stages of a command

A command that turns an input into an output first prepares the output: it loads the settings, reads
the input, starts an uploader and renders. The first of these that fails decides how the command
ends. `Prepares` lists how this can go, with the exit code of every way to fail, and preparing is
one of these ways on every machine.
-/

namespace Stencil.Command

open Settings (Environment Resolved)
open Template (Session)
open Upload (Uploader)

/-- What a command takes its input for. -/
inductive Kind where
  | text
  | document

/-- The work of a command that turns an input into an output. -/
structure Work where
  kind : Kind
  input : String
  output : String

/-- The action that does a work. -/
def Work.action : Work → Action
  | ⟨.text, input, output⟩ => .template input output
  | ⟨.document, input, output⟩ => .resolve input output

/-- How the program ends after a failure. -/
def Failure.ending (failure : Failure) : Ending := ⟨failure.code, some failure.message⟩

/-- Two steps on a machine: the second follows where the first does not fail. -/
theorem run_bind_run {ω α β : Type} (x : ExceptT Failure (StateM ω) α)
    (f : α → ExceptT Failure (StateM ω) β) (w : ω) :
    (x >>= f).run.run w =
      match x.run.run w with
      | (.error failure, w) => (.error failure, w)
      | (.ok a, w) => (f a).run.run w := by
  rw [ExceptT.run_bind, StateT.run_bind]
  generalize x.run.run w = answer
  obtain ⟨failure | a, w'⟩ := answer <;> rfl

/-! ## Streams -/

section

variable {m : Type → Type} [Monad m] (host : Host m)

/-- Reads an input, which is the standard one or a file. -/
def fetch (input : String) : m (Except Fault String) :=
  if input == streamPath then host.readInputText else host.readText input

/-- Writes an output, which is the standard one or a file. -/
def put (output text : String) : m (Except Fault Unit) :=
  if output == streamPath then host.print text
  else host.write output (Text.Utf8.encode text.toList)

/-- The failure to read an input. -/
def unread (input : String) (fault : Fault) : Failure :=
  .reading (if input == streamPath then "stdin" else input) fault

/-- The failure to write an output. -/
def unwritten (output : String) (fault : Fault) : Failure :=
  if output == streamPath then .printing fault else .writing output fault

/-- The deed of writing an output. -/
def delivery (output text : String) (answer : Except Fault Unit) : Deed :=
  if output == streamPath then .print text answer
  else .write output (Text.Utf8.encode text.toList) answer

variable [LawfulMonad m]

/-- Reading an input fails as fetching it does. -/
theorem run_readInput_eq (input : String) :
    (readInput host input).run = (·.mapError (unread input)) <$> fetch host input := by
  rw [run_readInput]
  unfold fetch unread
  split_ifs <;> rfl

/-- Writing an output fails as putting it somewhere does. -/
theorem run_writeOutput (output text : String) :
    (writeOutput host output text).run =
      (·.mapError (unwritten output)) <$> put host output text := by
  unfold writeOutput put unwritten
  split_ifs
  · exact run_lift_mapError fun answer => by cases answer <;> rfl
  · exact run_lift_mapError fun answer => by cases answer <;> rfl

/-- Loading settings for a command fails as loading them does. -/
theorem run_load (env : Environment) (o : Options) :
    (load host env o).run =
      (·.mapError Failure.settings) <$> Resolved.load host o.file o.overrides env :=
  run_lift_mapError fun answer => by cases answer <;> rfl

/-- Starting an uploader fails as setting up the sending does, or for want of a place. -/
theorem run_startUploader (r : Resolved) (o : Options) :
    (startUploader host r o).run =
      (fun answer => (answer.mapError Failure.connecting).bind fun _ =>
        (uploaderOf r o.offline).mapError Failure.uploader) <$> attach host r := by
  rw [startUploader, ExceptT.run_bind_lift, map_eq_pure_bind]
  refine congrArg (attach host r >>= ·) (funext fun answer => ?_)
  cases answer with
  | error text => rfl
  | ok _ =>
    dsimp only
    cases uploaderOf r o.offline <;> rfl

end

/-- An output that cannot be written is a failure of no particular kind. -/
theorem code_unwritten (output : String) (fault : Fault) : (unwritten output fault).code = 1 := by
  unfold unwritten
  split_ifs <;> rfl

/-! ## What is rendered -/

/-- What a command renders. -/
inductive Source where
  | text (text : String)
  | document (document : Json.Value)

/-- What an input is taken for. -/
inductive Kind.Holds (input : String) : Kind → Source → Prop
  | text : Holds input .text (.text input)
  | document {v} : Json.read .any (Json.stripComments input) = .ok v →
      Holds input .document (.document v)

/-- What an input is taken for, unless it is malformed. -/
def Kind.source (input : String) : Kind → Except Failure Source
  | .text => .ok (.text input)
  | .document =>
    (Json.read .any (Json.stripComments input)).mapError
      (fun fault => Failure.invalidDocument fault.message) |>.map .document

/-- Renders a text, or a document that is written with a line end after it. -/
def Source.render (r : Resolved) (u : Uploader) : Source → Template.Rendering String × Uploader
  | .text t => Session.render (registry r) t u
  | .document v =>
    let rendered := Session.renderAll (registry r) v u
    (⟨rendered.1.output.pretty ++ "\n", rendered.1.error⟩, rendered.2)

/-- The output of a rendering without errors, and the uploader that knows the files it mentions. -/
def Source.rendered (r : Resolved) (u : Uploader) (source : Source) :
    Except Failure (String × Uploader) :=
  (source.render r u).1.result.mapError Failure.template |>.map (·, (source.render r u).2)

/-- An input is taken for what it holds. -/
theorem Kind.holds_of_source {input : String} {kind : Kind} {source : Source}
    (h : kind.source input = .ok source) : kind.Holds input source := by
  cases kind with
  | text =>
    cases h
    exact .text
  | document =>
    unfold Kind.source at h
    cases hv : Json.read .any (Json.stripComments input) with
    | error fault =>
      rw [hv] at h
      cases h
    | ok v =>
      rw [hv] at h
      cases h
      exact .document hv

/-- Only a document can be malformed. -/
theorem Kind.malformed_of_source {input : String} {kind : Kind} {failure : Failure}
    (h : kind.source input = .error failure) : ∃ fault, kind = .document ∧
      Json.read .any (Json.stripComments input) = .error fault ∧
      failure = .invalidDocument fault.message := by
  cases kind with
  | text => cases h
  | document =>
    unfold Kind.source at h
    cases hv : Json.read .any (Json.stripComments input) with
    | error fault =>
      rw [hv] at h
      cases h
      exact ⟨fault, rfl, rfl, rfl⟩
    | ok v =>
      rw [hv] at h
      cases h

/-- A document is rendered and then written. -/
theorem Source.rendered_document (r : Resolved) (u : Uploader) (v : Json.Value) :
    (Source.document v).rendered r u =
      ((Session.renderAll (registry r) v u).1.result.mapError Failure.template).map
        fun rendered => (rendered.pretty ++ "\n", (Session.renderAll (registry r) v u).2) := by
  unfold Source.rendered Source.render Template.Rendering.result
  dsimp only
  cases (Session.renderAll (registry r) v u).1.error <;> rfl

/-! ## Preparing -/

section

variable {m : Type → Type} [Monad m] {α β : Type}

/-- A step that asks nothing of the machine. -/
def settled (x : Except Failure α) : ExceptT Failure m α := ExceptT.mk (pure x)

/-- Prepares the output of a work. -/
def prepare (host : Host m) (env : Environment) (o : Options) (work : Work) :
    ExceptT Failure m (String × Uploader) := do
  let r ← load host env o
  let input ← readInput host work.input
  let source ← settled (work.kind.source input)
  let u ← startUploader host r o
  settled (source.rendered r u)

/-- A step that asks nothing and does not fail is none. -/
theorem settled_ok_bind [LawfulMonad m] (a : α) (k : α → ExceptT Failure m β) :
    (settled (.ok a) >>= k) = k a :=
  pure_bind a k

/-- A step that asks nothing may be taken together with what it does not fail before. -/
theorem settled_map_bind [LawfulMonad m] {γ : Type} (x : Except Failure α) (f : α → β)
    (k : β → ExceptT Failure m γ) :
    (settled (x.map f) >>= k) = settled x >>= fun a => k (f a) := by
  apply ExceptT.ext
  rw [ExceptT.run_bind, ExceptT.run_bind]
  show pure (x.map f) >>= _ = pure x >>= _
  rw [pure_bind, pure_bind]
  cases x <;> rfl

/-- A document is read without asking the machine. -/
theorem readDocument_eq_settled (input : String) :
    (readDocument input : ExceptT Failure m Json.Value) =
      settled ((Json.read .any (Json.stripComments input)).mapError
        fun fault => .invalidDocument fault.message) := by
  unfold readDocument
  cases Json.read .any (Json.stripComments input) <;> rfl

/-- A rendering is finished without asking the machine. -/
theorem finish_eq_settled (rendering : Template.Rendering α) :
    (finish rendering : ExceptT Failure m α) =
      settled (rendering.result.mapError .template) := by
  unfold finish
  cases rendering.result <;> rfl

/-- A command prepares its output, writes it and then uploads. -/
theorem run_action [LawfulMonad m] (host : Host m) (env : Environment) (o : Options)
    (work : Work) :
    Request.run host env ⟨o, work.action⟩ = (do
      let (text, u) ← prepare host env o work
      writeOutput host work.output text
      upload host o u) := by
  obtain ⟨kind, input, output⟩ := work
  cases kind with
  | text =>
    show runTemplate host env o input output = _
    simp only [runTemplate, prepare, bind_assoc, finish_eq_settled, Kind.source, settled_ok_bind,
      Source.rendered, Source.render, settled_map_bind]
  | document =>
    show runResolve host env o input output = _
    simp only [runResolve, prepare, bind_assoc, finish_eq_settled, readDocument_eq_settled,
      Kind.source, settled_map_bind, Source.rendered_document]

end

variable {ω : Type} (host : Host (StateM ω)) (env : Environment) (o : Options) (work : Work)

/-- The settings are loaded and the input is read, from a machine before to a machine after. -/
inductive Reads : ω → Resolved → Source → ω → Prop
  | intro {w r w₁ input source w'} :
      (Resolved.load host o.file o.overrides env).run w = (.ok r, w₁) →
      (fetch host work.input).run w₁ = (.ok input, w') → work.kind.Holds input source →
      Reads w r source w'

/-- How preparing the output of a work goes, from a machine before to a machine after. -/
inductive Prepares : ω → Except Ending (String × Uploader) → ω → Prop
  | unsettled {w failure w'} :
      (Resolved.load host o.file o.overrides env).run w = (.error failure, w') →
      Prepares w (.error ⟨3, some (Failure.settings failure).message⟩) w'
  | unread {w r w₁ fault w'} :
      (Resolved.load host o.file o.overrides env).run w = (.ok r, w₁) →
      (fetch host work.input).run w₁ = (.error fault, w') →
      Prepares w (.error ⟨1, some (unread work.input fault).message⟩) w'
  | malformed {w r w₁ input w' fault} :
      (Resolved.load host o.file o.overrides env).run w = (.ok r, w₁) →
      (fetch host work.input).run w₁ = (.ok input, w') → work.kind = .document →
      Json.read .any (Json.stripComments input) = .error fault →
      Prepares w (.error ⟨2, some (Failure.invalidDocument fault.message).message⟩) w'
  | unconnected {w r source w₁ text w'} : Reads host env o work w r source w₁ →
      (attach host r).run w₁ = (.error text, w') →
      Prepares w (.error ⟨5, some (Failure.connecting text).message⟩) w'
  | misplaced {w r source w₁ w' e} : Reads host env o work w r source w₁ →
      (attach host r).run w₁ = (.ok (), w') → uploaderOf r o.offline = .error e →
      Prepares w (.error ⟨5, some (Failure.uploader e).message⟩) w'
  | failed {w r source w₁ w' u e} : Reads host env o work w r source w₁ →
      (attach host r).run w₁ = (.ok (), w') → uploaderOf r o.offline = .ok u →
      (source.render r u).1.error = some e → Prepares w (.error ⟨4, some e.message⟩) w'
  | made {w r source w₁ w' u output u'} : Reads host env o work w r source w₁ →
      (attach host r).run w₁ = (.ok (), w') → uploaderOf r o.offline = .ok u →
      source.render r u = (⟨output, none⟩, u') → Prepares w (.ok (output, u')) w'

/-- Preparing an output goes as the stages before it say. -/
theorem prepare_run (w : ω) :
    (prepare host env o work).run.run w =
      match (Resolved.load host o.file o.overrides env).run w with
      | (.error failure, w) => (.error (.settings failure), w)
      | (.ok r, w) =>
        match (fetch host work.input).run w with
        | (.error fault, w) => (.error (unread work.input fault), w)
        | (.ok input, w) =>
          match work.kind.source input with
          | .error failure => (.error failure, w)
          | .ok source =>
            match (attach host r).run w with
            | (.error text, w) => (.error (.connecting text), w)
            | (.ok (), w) =>
              match uploaderOf r o.offline with
              | .error e => (.error (.uploader e), w)
              | .ok u => (source.rendered r u, w) := by
  -- Stage by stage: what fails ends the run, and otherwise the next stage starts from what is left.
  rw [prepare, run_bind_run, run_load, StateT.run_map]
  generalize (Resolved.load host o.file o.overrides env).run w = loaded
  obtain ⟨failure | r, w₁⟩ := loaded
  · rfl
  show ((readInput host work.input >>= _).run).run w₁ = _
  rw [run_bind_run, run_readInput_eq, StateT.run_map]
  dsimp only
  generalize (fetch host work.input).run w₁ = fetched
  obtain ⟨fault | input, w₂⟩ := fetched
  · rfl
  show ((settled (work.kind.source input) : ExceptT Failure (StateM ω) Source) >>= _).run.run w₂ = _
  rw [run_bind_run]
  dsimp only
  generalize work.kind.source input = taken
  obtain failure | source := taken
  · rfl
  show ((startUploader host r o >>= _).run).run w₂ = _
  rw [run_bind_run, run_startUploader, StateT.run_map]
  dsimp only
  generalize (attach host r).run w₂ = attached
  obtain ⟨text | _, w₃⟩ := attached
  · rfl
  cases uploaderOf r o.offline <;> rfl

/-- Preparing an output is one of the ways that it can go. -/
theorem prepares_prepare (w : ω) :
    Prepares host env o work w
      (((prepare host env o work).run.run w).1.mapError Failure.ending)
      ((prepare host env o work).run.run w).2 := by
  rw [prepare_run]
  generalize hload : (Resolved.load host o.file o.overrides env).run w = loaded
  obtain ⟨failure | r, w₁⟩ := loaded
  · exact .unsettled hload
  dsimp only
  generalize hfetch : (fetch host work.input).run w₁ = fetched
  obtain ⟨fault | input, w₂⟩ := fetched
  · exact .unread hload hfetch
  dsimp only
  cases hsource : work.kind.source input with
  | error failure =>
    obtain ⟨fault, hkind, hfault, rfl⟩ := Kind.malformed_of_source hsource
    exact .malformed hload hfetch hkind hfault
  | ok source =>
    have hreads : Reads host env o work w r source w₂ :=
      .intro hload hfetch (Kind.holds_of_source hsource)
    dsimp only
    generalize hattach : (attach host r).run w₂ = attached
    obtain ⟨text | _, w₃⟩ := attached
    · exact .unconnected hreads hattach
    dsimp only
    cases hu : uploaderOf r o.offline with
    | error e => exact .misplaced hreads hattach hu
    | ok u =>
      dsimp only
      rw [Source.rendered, Template.Rendering.result]
      cases hr : (source.render r u).1.error with
      | some e => exact .failed hreads hattach hu hr
      | none => exact .made hreads hattach hu (Prod.ext (by rw [← hr]) rfl)

/-- Machines prepare an output alike if they load settings, read the input and set up the sending
alike. -/
theorem lockstep_prepare {τ τ' : Type} {R : τ → τ' → Prop} {host : Host (StateM τ)}
    {host' : Host (StateM τ')} {o : Options} {work : Work}
    (hload : Settings.LoadAlike R host host' o.file)
    (hseed : Lockstep R host.freshSeed host'.freshSeed)
    (hread : Lockstep R (host.read work.input) (host'.read work.input))
    (hconnect : Lockstep R host.connect host'.connect) :
    Lockstep R (prepare host env o work).run (prepare host' env o work).run := by
  -- Whether a connection is made depends on the settings alone.
  have hattach (r : Resolved) : Lockstep R (attach host r) (attach host' r) := by
    unfold attach
    split_ifs
    · exact hconnect
    · exact .pure _
  unfold prepare
  rw [ExceptT.run_bind, ExceptT.run_bind, run_load, run_load]
  refine ((hload.load hseed o.overrides env).map _).bind fun answer => ?_
  obtain failure | r := answer
  · exact .pure _
  show Lockstep R (readInput host work.input >>= _).run (readInput host' work.input >>= _).run
  rw [ExceptT.run_bind, ExceptT.run_bind]
  refine (lockstep_readInput _ hread hload.readInput).bind fun answer => ?_
  obtain failure | input := answer
  · exact .pure _
  show Lockstep R
    ((settled (work.kind.source input) : ExceptT Failure (StateM τ) Source) >>= _).run
    ((settled (work.kind.source input) : ExceptT Failure (StateM τ') Source) >>= _).run
  rw [ExceptT.run_bind, ExceptT.run_bind]
  refine (Lockstep.pure _).bind fun answer => ?_
  obtain failure | source := answer
  · exact .pure _
  show Lockstep R (startUploader host r o >>= _).run (startUploader host' r o >>= _).run
  rw [ExceptT.run_bind, ExceptT.run_bind, run_startUploader, run_startUploader]
  refine ((hattach r).map _).bind fun answer => ?_
  cases answer <;> exact .pure _

end Stencil.Command
