import Mathlib.Tactic.SplitIfs
import Stencil.Command.Run

/-!
# Machines in lockstep

Two machines go in lockstep if an action gives the same answer on both and leaves them related as
they were before. A command sees nothing of its machine but the answers, so it does the same on two
machines if the few actions that it asks for go in lockstep: loading settings looks only at their
file and at the one that may stand in for it, and sending files only reads and sends.
-/

namespace Stencil

open Upload

variable {τ τ' α β : Type} {R : τ → τ' → Prop}

/-- Two actions with the same answer, after which the machines are related as before. -/
def Lockstep (R : τ → τ' → Prop) (x : StateM τ α) (y : StateM τ' α) : Prop :=
  ∀ s t, R s t → (x.run s).1 = (y.run t).1 ∧ R (x.run s).2 (y.run t).2

/-- An action whose answer always has a property. -/
def Answers (P : α → Prop) (x : StateM τ α) : Prop := ∀ s, P (x.run s).1

theorem Answers.pure {P : α → Prop} {a : α} (h : P a) : Answers P (Pure.pure a : StateM τ α) :=
  fun _ => h

/-- The answers of an action that goes on are those of what it goes on with. -/
theorem Answers.bind {P : β → Prop} {x : StateM τ α} {f : α → StateM τ β}
    (h : ∀ a, Answers P (f a)) : Answers P (x >>= f) :=
  fun s => h (x.run s).1 (x.run s).2

namespace Lockstep

theorem pure (a : α) : Lockstep R (Pure.pure a : StateM τ α) (Pure.pure a : StateM τ' α) :=
  fun _ _ h => ⟨rfl, h⟩

/-- Actions in lockstep may go on in lockstep, where it is enough to look at the answers that there
can be. -/
theorem bind_of {P : α → Prop} {x : StateM τ α} {y : StateM τ' α} (h : Lockstep R x y)
    (hx : Answers P x) {f : α → StateM τ β} {g : α → StateM τ' β}
    (hfg : ∀ a, P a → Lockstep R (f a) (g a)) : Lockstep R (x >>= f) (y >>= g) := by
  intro s t hst
  obtain ⟨hanswer, hrest⟩ := h s t hst
  have hnext := hfg _ (hx s) _ _ hrest
  rw [hanswer] at hnext
  show ((f (x.run s).1).run (x.run s).2).1 = ((g (y.run t).1).run (y.run t).2).1 ∧
    R ((f (x.run s).1).run (x.run s).2).2 ((g (y.run t).1).run (y.run t).2).2
  rw [hanswer]
  exact hnext

/-- Actions in lockstep may go on in lockstep. -/
theorem bind {x : StateM τ α} {y : StateM τ' α} (h : Lockstep R x y) {f : α → StateM τ β}
    {g : α → StateM τ' β} (hfg : ∀ a, Lockstep R (f a) (g a)) :
    Lockstep R (x >>= f) (y >>= g) :=
  h.bind_of (P := fun _ => True) (fun _ => trivial) fun a _ => hfg a

theorem map {x : StateM τ α} {y : StateM τ' α} (h : Lockstep R x y) (f : α → β) :
    Lockstep R (f <$> x) (f <$> y) :=
  h.bind fun a => .pure (f a)

end Lockstep

variable {host : Host (StateM τ)} {host' : Host (StateM τ')}

/-- Texts of files are read alike if the files are. -/
theorem lockstep_readText {path : String} (h : Lockstep R (host.read path) (host'.read path)) :
    Lockstep R (host.readText path) (host'.readText path) :=
  h.bind fun _ => .pure _

/-- The text of the input is read alike if the input is. -/
theorem lockstep_readInputText (h : Lockstep R host.readInput host'.readInput) :
    Lockstep R host.readInputText host'.readInputText :=
  h.bind fun _ => .pure _

/-! ## Loading settings -/

namespace Settings

/-- The paths at which settings are looked for. -/
def sources (file : String) : List String := [file, Text.Path.withEnding file "jsonc"]

/-- Settings are looked for at one of their paths. -/
theorem answers_sourcePath (host : Host (StateM τ)) (file : String) :
    Answers (· ∈ sources file) (sourcePath host file) := by
  unfold sourcePath
  split_ifs
  · refine .bind fun here => ?_
    split_ifs
    · exact .pure (by simp [sources])
    · refine .bind fun there => ?_
      split_ifs <;> exact .pure (by simp [sources])
  · exact .pure (by simp [sources])

/-- What the machines do alike when settings at a path are loaded. -/
structure LoadAlike (R : τ → τ' → Prop) (host : Host (StateM τ)) (host' : Host (StateM τ'))
    (file : String) : Prop where
  look : ∀ path ∈ sources file, Lockstep R (host.isPresent path) (host'.isPresent path)
  read : ∀ path ∈ sources file, Lockstep R (host.read path) (host'.read path)
  readInput : Lockstep R host.readInput host'.readInput

variable {file : String}

/-- The path of the settings is chosen alike. -/
theorem LoadAlike.sourcePath (h : LoadAlike R host host' file) :
    Lockstep R (Settings.sourcePath host file) (Settings.sourcePath host' file) := by
  unfold Settings.sourcePath
  split_ifs
  · refine (h.look _ (by simp [sources])).bind fun here => ?_
    split_ifs
    · exact .pure _
    · refine (h.look _ (by simp [sources])).bind fun there => ?_
      split_ifs <;> exact .pure _
  · exact .pure _

/-- The text of the settings is read alike. -/
theorem LoadAlike.readSource (h : LoadAlike R host host' file) :
    Lockstep R (Settings.readSource host file) (Settings.readSource host' file) := by
  unfold Settings.readSource
  split_ifs
  · refine (lockstep_readInputText h.readInput).bind fun answer => ?_
    cases answer <;> exact .pure _
  · refine h.sourcePath.bind_of (answers_sourcePath host file) fun path hpath => ?_
    refine (h.look path hpath).bind fun here => ?_
    split_ifs
    · refine (lockstep_readText (h.read path hpath)).bind fun answer => ?_
      cases answer <;> exact .pure _
    · exact .pure _

/-- The settings that are written down are loaded alike. -/
theorem LoadAlike.config (h : LoadAlike R host host' file) :
    Lockstep R (Config.load host file) (Config.load host' file) := by
  refine h.readSource.bind fun answer => ?_
  cases answer <;> exact .pure _

/-- Settings are loaded alike where their files, the input and the fresh seed are. -/
theorem LoadAlike.load (h : LoadAlike R host host' file)
    (hseed : Lockstep R host.freshSeed host'.freshSeed) (overrides : Overrides)
    (env : Environment) :
    Lockstep R (Resolved.load host file overrides env)
      (Resolved.load host' file overrides env) := by
  refine h.config.bind fun answer => ?_
  cases answer with
  | error failure => exact .pure _
  | ok written => exact hseed.bind fun _ => .pure _

end Settings

/-! ## Reading inputs -/

namespace Command

/-- Asking for an answer and throwing its failure in another form is mapping the answer. -/
theorem run_lift_mapError {m : Type → Type} [Monad m] [LawfulMonad m] {ε ε' α : Type}
    {x : m (Except ε α)} {next : Except ε α → ExceptT ε' m α} {form : ε → ε'}
    (hnext : ∀ answer, (next answer).run = pure (answer.mapError form)) :
    (ExceptT.lift x >>= next).run = (·.mapError form) <$> x := by
  rw [ExceptT.run_bind_lift, map_eq_pure_bind]
  exact congrArg (x >>= ·) (funext hnext)

/-- What reading an input as a text comes to. -/
theorem run_readInput {m : Type → Type} [Monad m] [LawfulMonad m] (host : Host m)
    (input : String) :
    (readInput host input).run =
      if input == streamPath then (·.mapError (Failure.reading "stdin")) <$> host.readInputText
      else (·.mapError (Failure.reading input)) <$> host.readText input := by
  unfold readInput
  split_ifs
  · exact run_lift_mapError fun answer => by cases answer <;> rfl
  · exact run_lift_mapError fun answer => by cases answer <;> rfl

/-- Inputs of commands are read alike if their file and the standard input are. -/
theorem lockstep_readInput (input : String)
    (hread : Lockstep R (host.read input) (host'.read input))
    (hinput : Lockstep R host.readInput host'.readInput) :
    Lockstep R (readInput host input).run (readInput host' input).run := by
  rw [run_readInput, run_readInput]
  split_ifs
  · exact (lockstep_readInputText hinput).bind fun _ => .pure _
  · exact (lockstep_readText hread).bind fun _ => .pure _

end Command

/-! ## Sending files -/

namespace Upload

variable (hread : ∀ path, Lockstep R (host.read path) (host'.read path))
  (hsend : ∀ address octets, Lockstep R (host.send address octets) (host'.send address octets))

include hread hsend

/-- One file is transferred alike if reading and sending go in lockstep. -/
theorem lockstep_transfer (item : Planned) :
    Lockstep R (Plan.transfer host item) (Plan.transfer host' item) := by
  refine (hread item.source).bind fun answer => ?_
  cases answer with
  | error fault => exact .pure _
  | ok octets =>
    refine (hsend item.url.text octets).bind fun answer => ?_
    cases answer <;> exact .pure _

/-- All files are sent alike, since the next one is only tried after the same answers. -/
theorem lockstep_sendAll (items : List Planned) :
    Lockstep R (Plan.sendAll host items) (Plan.sendAll host' items) := by
  induction items with
  | nil => exact .pure _
  | cons item rest ih =>
    unfold Plan.sendAll
    split_ifs
    · exact ih.bind fun _ => .pure _
    · refine (lockstep_transfer hread hsend item).bind fun answer => ?_
      cases answer with
      | error e => exact .pure _
      | ok _ => exact ih.bind fun _ => .pure _

/-- Uploaders are executed alike if reading and sending go in lockstep. -/
theorem lockstep_execute (u : Uploader) :
    Lockstep R (u.execute host) (u.execute host') := by
  cases u with
  | disabled reason => exact .pure _
  | enabled p =>
    suffices h : Lockstep R (p.execute host) (p.execute host') from h.bind fun _ => .pure _
    unfold Plan.execute
    split_ifs
    · exact .pure _
    · refine (lockstep_sendAll hread hsend _).bind fun r => ?_
      obtain ⟨items, count, _ | e⟩ := r <;> exact .pure _

end Upload

end Stencil
