import Stencil.Command.Failure
import Stencil.Command.Request
import Stencil.Json.Strings
import Stencil.Settings.Resolved
import Stencil.Upload.Plan

/-!
# Running commands

A command loads and resolves the settings, reads its input, renders it, writes the output and only
then sends the files that the input mentions, after asking whether to. The first step that fails
ends it, so that nothing is written unless all before went well.
-/

namespace Stencil.Command

open Settings (Environment Resolved)
open Template (Registry Rendering Session Surroundings)
open Upload (Container Plan Uploader)

/-- The path of a standard stream. -/
def streamPath : String := "-"

/-! ## Surroundings -/

/-- The surroundings of templates: lookups answer from resolved settings, files go to the plan. -/
def surroundings (r : Resolved) : Surroundings Uploader where
  lookup domain key u := (r.lookup domain key, u)
  register source u := u.register source

/-- The functions of templates over resolved settings. -/
def registry (r : Resolved) : Registry Uploader :=
  Registry.standard (surroundings r) r.ns

/-- Why nothing can be uploaded without a complete container. -/
def noStorage : String := "upload: no storage configuration"

/-- The container of some settings. -/
def containerOf (s : Settings.Storage) : Except Upload.Error Container :=
  if s.blobEndpoint.isEmpty then Container.ofAccount s.accountName s.containerName
  else Container.atEndpoint s.blobEndpoint s.containerName

/-- The uploader of resolved settings. -/
def uploaderOf (r : Resolved) (offline : Bool) : Except Upload.Error Uploader :=
  if r.config.storage.isComplete then
    (containerOf r.config.storage).map fun container =>
      .enabled (Plan.empty container r.ns.uploadPrefix.text (!offline))
  else .ok (.disabled noStorage)

/-! ## Steps -/

variable {m : Type → Type} [Monad m]

/-- Loads and resolves the settings. -/
def load (host : Host m) (env : Environment) (o : Options) : ExceptT Failure m Resolved := do
  match ← ExceptT.lift (Resolved.load host o.file o.overrides env) with
  | .error failure => throw (.settings failure)
  | .ok r => return r

/-- Reads an input as a text. -/
def readInput (host : Host m) (path : String) : ExceptT Failure m String := do
  if path == streamPath then
    match ← host.readInputText with
    | .error fault => throw (.reading "stdin" fault)
    | .ok text => return text
  else
    match ← host.readText path with
    | .error fault => throw (.reading path fault)
    | .ok text => return text

/-- Writes an output. -/
def writeOutput (host : Host m) (path text : String) : ExceptT Failure m Unit := do
  if path == streamPath then
    match ← host.print text with
    | .error fault => throw (.printing fault)
    | .ok () => return ()
  else
    match ← host.write path (Text.Utf8.encode text.toList) with
    | .error fault => throw (.writing path fault)
    | .ok () => return ()

/-- Sets up what files are sent with, if there is a place where they go. -/
def attach (host : Host m) (r : Resolved) : m (Except String Unit) :=
  if r.config.storage.isComplete then host.connect else return .ok ()

/-- The uploader that a command starts with. -/
def startUploader (host : Host m) (r : Resolved) (o : Options) : ExceptT Failure m Uploader := do
  match ← ExceptT.lift (attach host r) with
  | .error text => throw (.connecting text)
  | .ok () =>
    match uploaderOf r o.offline with
    | .error e => throw (.uploader e)
    | .ok u => return u

/-- The output of a rendering without errors. -/
def finish {α : Type} (r : Rendering α) : ExceptT Failure m α :=
  match r.result with
  | .error e => throw (.template e)
  | .ok output => return output

/-- Whether to go on. Nothing is asked if the options do not want it, or if nobody is there. -/
def confirm (host : Host m) (o : Options) (question : String) : m (Except String Bool) := do
  if o.assumeYes || o.quiet then return .ok true
  else if ← host.isTerminal then host.ask question
  else return .ok true

/-- What is asked before files are sent. -/
def uploadQuestion (u : Uploader) : String :=
  "Upload " ++ toString u.items.length ++ " files?"

/-- Sends the files that are pending, after asking. -/
def upload (host : Host m) (o : Options) (u : Uploader) : ExceptT Failure m Unit := do
  if u.pending.isEmpty then return ()
  else
    match ← ExceptT.lift (confirm host o (uploadQuestion u)) with
    | .error text => throw (.asking text)
    | .ok false => throw (.uploader .cancelled)
    | .ok true =>
      match (← ExceptT.lift (u.execute host)).1 with
      | .error e => throw (.uploading e)
      | .ok _ => return ()

/-- The document that a text spells. -/
def readDocument (text : String) : ExceptT Failure m Json.Value :=
  match Json.read .any (Json.stripComments text) with
  | .error fault => throw (.invalidDocument fault.message)
  | .ok v => return v

/-! ## Commands -/

/-- Renders a text. -/
def runTemplate (host : Host m) (env : Environment) (o : Options) (input output : String) :
    ExceptT Failure m Unit := do
  let r ← load host env o
  let text ← readInput host input
  let u ← startUploader host r o
  let (rendering, u) := Session.render (registry r) text u
  writeOutput host output (← finish rendering)
  upload host o u

/-- Resolves every text of a document. -/
def runResolve (host : Host m) (env : Environment) (o : Options) (input output : String) :
    ExceptT Failure m Unit := do
  let r ← load host env o
  let document ← readDocument (← readInput host input)
  let u ← startUploader host r o
  let (rendering, u) := Session.renderAll (registry r) document u
  writeOutput host output ((← finish rendering).pretty ++ "\n")
  upload host o u

/-- Prints the settings that are set. -/
def runDump (host : Host m) (env : Environment) (o : Options) (raw : Bool) :
    ExceptT Failure m Unit := do
  let r ← load host env o
  let c := if raw then r.raw else r.config
  writeOutput host streamPath (c.dump ++ "\n")

/-- The identifier that is asked for. -/
def Wanted.identifier (ns : Namespace) : Wanted → Identifier
  | .parts ps => ns.hash ps
  | .id => ns.id
  | .folder => ns.uploadPrefix

/-- What identifiers are derived from. A seed beside the settings needs no settings. -/
def namespaceOf (host : Host m) (env : Environment) (o : Options) : ExceptT Failure m Namespace :=
  match Settings.firstNonEmpty [o.overrides.hashNS] with
  | some seed => return Namespace.ofSeed seed
  | none => do return (← load host env o).ns

/-- Prints an identifier. -/
def runHash (host : Host m) (env : Environment) (o : Options) (wanted : Wanted) :
    ExceptT Failure m Unit := do
  let ns ← namespaceOf host env o
  writeOutput host streamPath ((wanted.identifier ns).text ++ "\n")

/-- Runs a request. -/
def Request.run (host : Host m) (env : Environment) (request : Request) :
    ExceptT Failure m Unit :=
  match request.action with
  | .template input output => runTemplate host env request.options input output
  | .resolve input output => runResolve host env request.options input output
  | .dump raw => runDump host env request.options raw
  | .hash wanted => runHash host env request.options wanted

/-! ## The program -/

/-- How the program ends: its exit code, and the text of what failed unless the arguments did. -/
structure Ending where
  code : Nat
  failure : Option String
  deriving DecidableEq

/-- What help says. -/
def helpText : String :=
  "Usage: customazed [OPTIONS] <COMMAND>\n\nCommands:\n" ++
    "  template  Render a text template\n" ++
    "  resolve   Resolve every string of a JSON or JSONC document\n" ++
    "  config    Inspect the configuration\n" ++
    "  hash      Print the identifier for the given parts\n"

/-- Prints a text and ends well, unless it cannot be printed. -/
def showText (host : Host m) (text : String) : m Ending := do
  match ← host.print text with
  | .ok () => return ⟨0, none⟩
  | .error fault => return ⟨1, some fault.message⟩

/-- Prints what was asked for about the program itself, and ends well whatever comes of it. -/
def announce (host : Host m) (text : String) : m Ending := do
  let _ ← host.print text
  return ⟨0, none⟩

/-- Runs the program with some arguments. -/
def runProgram (host : Host m) (env : Environment) (args : List String) : m Ending := do
  match Request.ofArguments env args with
  | .error .usage => return ⟨2, none⟩
  | .error .help => announce host helpText
  | .error (.version title) => announce host (title ++ " " ++ version ++ "\n")
  | .ok request =>
    match ← (request.run host env).run with
    | .ok () => return ⟨0, none⟩
    | .error failure => return ⟨failure.code, some failure.message⟩

end Stencil.Command
