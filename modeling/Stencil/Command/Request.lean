import Stencil.Command.Arguments
import Stencil.Settings.Overrides

/-!
# Requests

What the command line asks for. The options that every command shares may be given at every level;
the deepest one counts. Where an option is not given, a variable of the environment may stand in.
-/

namespace Stencil.Command

open Settings (Environment Overrides)

/-- What every command is told. -/
structure Options where
  file : String
  overrides : Overrides
  token : Option String
  /-- Addresses are computed and nothing is sent. -/
  offline : Bool
  /-- Files are sent without asking. -/
  assumeYes : Bool
  /-- Nothing is asked, and little is told. -/
  quiet : Bool
  deriving DecidableEq

/-- Which identifiers to print. -/
inductive Wanted where
  | parts (parts : List String)
  | id
  | folder
  deriving DecidableEq

/-- What to do. -/
inductive Action where
  | template (input output : String)
  | resolve (input output : String)
  | dump (raw : Bool)
  | hash (wanted : Wanted)
  deriving DecidableEq

/-- What to do, and with which options. -/
structure Request where
  options : Options
  action : Action
  deriving DecidableEq

/-! ## Levels -/

/-- The name of the program. -/
def program : String := "customazed"

/-- The version of the program. -/
def version : String := "0.1.0"

/-- The options that every command shares. -/
def shared : List Declared :=
  [⟨"config-file", some 'f', true⟩, ⟨"tenant-id", none, true⟩, ⟨"client-id", none, true⟩,
    ⟨"subscription-id", none, true⟩, ⟨"hash-ns", none, true⟩, ⟨"storage-token", none, true⟩,
    ⟨"no-login", none, false⟩, ⟨"yes", some 'y', false⟩, ⟨"verbose", some 'v', false⟩,
    ⟨"quiet", some 'q', false⟩, ⟨"log-json", none, false⟩]

/-- The options of a command that turns an input into an output. -/
def streams : List Declared := [⟨"input", some 'i', true⟩, ⟨"output", some 'o', true⟩]

/-- The name of the command that shows help. -/
def helpName : String := "help"

/-- A level of the command line. -/
def level (names : List String) (own : List Declared) (commands : List String) (takesParts : Bool) :
    Level :=
  ⟨"-".intercalate (program :: names), own ++ shared, commands, takesParts⟩

/-- The level of the program itself. -/
def topLevel : Level := level [] [] ["template", "t", "resolve", "config", "hash", helpName] false

/-- The level of the command that renders a text. -/
def templateLevel : Level := level ["template"] streams [] false

/-- The level of the command that resolves a document. -/
def resolveLevel : Level := level ["resolve"] streams [] false

/-- The level of the commands that show settings. -/
def configLevel : Level := level ["config"] [] ["dump", helpName] false

/-- The level of the command that prints settings. -/
def dumpLevel : Level := level ["config", "dump"] [⟨"raw", none, false⟩] [] false

/-- The level of the command that prints identifiers. -/
def hashLevel : Level := level ["hash"] [⟨"id", none, false⟩, ⟨"prefix", none, false⟩] [] true

/-! ## Values -/

/-- The settings where nothing else is said. -/
def defaultFile : String := "customazed.json"

/-- The value of an option at the deepest level that gives it. -/
def deepest (levels : List Given) (long : String) : Option String :=
  levels.findSome? (·.value? long)

/-- The value of a shared option, or else of a variable of the environment. -/
def optionOrVariable (levels : List Given) (env : Environment) (long variable_ : String) :
    Option String :=
  (deepest levels long).or (Table.get? variable_ env)

/-- The shared options of some levels, the deepest first. -/
def optionsOf (levels : List Given) (env : Environment) : Options where
  file := (optionOrVariable levels env "config-file" "CUSTOMAZED_CONFIG_FILE").getD defaultFile
  overrides :=
    { tenantId := optionOrVariable levels env "tenant-id" "AZURE_TENANT_ID"
      clientId := optionOrVariable levels env "client-id" "AZURE_CLIENT_ID"
      subscriptionId := optionOrVariable levels env "subscription-id" "AZURE_SUBSCRIPTION_ID"
      hashNS := optionOrVariable levels env "hash-ns" "CUSTOMAZED_HASHNS" }
  token := optionOrVariable levels env "storage-token" "CUSTOMAZED_STORAGE_TOKEN"
  offline := levels.any (·.has "no-login")
  assumeYes := levels.any (·.has "yes")
  quiet := levels.any (·.has "quiet")

/-- Which identifiers are asked for: some parts, or one of two that stand alone. -/
def wantedOf (g : Given) : Except Stop Wanted :=
  match g.has "id", g.has "prefix", g.parts with
  | true, false, [] => .ok .id
  | false, true, [] => .ok .folder
  | false, false, part :: parts => .ok (.parts (part :: parts))
  | _, _, _ => .error .usage

/-! ## Reading -/

/-- Whether a path of names leads to a command. -/
def isCommandPath : List String → Bool
  | [] => true
  | ["config", name] => configLevel.commands.contains name
  | [name] => topLevel.commands.contains name
  | _ => false

/-- Help for the command at a path of names, if there is one. -/
def helpFor (names : List String) : Stop :=
  if isCommandPath names then .help else .usage

/-- Reads a command that turns an input into an output. -/
def readStreams (own : Level) (make : String → String → Action) (top : Given) (env : Environment)
    (args : List String) : Except Stop Request := do
  let (g, _) ← own.read none .nothing args
  let input := (g.value? "input").getD "-"
  let output := (g.value? "output").getD "-"
  return ⟨optionsOf [g, top] env, make input output⟩

/-- Reads a command that shows settings. -/
def readConfig (top : Given) (env : Environment) (args : List String) : Except Stop Request := do
  let (config, below) ← configLevel.read none .nothing args
  match below with
  | none => throw .usage
  | some (name, args) =>
    if name == helpName then throw (helpFor ("config" :: args))
    else
      let (g, _) ← dumpLevel.read none .nothing args
      return ⟨optionsOf [g, config, top] env, .dump (g.has "raw")⟩

/-- Reads the command that prints identifiers. -/
def readHash (top : Given) (env : Environment) (args : List String) : Except Stop Request := do
  let (g, _) ← hashLevel.read none .nothing args
  let wanted ← wantedOf g
  return ⟨optionsOf [g, top] env, .hash wanted⟩

/-- Reads the arguments of the program. -/
def Request.ofArguments (env : Environment) (args : List String) : Except Stop Request := do
  let (top, below) ← topLevel.read none .nothing args
  match below with
  | none => throw .usage
  | some (name, args) =>
    if name == helpName then throw (helpFor args)
    else if name == "resolve" then readStreams resolveLevel .resolve top env args
    else if name == "config" then readConfig top env args
    else if name == "hash" then readHash top env args
    else readStreams templateLevel .template top env args

end Stencil.Command
