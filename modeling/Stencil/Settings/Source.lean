import Stencil.Host
import Stencil.Json.Comments
import Stencil.Json.Printer
import Stencil.Json.Prune
import Stencil.Json.Reader
import Stencil.Settings.Config
import Stencil.Template.Error
import Stencil.Text.Casing
import Stencil.Text.Path
import Stencil.Yaml.Document

/-!
# Where settings come from

Settings are written in one of two formats, told apart by the ending of their path. The path `-` is
standard input. Where a `.json` file is missing, a `.jsonc` file beside it stands in.
-/

namespace Stencil.Settings

open Json (Value)

/-- What can go wrong between a path and its settings. -/
inductive Failure where
  | notFound (path : String)
  | invalidFormat (path message : String)
  | unresolved (path : String) (cause : Template.Error)
  | unreadable (cause : Fault)

namespace Failure

/-- The text of a failure. -/
def message : Failure → String
  | .notFound path => s!"Config file not found: {path}"
  | .invalidFormat path message => s!"Invalid config format in {path}: {message}"
  | .unresolved path cause => s!"Config {path}: {cause.message}"
  | .unreadable cause => s!"IO error: {cause.message}"

/-- The text of what caused a failure, if it has a text of its own. -/
def cause? : Failure → Option String
  | .unresolved _ cause => some cause.message
  | .unreadable cause => some cause.message
  | _ => none

end Failure

/-- How settings are written. -/
inductive Format where
  | json
  | yaml
  deriving DecidableEq

/-- The format that the ending of a path stands for. -/
def Format.ofPath (path : String) : Format :=
  match Text.Path.ending? path with
  | none => .json
  | some ending =>
    if Text.sameLetters ending "yaml" || Text.sameLetters ending "yml" then .yaml else .json

namespace Config

/-- What is said of a YAML text that holds no settings. The reader of YAML has a message for each
way that a text can fail; this one stands for all of them, and nothing but what is told of the
failure depends on it. -/
def unreadableYaml : String := "not a document that holds settings"

/-- The settings that a text spells. -/
def parse (text : String) (format : Format) (path : String) : Except Failure Config :=
  match format with
  | .json =>
    match Json.read shape (Json.stripComments text) with
    | .error fault => .error (.invalidFormat path fault.message)
    | .ok v => .ok (ofValue v)
  | .yaml =>
    match Yaml.read shape text with
    | none => .error (.invalidFormat path unreadableYaml)
    | some v => .ok (ofValue v)

/-- The settings that are set, as a text. -/
def dump (c : Config) : String :=
  (c.value.prune.getD (.table [])).pretty

end Config

/-! ## Reading -/

/-- The path of standard input. -/
def inputPath : String := "-"

variable {m : Type → Type} [Monad m]

/-- The path that settings are read from when a path is given. -/
def sourcePath (host : Host m) (path : String) : m String := do
  if Text.Path.ending? path == some "json" then
    let other := Text.Path.withEnding path "jsonc"
    if ← host.isPresent path then return path
    else if ← host.isPresent other then return other
    else return path
  else return path

/-- The text of the settings at a path, with the path that it was read from. -/
def readSource (host : Host m) (path : String) : m (Except Failure (String × String)) := do
  if path == inputPath then
    match ← host.readInputText with
    | .error fault => return .error (.unreadable fault)
    | .ok text => return .ok (path, text)
  else
    let path ← sourcePath host path
    if ← host.isPresent path then
      match ← host.readText path with
      | .error fault => return .error (.unreadable fault)
      | .ok text => return .ok (path, text)
    else return .error (.notFound path)

/-- The settings at a path, with the path that they were read from. -/
def Config.load (host : Host m) (path : String) : m (Except Failure (String × Config)) := do
  match ← readSource host path with
  | .error failure => return .error failure
  | .ok (path, text) =>
    return (Config.parse text (Format.ofPath path) path).map fun c => (path, c)

end Stencil.Settings
