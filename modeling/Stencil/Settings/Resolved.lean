import Stencil.Settings.Lookup
import Stencil.Settings.Source
import Stencil.Template.Session
import Stencil.Template.Standard

/-!
# Resolved settings

Settings may refer to each other, to the environment and to identifiers. Resolving renders all their
texts in one session whose lookups answer from the settings as they are written; looked-up values
expand in turn, so the outcome is the same as if they answered from the resolved ones. Uploads are
refused meanwhile.
-/

namespace Stencil.Settings

open Template (Surroundings Registry Session)

/-- Settings with everything that they refer to. -/
structure Resolved where
  /-- The path that the settings were read from. -/
  file : String
  /-- The settings as written, with overrides. -/
  raw : Config
  /-- The settings with every placeholder resolved. -/
  config : Config
  /-- What identifiers are derived from. -/
  ns : Namespace
  /-- The environment that lookups answer from. -/
  env : Environment

/-- Lookups answer from some settings, and uploads are refused. -/
def closedSurroundings (c : Config) (env : Environment) (reason : String) : Surroundings Unit where
  lookup domain key s := (c.lookup env domain key, s)
  register _ s := (.error (.uploadsDisabled reason), s)

namespace Resolved

/-- Resolves settings. -/
def resolve (file : String) (raw : Config) (env : Environment) : Except Failure Resolved :=
  let ns := Namespace.ofSeed raw.hashNS
  let around := closedSurroundings raw env s!"upload: forbidden in {file}"
  let r := (Session.renderAll (Registry.standard around ns) raw ()).1
  match r.result with
  | .error e => .error (.unresolved file e)
  | .ok config => .ok ⟨file, raw, config, ns, env⟩

/-- Looks a key up in the resolved settings. -/
def lookup (r : Resolved) (domain : Template.Domain) (key : String) :
    Except Template.Error String :=
  r.config.lookup r.env domain key

/-- Reads the settings at a path, applies overrides and resolves them. -/
def load {m : Type → Type} [Monad m] (host : Host m) (path : String) (overrides : Overrides)
    (env : Environment) : m (Except Failure Resolved) := do
  match ← Config.load host path with
  | .error failure => return .error failure
  | .ok (file, written) =>
    let fresh ← host.freshSeed
    return resolve file (overrides.apply fresh written) env

end Resolved

end Stencil.Settings
