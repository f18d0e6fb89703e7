/-!
# Domains of lookup

Where a looked-up value comes from: the settings, the variables among them, or the environment.
-/

namespace Stencil.Template

/-- Where a looked-up value comes from. -/
inductive Domain where
  | config
  | values
  | environment
  deriving DecidableEq

/-- How a message names a domain. -/
def Domain.name : Domain → String
  | .config => "config"
  | .values => "variables"
  | .environment => "environment"

end Stencil.Template
