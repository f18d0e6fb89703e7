import Stencil.Table
import Stencil.Template.Error
import Stencil.Template.Node

/-!
# Functions

A function takes texts and the state of its surroundings, and returns a text or an error and the
state after it. A registry holds functions under names. A call is checked against the registry
before anything runs.
-/

namespace Stencil.Template

/-- A function over surroundings in a state `σ`. Its result is a template again if it `expands`. One
with side effects does not run after an error. -/
structure Function (σ : Type) where
  arity : Arity
  expands : Bool
  sideEffects : Bool
  call : List String → σ → Except Error String × σ

/-- Functions under names. -/
abbrev Registry (σ : Type) := Table (Function σ)

namespace Registry

variable {σ : Type}

/-- Whether a function of this name takes this many arguments. -/
def check (registry : Registry σ) (name : String) (count : Nat) : Except Error Unit :=
  match Table.get? name registry with
  | none => .error (.unknownFunction name)
  | some f =>
    if f.arity.accepts count then .ok () else .error (.wrongArity name f.arity count)

/-- Checks the calls among some nodes, up to the first that is wrong. -/
def checkNodes (registry : Registry σ) : List Node → Except Error Unit
  | [] => .ok ()
  | .call c :: rest =>
    match registry.check c.name c.args.length with
    | .error e => .error e
    | .ok () => registry.checkNodes rest
  | .text _ :: rest => registry.checkNodes rest
  | .literal _ :: rest => registry.checkNodes rest

/-- The registry as a message shows it: the names of its functions. -/
def describe (registry : Registry σ) : String :=
  let names := ", ".intercalate (registry.names.map Text.quote)
  "FunctionRegistry \x7b functions: [" ++ names ++ "] \x7d"

end Registry

end Stencil.Template
