import Stencil.Identifier
import Stencil.Template.Domain
import Stencil.Template.Function

/-!
# The standard functions

`cfg`, `var` and `env` look a value up, `upload` registers a local file and gives its address,
`hash` makes an identifier of its arguments, `id` and `prefix` are the identifiers of the settings
and of their uploads. What `hash` returns is not expanded.
-/

namespace Stencil.Template

/-- What the standard functions ask of their surroundings. -/
structure Surroundings (σ : Type) where
  lookup : Domain → String → σ → Except Error String × σ
  register : String → σ → Except Error String × σ

namespace Function

variable {σ : Type}

/-- The first of some arguments, which every function of one argument is given. -/
def first (args : List String) : String := args.headD ""

/-- A function that looks its argument up in a domain. -/
def lookup (around : Surroundings σ) (domain : Domain) : Function σ where
  arity := .exactly 1
  expands := true
  sideEffects := false
  call args s := around.lookup domain (first args) s

/-- The function that registers a file. -/
def upload (around : Surroundings σ) : Function σ where
  arity := .exactly 1
  expands := true
  sideEffects := true
  call args s := around.register (first args) s

/-- The function that makes an identifier of its arguments. -/
def hash (ns : Namespace) : Function σ where
  arity := .atLeast 1
  expands := false
  sideEffects := false
  call args s := (.ok (ns.hash args).text, s)

/-- A function that always returns the same identifier. -/
def constant (x : Identifier) : Function σ where
  arity := .exactly 0
  expands := true
  sideEffects := false
  call _ s := (.ok x.text, s)

end Function

/-- The standard functions over some surroundings. -/
def Registry.standard {σ : Type} (around : Surroundings σ) (ns : Namespace) : Registry σ :=
  Table.ofList
    [("cfg", .lookup around .config), ("var", .lookup around .values),
      ("env", .lookup around .environment), ("upload", .upload around), ("hash", .hash ns),
      ("id", .constant ns.id), ("prefix", .constant ns.uploadPrefix)]

end Stencil.Template
