import Stencil.Settings.Config

/-!
# Overrides

Four settings may also be given on the command line or through the environment. An empty value
counts as none at every level: the flag comes first, then the environment, the file and the default.
Without any seed a fresh one is taken, so that identifiers are stable only when a seed is set
somewhere.
-/

namespace Stencil.Settings

/-- The variables of the environment. -/
abbrev Environment := Table String

/-- The first item that is present and not empty. -/
def firstNonEmpty (items : List (Option String)) : Option String :=
  items.findSome? fun item => item.filter (!·.isEmpty)

/-- Settings given beside the file. -/
structure Overrides where
  tenantId : Option String := none
  clientId : Option String := none
  subscriptionId : Option String := none
  hashNS : Option String := none
  deriving DecidableEq

/-- The tenant of who belongs to none in particular. -/
def defaultTenantId : String := "common"

/-- The client that is registered for this program. -/
def defaultClientId : String := "a3c13aac-2eb7-4d8a-b7ae-c29b516d566b"

namespace Overrides

/-- The environment variable of each setting. -/
def ofEnvironment (env : Environment) : Overrides where
  tenantId := Table.get? "AZURE_TENANT_ID" env
  clientId := Table.get? "AZURE_CLIENT_ID" env
  subscriptionId := Table.get? "AZURE_SUBSCRIPTION_ID" env
  hashNS := Table.get? "CUSTOMAZED_HASHNS" env

/-- A value unless it is empty, else another. -/
def pick (value other : Option String) : Option String :=
  (value.filter (!·.isEmpty)).or other

/-- Fills what is missing from other overrides. -/
def or (o other : Overrides) : Overrides where
  tenantId := pick o.tenantId other.tenantId
  clientId := pick o.clientId other.clientId
  subscriptionId := pick o.subscriptionId other.subscriptionId
  hashNS := pick o.hashNS other.hashNS

/-- A value given beside the file, else the one in the file, else a default. -/
def settle (given : Option String) (written fallback : String) : String :=
  (firstNonEmpty [given, some written, some fallback]).getD ""

/-- Applies the overrides to the settings of a file. -/
def apply (o : Overrides) (fresh : String) (c : Config) : Config :=
  { c with
    tenantId := settle o.tenantId c.tenantId defaultTenantId
    clientId := settle o.clientId c.clientId defaultClientId
    subscriptionId := settle o.subscriptionId c.subscriptionId ""
    hashNS := settle o.hashNS c.hashNS fresh }

end Overrides

end Stencil.Settings
