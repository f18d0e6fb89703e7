import Stencil.Settings.Overrides
import Stencil.Template.Domain
import Stencil.Template.Error
import Stencil.Text.Casing
import Stencil.Text.Split

/-!
# Looking settings up

A setting is found by a path of names with dots between them. Each name is looked for as it is
written first and then without regard to the case of its letters, so that `Storage.AccountName`
finds `storage.accountName`. Variables and the environment are found by their exact names.
-/

namespace Stencil.Settings

open Json (Value)
open Template (Domain)

/-- The field of a name, or else the first one whose name has the same letters. -/
def findField (name : String) (fields : Table Value) : Option Value :=
  match Table.get? name fields with
  | some v => some v
  | none => (fields.find? fun e => Text.sameLetters e.1 name).map (·.2)

/-- Follows a path of names into a document. -/
def follow (path : String) : List String → Value → Except Template.Error Value
  | [], v => .ok v
  | name :: rest, .table fields =>
    match findField name fields with
    | none => .error (.lookup ("Key " ++ Text.quote name ++ " not found in config"))
    | some v => follow path rest v
  | name :: _, _ =>
    .error (.lookup ("Unable to get key " ++ Text.quote name ++ " of config " ++ Text.quote path))

/-- The text of a single setting. -/
def scalarText? : Value → Option String
  | .text s => some s
  | .number n => some (String.ofList n.text)
  | .bool b => some (toString b)
  | .null => some ""
  | .list _ => none
  | .table _ => none

namespace Config

/-- The text of the setting at a path. -/
def atPath (c : Config) (path : String) : Except Template.Error String :=
  match follow path (Text.splitString '.' path) c.value with
  | .error e => .error e
  | .ok v =>
    match scalarText? v with
    | some s => .ok s
    | none => .error (.lookup ("Unable to get value of config " ++ Text.quote path))

/-- Looks a key up in a domain. -/
def lookup (c : Config) (env : Environment) (domain : Domain) (key : String) :
    Except Template.Error String :=
  match domain with
  | .config => c.atPath key
  | .values =>
    match Table.get? key c.values with
    | some s => .ok s
    | none => .error (.lookup ("Key " ++ Text.quote key ++ " not found in variables"))
  | .environment =>
    match Table.get? key env with
    | some s => .ok s
    | none => .error (.lookup ("Environment variable " ++ Text.quote key ++ " not found"))

end Config

end Stencil.Settings
