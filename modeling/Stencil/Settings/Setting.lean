import Stencil.Json.Shape
import Stencil.Lens
import Stencil.Texts

/-!
# Declared settings

Settings of a type are declared once, each with its name, its kind and its place. How they are read
and written follows from the declaration: a setting that a document does not mention keeps its
value.
-/

namespace Stencil.Settings

open Json (Shape Value)

/-- A setting by its kind and its place. -/
inductive Setting (α : Type) where
  | text (place : Lens α String)
  | flag (place : Lens α Bool)
  | texts (place : Lens α (List String))
  | named (place : Lens α (Table String))

/-- What settings of a type are made of: single settings, and groups under a title. -/
inductive Part (α : Type) where
  | single (setting : Setting α)
  | group (title : String) (settings : List (String × Setting α))

namespace Setting

variable {α β : Type}

/-- A setting inside a place. -/
def inside (outer : Lens α β) : Setting β → Setting α
  | .text place => .text (outer.inside place)
  | .flag place => .flag (outer.inside place)
  | .texts place => .texts (outer.inside place)
  | .named place => .named (outer.inside place)

/-- What a document must hold for the setting. -/
def shape : Setting α → Shape
  | .text _ => .text
  | .flag _ => .flag
  | .texts _ => .list .text
  | .named _ => .table .text

/-- The setting in a document. -/
def value (a : α) : Setting α → Value
  | .text place => .text (place.get a)
  | .flag place => .bool (place.get a)
  | .texts place => .list ((place.get a).map .text)
  | .named place => .table ((place.get a).map fun e => (e.1, .text e.2))

/-- The text of a value that is one. -/
def text? : Value → Option String
  | .text s => some s
  | _ => none

/-- Sets the setting to what a document holds for it. -/
def put (v : Value) (a : α) : Setting α → α
  | .text place =>
    match v with
    | .text s => place.set s a
    | _ => a
  | .flag place =>
    match v with
    | .bool b => place.set b a
    | _ => a
  | .texts place =>
    match v with
    | .list items => place.set (items.filterMap text?) a
    | _ => a
  | .named place =>
    match v with
    | .table fields => place.set (fields.filterMap fun e => (text? e.2).map (e.1, ·)) a
    | _ => a

/-- Visits every text of some texts. -/
def mapList {m : Type → Type} [Monad m] (visit : String → m String) :
    List String → m (List String)
  | [] => return []
  | s :: rest => do
    let s ← visit s
    return s :: (← mapList visit rest)

/-- Visits every text of some named texts. -/
def mapNamed {m : Type → Type} [Monad m] (visit : String → m String) :
    Table String → m (Table String)
  | [] => return []
  | (name, s) :: rest => do
    let s ← visit s
    return (name, s) :: (← mapNamed visit rest)

end Setting

/-! ## Declarations -/

variable {α : Type}

/-- The fields that a document may hold for some settings. -/
def settingShapes (settings : List (String × Setting α)) : List (String × Shape) :=
  settings.map fun e => (e.1, e.2.shape)

/-- Some settings in a document. -/
def settingsValue (settings : List (String × Setting α)) (a : α) : Value :=
  .table (Table.ofList (settings.map fun e => (e.1, e.2.value a)))

/-- Sets the settings that a document mentions. -/
def putSettings (settings : List (String × Setting α)) (v : Value) (a : α) : α :=
  match v with
  | .table fields =>
    settings.foldl
      (fun a e =>
        match Table.get? e.1 fields with
        | some v => e.2.put v a
        | none => a) a
  | _ => a

namespace Part

/-- What a document must hold for the part. -/
def shape : Part α → Shape
  | .single s => s.shape
  | .group title settings => .record title (settingShapes settings)

/-- The part in a document. -/
def value (a : α) : Part α → Value
  | .single s => s.value a
  | .group _ settings => settingsValue settings a

/-- Sets the part to what a document holds for it. -/
def put (v : Value) (a : α) : Part α → α
  | .single s => s.put v a
  | .group _ settings => putSettings settings v a

end Part

/-- The fields that a document may hold for some parts. -/
def partShapes (parts : List (String × Part α)) : List (String × Shape) :=
  parts.map fun e => (e.1, e.2.shape)

/-- Some parts in a document. -/
def partsValue (parts : List (String × Part α)) (a : α) : Value :=
  .table (Table.ofList (parts.map fun e => (e.1, e.2.value a)))

/-- Sets the parts that a document mentions. -/
def putParts (parts : List (String × Part α)) (v : Value) (a : α) : α :=
  match v with
  | .table fields =>
    parts.foldl
      (fun a e =>
        match Table.get? e.1 fields with
        | some v => e.2.put v a
        | none => a) a
  | _ => a

end Stencil.Settings
