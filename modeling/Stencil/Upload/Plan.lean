import Stencil.Host
import Stencil.Table
import Stencil.Text.Blank
import Stencil.Upload.Container

/-!
# Plans of uploads

A template that mentions a local file gets the address where the file will be, and the file goes
into a plan. Nothing is sent before the plan is executed; then the files are sent in the order in
which they were added, up to the first that fails. A file that was sent once is not sent again. All
spellings of a local path are one file of the plan, and no path may go up, since two files could
meet at one address then.
-/

namespace Stencil.Upload

/-- A file of a plan: its local path as it was written, its key in the container, its address and
whether it was sent. -/
structure Planned where
  source : String
  key : String
  url : Url
  sent : Bool
  deriving DecidableEq

/-- What a plan waits for. -/
inductive Stage where
  | idle
  | planning
  | executing
  | done
  deriving DecidableEq

/-- What a plan waits for once a file was added. -/
def Stage.added : Stage → Stage
  | .idle | .done => .planning
  | stage => stage

/-- A plan: where its files go, the files, the place of each under its key inside the folder,
whether they may be sent, and what it waits for. -/
structure Plan where
  container : Container
  folder : String
  items : List Planned
  index : Table Nat
  online : Bool
  stage : Stage
  deriving DecidableEq

/-- The key of a local path inside the folder of a plan. -/
def sourceKey (source : String) : Except Error String :=
  let parts := Container.keyParts (String.ofList (Text.trim Text.isBlank source.toList))
  if parts.isEmpty || parts.contains ".." then .error (.invalidSource source)
  else .ok ("/".intercalate parts)

namespace Plan

/-- A plan without files. -/
def empty (container : Container) (folder : String) (online : Bool) : Plan :=
  ⟨container, folder, [], [], online, .idle⟩

/-- The address of the folder that all files go to. -/
def destination (p : Plan) : Except Error Url :=
  p.container.urlOf p.folder

/-- The key of a file in the container. -/
def keyOf (p : Plan) (relative : String) : String :=
  p.folder ++ "/" ++ relative

/-- The file of a key inside the folder. -/
def find? (p : Plan) (relative : String) : Option Planned :=
  (Table.get? relative p.index).bind fun i => p.items[i]?

/-- The files that were not sent yet. -/
def pending (p : Plan) : List Planned :=
  p.items.filter (!·.sent)

/-- Adds a local file unless it is there already; its address is the result. -/
def add (p : Plan) (source : String) : Except Error (String × Plan) :=
  match sourceKey source with
  | .error e => .error e
  | .ok relative =>
    match p.find? relative with
    | some item => .ok (item.url.text, p)
    | none =>
      let key := p.keyOf relative
      match p.container.urlOf key with
      | .error e => .error e
      | .ok url =>
        let index := Table.insert relative p.items.length p.index
        let items := p.items ++ [⟨source, key, url, false⟩]
        .ok (url.text, { p with items, index, stage := p.stage.added })

/-! ## Sending -/

variable {m : Type → Type} [Monad m]

/-- Sends a file as it is now. -/
def transfer (host : Host m) (item : Planned) : m (Except Error Unit) := do
  match ← host.read item.source with
  | .error fault => return .error (.unreadable item.source fault)
  | .ok octets =>
    match ← host.send item.url.text octets with
    | .error message => return .error (.refused item.url.text message)
    | .ok () => return .ok ()

/-- Sends the files that were not sent yet, up to the first that fails. The results are the files
afterwards, how many were sent, and what failed. -/
def sendAll (host : Host m) : List Planned → m (List Planned × Nat × Option Error)
  | [] => return ([], 0, none)
  | item :: rest => do
    if item.sent then
      let (rest, count, failed) ← sendAll host rest
      return (item :: rest, count, failed)
    else
      match ← transfer host item with
      | .error e => return (item :: rest, 0, some e)
      | .ok () =>
        let (rest, count, failed) ← sendAll host rest
        return ({ item with sent := true } :: rest, count + 1, failed)

/-- Executes a plan: the number of files sent, or what failed, and the plan afterwards. -/
def execute (host : Host m) (p : Plan) : m (Except Error Nat × Plan) := do
  if p.pending.isEmpty || !p.online then return (.ok 0, p)
  else
    let p := { p with stage := .executing }
    match ← sendAll host p.items with
    | (items, count, none) => return (.ok count, { p with items, stage := .done })
    | (items, _, some e) => return (.error e, { p with items, stage := .planning })

end Plan

/-! ## Uploaders -/

/-- What stands behind the function that uploads: a plan, or nothing for a reason. -/
inductive Uploader where
  | disabled (reason : String)
  | enabled (plan : Plan)

namespace Uploader

/-- The files of the plan. -/
def items : Uploader → List Planned
  | .disabled _ => []
  | .enabled p => p.items

/-- The files of the plan that were not sent yet. -/
def pending (u : Uploader) : List Planned :=
  u.items.filter (!·.sent)

/-- Adds a local file; its address is the result. -/
def add (source : String) : Uploader → Except Error String × Uploader
  | .disabled reason => (.error (.forbidden reason), .disabled reason)
  | .enabled p =>
    match p.add source with
    | .error e => (.error e, .enabled p)
    | .ok (url, p) => (.ok url, .enabled p)

/-- Adds a local file for a template. -/
def register (source : String) (u : Uploader) : Except Template.Error String × Uploader :=
  let r := u.add source
  (r.1.mapError Error.inTemplate, r.2)

/-- Executes the plan. -/
def execute {m : Type → Type} [Monad m] (host : Host m) :
    Uploader → m (Except Error Nat × Uploader)
  | .disabled reason => return (.error (.forbidden reason), .disabled reason)
  | .enabled p => do
    let (result, p) ← p.execute host
    return (result, .enabled p)

end Uploader

end Stencil.Upload
