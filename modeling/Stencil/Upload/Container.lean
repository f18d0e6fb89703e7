import Stencil.Upload.Error
import Stencil.Url.Parser

/-!
# Containers

A container is a directory of files under the address of a storage account. The file of a key stands
at the address of the account, followed by the name of the container and the parts of the key, each
of them as one segment of the path.
-/

namespace Stencil.Upload

/-- A container under an address whose path has segments. -/
structure Container where
  endpoint : Url
  name : String
  deriving DecidableEq

namespace Container

/-- The schemes under which files can be sent. -/
def schemes : List (List Char) := ["https".toList, "http".toList]

/-- Whether a path has segments. -/
def hasSegments : Url.Path → Bool
  | .plain _ => false
  | .segments _ => true

/-- The container of a name under an address. -/
def atEndpoint (endpoint name : String) : Except Error Container :=
  match Url.parse endpoint with
  | .error fault => .error (.invalidEndpoint (endpoint ++ ": " ++ fault.message))
  | .ok url =>
    if schemes.contains url.scheme && hasSegments url.path then .ok ⟨url, name⟩
    else .error (.invalidEndpoint url.text)

/-- The address of an account in the public cloud. -/
def accountEndpoint (account : String) : String :=
  "https://" ++ account ++ ".blob.core.windows.net/"

/-- The container of a name under an account in the public cloud. -/
def ofAccount (account name : String) : Except Error Container :=
  atEndpoint (accountEndpoint account) name

/-- The parts of a key or a local path that name something. -/
def keyParts (key : String) : List String :=
  (Text.splitString '/' key).filter fun part => part != "" && part != "."

/-- The segments of the address of a key. -/
def keySegments (c : Container) (before : List (List Char)) (key : String) : List (List Char) :=
  (c.name :: keyParts key).foldl Url.pushSegment (Url.popEmpty before)

/-- The address of the file of a key. -/
def urlOf (c : Container) (key : String) : Except Error Url :=
  match c.endpoint.path with
  | .plain _ => .error (.invalidEndpoint c.endpoint.text)
  | .segments before => .ok { c.endpoint with path := .segments (c.keySegments before key) }

end Container

end Stencil.Upload
