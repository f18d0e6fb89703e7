import Stencil.Files
import Stencil.Template.Error

/-!
# Errors of uploads
-/

namespace Stencil.Upload

/-- What can go wrong with planning and sending files. -/
inductive Error where
  | forbidden (reason : String)
  | invalidSource (source : String)
  | cancelled
  | invalidEndpoint (text : String)
  | unreadable (path : String) (cause : Fault)
  | refused (target message : String)
  deriving DecidableEq

namespace Error

/-- The text of an error. -/
def message : Error → String
  | .forbidden reason => reason
  | .invalidSource source => "Blob: invalid source path " ++ Text.quote source
  | .cancelled => "Blob: uploads cancelled"
  | .invalidEndpoint text => s!"Invalid blob endpoint: {text}"
  | .unreadable path cause => s!"Blob: reading {path}: {cause.message}"
  | .refused target message => s!"Blob: uploading to {target} failed: {message}"

/-- The text of what caused an error, if it has a text of its own. -/
def cause? : Error → Option String
  | .unreadable _ cause => some cause.message
  | _ => none

/-- How a template sees an error: a refusal is no failure of an upload. -/
def inTemplate : Error → Template.Error
  | .forbidden reason => .uploadsDisabled reason
  | e => .upload e.message

end Error

end Stencil.Upload
