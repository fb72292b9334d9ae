import PicBoard.FileTree
import PicBoard.Gateway.Access

/-!
# Reading pics

The file of a pic or of its thumbnail, for a caller who may read pics.
-/

namespace PicBoard.Gateway

/-- The content type of a file by its extension. -/
def contentType (ext : Bytes) : String :=
  if ext = Bytes.ofText "jpg" ∨ ext = Bytes.ofText "jpeg" then "image/jpeg"
  else if ext = Bytes.ofText "png" then "image/png"
  else if ext = Bytes.ofText "gif" then "image/gif"
  else if ext = Bytes.ofText "webp" then "image/webp"
  else if ext = Bytes.ofText "webm" then "video/webm"
  else "application/octet-stream"

/-- A file that is sent to a caller. -/
structure ServedFile where
  contentType : String
  content : Bytes
deriving DecidableEq, Repr

/-- Answers a request for a file; `read` reads a path. -/
def readPix (g : Gateway) (now : Instant) (root : Bytes) (read : Bytes → FileRead)
    (file : String) (headers : List Header) : Except GatewayError ServedFile := do
  g.checkPixAccess now headers
  match PixName.parse (Bytes.ofText file) with
  | .error e => .error (.badPixName file e)
  | .ok name =>
    match read (name.path root) with
    | .ok content => return { contentType := contentType name.ext, content }
    | .error .missing => .error (.notFound file)
    | .error _ => .error (.internal .unreadableFile)

end PicBoard.Gateway
