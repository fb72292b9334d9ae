import PicBoard.Gateway.Pixels
import PicBoard.Gateway.Sessions
import PicBoard.Json.Printer

/-!
# Answers

What is sent back to a caller: a status, the type and the bytes of the body, and cookies to set.
-/

namespace PicBoard.Gateway

/-- An answer to a request. -/
structure Reply where
  status : Nat
  contentType : String
  body : Bytes
  setCookies : List Bytes
deriving DecidableEq, Repr

namespace Reply

/-- The content type of a JSON body. -/
def jsonType : String := "application/json"

/-- An answer whose body is JSON. -/
def ofJson (status : Nat) (body : Json) (setCookies : List Bytes) : Reply :=
  { status, contentType := jsonType, body := body.compact, setCookies }

/-- The answer to a request that fails. -/
def ofError (e : GatewayError) : Reply := ofJson e.status e.report.toJson []

/-- The answer to a request for tokens. -/
def ofGrant : Except GatewayError TokenGrant → Reply
  | .ok grant => ofJson 200 grant.response.toJson grant.cookie.toList
  | .error e => ofError e

/-- The answer to a logout. -/
def ofLogout : Except GatewayError Bytes → Reply
  | .ok cookie => ofJson 200 (.object []) [cookie]
  | .error e => ofError e

/-- The answer to a request for a file. -/
def ofFile : Except GatewayError ServedFile → Reply
  | .ok f => { status := 200, contentType := f.contentType, body := f.content, setCookies := [] }
  | .error e => ofError e

end Reply

end PicBoard.Gateway
