import PicBoard.PixTree
import PicBoard.Session.Message
import PicBoard.Text.Quoted
import PicBoard.Token.Refusal

/-!
# Failures of the gateway

Every failure to show who one is gets one and the same answer, which tells nothing of its cause.
-/

namespace PicBoard

/-- Why a caller is not taken for who they say they are. -/
inductive AuthFailure where
  | token (cause : TokenError)
  | unknownUser
  | deadFamily
  | badCredentials
deriving DecidableEq, Repr

/-- The cause, for the log. -/
def AuthFailure.detail : AuthFailure → String
  | .token e => e.message
  | .unknownUser => "unknown user"
  | .deadFamily => "refresh family is not live"
  | .badCredentials => "bad ident or secret"

/-- What goes wrong inside. -/
inductive InternalFault where
  | badCookie
  | windowOutOfRange
  | unreadableFile
deriving DecidableEq, Repr

/-- The cause, for the log. -/
def InternalFault.detail : InternalFault → String
  | .badCookie => "bad cookie: failed to parse header value"
  | .windowOutOfRange => "refresh window out of range"
  | .unreadableFile => "file cannot be read"

/-- Why a request fails. -/
inductive GatewayError where
  | unauthenticated (cause : AuthFailure)
  | badPixName (file : String) (cause : PixName.Error)
  | notFound (file : String)
  | internal (fault : InternalFault)
  /-- The clock reads a time of which there is no timestamp, and the program stops. -/
  | clockUnreadable
deriving DecidableEq, Repr

namespace GatewayError

/-- The failure of a token that was presented. -/
def ofToken : TokenError → GatewayError
  | .clockUnreadable => .clockUnreadable
  | e => .unauthenticated (.token e)

/-- The failure in full, for the log. -/
def detail : GatewayError → String
  | .unauthenticated cause => "unauthenticated: " ++ cause.detail
  | .badPixName file cause =>
    "invalid argument: bad pix name " ++ Text.quoted file ++ ": " ++ cause.message
  | .notFound file => "not found: " ++ file
  | .internal fault => "internal error: " ++ fault.detail
  | .clockUnreadable => "internal error: clock out of range"

/-- The status of the answer. -/
def status : GatewayError → Nat
  | .unauthenticated _ => 401
  | .badPixName _ _ => 400
  | .notFound _ => 404
  | .internal _ | .clockUnreadable => 500

/-- What the caller is told. -/
def report : GatewayError → ErrorReport
  | .unauthenticated _ => { code := "unauthenticated", message := "unauthenticated" }
  | e@(.badPixName _ _) => { code := "invalid_argument", message := e.detail }
  | e@(.notFound _) => { code := "not_found", message := e.detail }
  | .internal _ | .clockUnreadable => { code := "internal", message := "internal error" }

end GatewayError

end PicBoard
