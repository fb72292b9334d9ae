import PicBoard.Gateway.Header
import PicBoard.Gateway.Refusal
import PicBoard.Gateway.Settings
import PicBoard.Token.Claims

/-!
# What callers may do

Who a caller is, by the auth token in a header, and whether a caller may read pics, by the pix
token in a cookie or a header.
-/

namespace PicBoard.Gateway

/-- Reads the one auth token of a request. -/
def requireAuth (g : Gateway) (now : Instant) (headers : List Header) :
    Except GatewayError AuthClaims :=
  match Header.texts headers authTokenHeader with
  | [token] =>
    match Token.validateAuth g.mac now token with
    | .ok claims => .ok claims
    | .error e => .error (.ofToken e)
  | [] => .error (.ofToken .missingToken)
  | _ => .error (.ofToken (.malformed .tooManyTokens))

/-- The pix tokens of a request: those in cookies, and then those in headers. -/
def pixTokens (g : Gateway) (headers : List Header) : List Bytes :=
  Header.cookies headers (Bytes.ofText g.pixCookie) ++ Header.texts headers pixTokenHeader

/-- Checks that a caller may read pics. -/
def checkPixAccess (g : Gateway) (now : Instant) (headers : List Header) :
    Except GatewayError Unit :=
  let tokens := g.pixTokens headers
  if 1 < tokens.length then .error (.ofToken (.malformed .tooManyTokens))
  else
    match Token.validatePix g.mac now tokens.head? (g.anonymous.contains .picRead) with
    | .ok _ => .ok ()
    | .error e => .error (.ofToken e)

/-- The header value that sets the pix cookie for so many seconds; there is none when a byte of
it may not stand in a header. -/
def pixCookieHeader (g : Gateway) (token : Bytes) (maxAge : Int) : Except GatewayError Bytes :=
  let value :=
    Bytes.ofText g.pixCookie ++ 61 :: token ++ Bytes.ofText "; Path=/pix/; Max-Age=" ++
      Decimal.integer maxAge ++ Bytes.ofText "; HttpOnly; SameSite=Strict"
  if value.all Header.isAllowed then .ok value else .error (.internal .badCookie)

end PicBoard.Gateway
