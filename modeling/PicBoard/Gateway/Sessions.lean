import PicBoard.Gateway.Access
import PicBoard.Secret.Bcrypt
import PicBoard.Session.Store
import PicBoard.Token.View

/-!
# Logging in, renewing and logging out

A caller is identified by a refresh token, by a previous auth token, or by name and secret: by the
first of these that is given, and by no other.  Then, in one step, the family that was presented
ends and a new one starts, and tokens of the new family are issued.  A logout ends the family that
an auth token came with.
-/

namespace PicBoard

/-- Whether a secret is the user's. -/
def User.secretMatches (u : User) (secret : String) : Bool :=
  Bcrypt.verify (Bytes.ofText secret) (Bytes.ofText u.secretHash)

namespace Gateway

/-- A caller who was identified, with the family that they presented, if they presented one. -/
structure Identity where
  user : User
  family : Option Int64
deriving DecidableEq

/-- The user whom a token is for. -/
def knownUser (store : UserStore) (userId : Int64) : Except GatewayError User :=
  match store.findById userId with
  | some u => .ok u
  | none => .error (.unauthenticated .unknownUser)

/-- Identifies a caller by a refresh token. -/
def identifyByRefresh (g : Gateway) (now : Instant) (store : UserStore) (token : String) :
    Except GatewayError Identity :=
  match Token.validateRefresh g.mac now (Bytes.ofText token) with
  | .error e => .error (.ofToken e)
  | .ok claims => do
    let user ← knownUser store claims.userId
    return { user, family := some claims.family }

/-- Identifies a caller by a previous auth token. -/
def identifyByAuth (g : Gateway) (now : Instant) (store : UserStore) (token : String) :
    Except GatewayError Identity :=
  match Token.validateAuth g.mac now (Bytes.ofText token) with
  | .error e => .error (.ofToken e)
  | .ok claims =>
    match claims.family with
    | none => .error (.ofToken (.malformed .noFamily))
    | some family => do
      let user ← knownUser store claims.userId
      return { user, family := some family }

/-- Identifies a caller by name and secret. -/
def identifyBySecret (store : UserStore) (ident secret : String) :
    Except GatewayError Identity :=
  match (store.findByIdent ident).filter (·.secretMatches secret) with
  | some user => .ok { user, family := none }
  | none => .error (.unauthenticated .badCredentials)

/-- Identifies the caller of a request for tokens. -/
def identify (g : Gateway) (now : Instant) (store : UserStore) (request : TokenRequest) :
    Except GatewayError Identity :=
  if request.refreshToken ≠ "" then g.identifyByRefresh now store request.refreshToken
  else if request.previousAuthToken ≠ "" then
    g.identifyByAuth now store request.previousAuthToken
  else if request.ident = "" then .error (.ofToken .missingToken)
  else identifyBySecret store request.ident request.secret

/-- Tokens for a caller, and the cookie to set. -/
structure TokenGrant where
  response : TokenResponse
  cookie : Option Bytes
deriving DecidableEq, Repr

/-- The answer that carries issued tokens. -/
def respond (t : IssuedTokens) : TokenResponse where
  refreshToken := t.refresh.token.toLatin1
  authToken := t.auth.token.toLatin1
  pixToken := t.pix.map (·.token.toLatin1)
  refreshPayload := t.refresh.payload.view
  authPayload := t.auth.payload.view
  pixPayload := t.pix.map (·.payload.view)

/-- Issues the tokens of a new family. -/
def grant (g : Gateway) (now : Instant) (user : User) (family : Int64) :
    Except GatewayError TokenGrant :=
  match IssuedTokens.issue? g.mac g.windows now user.userId user.capabilities family g.issuer with
  | none => .error .clockUnreadable
  | some issued =>
    match issued.pix with
    | none => .ok { response := respond issued, cookie := none }
    | some pix =>
      if Int64.maxValue.toInt < g.windows.refresh then .error (.internal .windowOutOfRange)
      else
        match g.pixCookieHeader pix.token g.windows.refresh with
        | .error e => .error e
        | .ok cookie => .ok { response := respond issued, cookie := some cookie }

/-- Answers a request for tokens, where `fresh` is a family id that was not used before. -/
def getRefreshToken (g : Gateway) (now : Instant) (fresh : Int64) (request : TokenRequest)
    (store : UserStore) : Except GatewayError TokenGrant × UserStore :=
  match g.identify now store request with
  | .error e => (.error e, store)
  | .ok who =>
    match store.rotate? who.user.userId who.family fresh with
    | none => (.error (.unauthenticated .deadFamily), store)
    | some store => (g.grant now who.user fresh, store)

/-- The family whose end a logout asks for. -/
def identifyLogout (g : Gateway) (now : Instant) (headers : List Header) :
    Except GatewayError (Int64 × Int64) :=
  match g.requireAuth now headers with
  | .error e => .error e
  | .ok claims =>
    match claims.family with
    | none => .error (.ofToken (.malformed .noFamily))
    | some family => .ok (claims.userId, family)

/-- Answers a logout: the cookie that takes the pix cookie away. -/
def deleteToken (g : Gateway) (now : Instant) (headers : List Header) (store : UserStore) :
    Except GatewayError Bytes × UserStore :=
  match g.identifyLogout now headers with
  | .error e => (.error e, store)
  | .ok (userId, family) =>
    match store.revoke? userId family with
    | none => (.error (.unauthenticated .deadFamily), store)
    | some store => (g.pixCookieHeader [] 0, store)

end Gateway

end PicBoard
