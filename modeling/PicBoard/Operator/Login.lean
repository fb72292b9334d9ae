import PicBoard.Json.Printer
import PicBoard.Json.Reader
import PicBoard.Operator.Failure
import PicBoard.Session.Message
import PicBoard.Text.Blank
import PicBoard.Token.Lifetime

/-!
# Logging in

The last tokens are kept in a file.  While they are live no request is made; once they should be
renewed the refresh token is used; and when that is dead too, name and secret are.
-/

namespace PicBoard.Operator

/-! ## The token file -/

/-- The content of the file that keeps a response. -/
def writeTokenFile (r : TokenResponse) : Bytes := r.toJson.spread

/-- Reads the response that a file keeps; a file with anything else counts as none. -/
def readTokenFile? (content : Bytes) : Option TokenResponse :=
  (Json.parse content).bind TokenResponse.ofJson?

/-! ## What to do with saved tokens -/

/-- How to come by tokens that are good. -/
inductive LoginPlan where
  | reuse
  | refresh (token : String)
  | authenticate
deriving DecidableEq, Repr

namespace LoginPlan

/-- The state of a saved token, which the client reads without the key; one that cannot be read
counts as expired.  There is no answer when there is no timestamp of the time. -/
def stateOf? (token : String) (now : Instant) : Option TokenState :=
  match Token.decodeUnverified (Bytes.ofText token) with
  | .ok p => TokenState.read? p now
  | .error _ => some .expired

/-- Whether a saved token, if there is one, is live. -/
def isLive? (token : Option String) (now : Instant) : Option Bool :=
  match token with
  | none => some true
  | some t => (stateOf? t now).map (· == .live)

/-- The plan for a saved response, as far as the time has a timestamp. -/
def make? (saved : Option TokenResponse) (now : Instant) : Option LoginPlan :=
  match saved with
  | none => some .authenticate
  | some saved => do
    let auth ← stateOf? saved.authToken now
    let pixIsLive ← isLive? saved.pixToken now
    if auth = .live ∧ pixIsLive = true then return .reuse
    let refresh ← stateOf? saved.refreshToken now
    return if refresh.isUsable then .refresh saved.refreshToken else .authenticate

end LoginPlan

/-! ## Name and secret -/

/-- A name and a secret. -/
structure Credentials where
  ident : String
  secret : String
deriving DecidableEq, Repr

/-- What was given, or else what is answered. -/
def givenOr {m : Type → Type} [Monad m] (ask : Prompt → m (Option String)) (prompt : Prompt) :
    Option String → m (Except OperatorError String)
  | some text => return .ok text
  | none => do
    match ← ask prompt with
    | some text => return .ok text
    | none => return .error (.promptFailed prompt)

/-- The name on the first line of an input, without the blanks around it. -/
def identOfInput (input : Bytes) : Option String :=
  (Bytes.toText? (input.takeWhile (· ≠ 10))).map Text.trim

/-- Asks for what of name and secret is not given.  Without a name the secret is not asked
for. -/
def credentials {m : Type → Type} [Monad m] (ask : Prompt → m (Option String))
    (ident secret : Option String) : m (Except OperatorError Credentials) := do
  match ← givenOr ask .ident ident with
  | .error e => return .error e
  | .ok "" => return .error .noIdent
  | .ok ident =>
    match ← givenOr ask .secret secret with
    | .error e => return .error e
    | .ok secret => return .ok { ident, secret }

/-! ## The whole -/

/-- What the operator wants. -/
structure LoginRequest where
  gateway : String
  ident : Option String
  secret : Option String
  tokenFile : String
deriving DecidableEq, Repr

/-- The address of the token service of a gateway. -/
def tokenServiceUrl (gateway : String) : String :=
  String.ofList (gateway.toList.reverse.dropWhile (· = '/')).reverse ++ "/api/getRefreshToken"

/-- What a login needs of its surroundings. -/
structure LoginMeans (m : Type → Type) where
  ask : Prompt → m (Option String)
  /-- Sends a request to an address; there is no answer when the address cannot be reached. -/
  send : String → TokenRequest → m (Option TokenResponse)

/-- Requests tokens. -/
def requestTokens {m : Type → Type} [Monad m] (means : LoginMeans m) (gateway : String)
    (request : TokenRequest) : m (Except OperatorError TokenResponse) := do
  match ← means.send (tokenServiceUrl gateway) request with
  | some response => return .ok response
  | none => return .error (.unreachable (tokenServiceUrl gateway))

/-- Requests tokens by name and secret. -/
def authenticate {m : Type → Type} [Monad m] (means : LoginMeans m) (r : LoginRequest) :
    m (Except OperatorError TokenResponse) := do
  match ← credentials means.ask r.ident r.secret with
  | .error e => return .error e
  | .ok who => requestTokens means r.gateway { ident := who.ident, secret := who.secret }

/-- Tokens that a login comes by, and whether they are new and are to be kept. -/
structure LoginResult where
  response : TokenResponse
  isFresh : Bool
deriving DecidableEq, Repr

/-- New tokens, to be kept. -/
def LoginResult.fresh (response : TokenResponse) : LoginResult := { response, isFresh := true }

/-- Comes by tokens, from what was saved if that is good enough. -/
def login {m : Type → Type} [Monad m] (means : LoginMeans m) (now : Instant)
    (saved : Option TokenResponse) (r : LoginRequest) :
    m (Except OperatorError LoginResult) := do
  match LoginPlan.make? saved now, saved with
  | none, _ => return .error .timeOutOfRange
  | some .reuse, some response => return .ok { response, isFresh := false }
  | some (.refresh refreshToken), _ =>
    match ← requestTokens means r.gateway { refreshToken } with
    | .ok response => return .ok (.fresh response)
    | .error _ => return (← authenticate means r).map .fresh
  | some _, _ => return (← authenticate means r).map .fresh

end PicBoard.Operator
