import PicBoard.Gateway.Settings
import PicBoard.Json.Reader
import PicBoard.Session.Store
import PicBoard.Text.Blank
import PicBoard.Text.Hex

/-!
# Configuring a gateway

A gateway is configured by settings that are texts under names.  Each may be missing.
-/

namespace PicBoard

/-- The settings that are given, by name. -/
abbrev Environment := String → Option String

/-- Why a configuration is refused. -/
inductive ConfigError where
  | badSecret (cause : Hex.Error)
  | emptySecret
  | badWindow (name : String) (cause : Decimal.Error)
  | windowTooLong (name : String)
  | authOutlastsRefresh
  | badAnonymousRead
deriving DecidableEq, Repr

/-- What a gateway is configured to be. -/
structure GatewayConfig where
  listenAddress : String
  /-- The key that signs tokens; without one, a random key is made. -/
  secret : Option Bytes
  pixRoot : String
  usersFile : Option String
  anonymousPicRead : Bool
  pixCookie : String
  windows : TokenWindows
  issuer : String
deriving DecidableEq, Repr

namespace GatewayConfig

/-! ## The names of the settings -/

def secretName : String := "PIXUR_TOKEN_SECRET"

def authWindowName : String := "PIXUR_AUTH_WINDOW_SECS"

def refreshWindowName : String := "PIXUR_REFRESH_WINDOW_SECS"

def anonymousPicReadName : String := "PIXUR_ANONYMOUS_PIC_READ"

def listenAddressName : String := "PIXUR_LISTEN_ADDR"

def pixRootName : String := "PIXUR_PIX_ROOT"

def usersFileName : String := "PIXUR_USERS_FILE"

def pixCookieName : String := "PIXUR_PIX_COOKIE"

def issuerName : String := "PIXUR_ISSUER"

end GatewayConfig

/-- The wording of a refusal. -/
def ConfigError.message : ConfigError → String
  | .badSecret e => e.message
  | .emptySecret => GatewayConfig.secretName ++ " must not be empty"
  | .badWindow name e => s!"{name} must be a number of seconds: {e.message}"
  | .windowTooLong name => s!"{name} must be at most {TokenWindows.longest} seconds"
  | .authOutlastsRefresh => "auth window must not exceed the refresh window"
  | .badAnonymousRead =>
    GatewayConfig.anonymousPicReadName ++
      " must be true or false: provided string was not `true` or `false`"

namespace GatewayConfig

/-! ## Reading -/

/-- The key that a text in hexadecimal spells. -/
def readSecret (text : String) : Except ConfigError Bytes :=
  match Hex.decode (Bytes.ofText (Text.trim text)) with
  | .error e => .error (.badSecret e)
  | .ok [] => .error .emptySecret
  | .ok key => .ok key

/-- The seconds that a text names, with blanks around them; at most the longest window. -/
def readWindow (name text : String) : Except ConfigError Nat :=
  match Decimal.readNat (Decimal.unsignedMax 64) (Bytes.ofText (Text.trim text)) with
  | .error e => .error (.badWindow name e)
  | .ok n => if TokenWindows.longest < n then .error (.windowTooLong name) else .ok n

/-- The answer that a text gives to a question. -/
def readFlag : String → Except ConfigError Bool
  | "true" => .ok true
  | "false" => .ok false
  | _ => .error .badAnonymousRead

/-- Reads a setting that has a value when it is missing. -/
def readOr {α : Type} (env : Environment) (name : String) (default : α)
    (item : String → Except ConfigError α) : Except ConfigError α :=
  match env name with
  | some text => item text
  | none => .ok default

/-- Reads the windows, of which that of auth tokens may not be the longer. -/
def readWindows (env : Environment) : Except ConfigError TokenWindows := do
  let auth ← readOr env authWindowName TokenWindows.standard.auth (readWindow authWindowName)
  let refresh ←
    readOr env refreshWindowName TokenWindows.standard.refresh (readWindow refreshWindowName)
  if refresh < auth then .error .authOutlastsRefresh else .ok { auth, refresh }

/-- Reads a configuration: the secret first, then the windows, then the rest. -/
def read (env : Environment) : Except ConfigError GatewayConfig := do
  let secret ← readOr env secretName none fun text => (readSecret text).map some
  let windows ← readWindows env
  let anonymousPicRead ← readOr env anonymousPicReadName false readFlag
  return {
    listenAddress := (env listenAddressName).getD "0.0.0.0:8080"
    secret
    pixRoot := (env pixRootName).getD "pix"
    usersFile := env usersFileName
    anonymousPicRead
    pixCookie := (env pixCookieName).getD Gateway.standardPixCookie
    windows
    issuer := (env issuerName).getD "" }

/-! ## What is configured -/

/-- What callers may do who show nothing. -/
def anonymous (c : GatewayConfig) : CapabilitySet :=
  if c.anonymousPicRead then .ofList [.picRead] else .empty

/-- The gateway of a configuration, where `randomKey` is used when no secret is configured. -/
def gateway (c : GatewayConfig) (randomKey : Bytes) : Gateway where
  mac := Mac.hmac (c.secret.getD randomKey)
  windows := c.windows
  issuer := c.issuer
  anonymous := c.anonymous
  pixCookie := c.pixCookie

end GatewayConfig

/-- Reads a users file: UTF-8 text that is a JSON array of users. -/
def UserStore.ofFile? (content : Bytes) (limit : Nat := standardLimit) : Option UserStore := do
  let _ ← Bytes.toText? content
  let users ← (Json.parse content).bind User.listOfJson?
  return ofUsers users limit

end PicBoard
