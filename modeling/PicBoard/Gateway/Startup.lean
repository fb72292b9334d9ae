import PicBoard.FileTree
import PicBoard.Gateway.Config

/-!
# Starting a gateway

A gateway reads its configuration, then its users file, and then listens.  Whatever fails first
keeps it from starting.
-/

namespace PicBoard

/-- Where a gateway listens. -/
structure ListenAddress where
  host : String
  portNumber : Nat
deriving DecidableEq, Repr

namespace ListenAddress

/-- Why a text is no address. -/
inductive Error where
  | portMissing
  | portInvalid
deriving DecidableEq, Repr

/-- The wording of a refusal. -/
def Error.message : Error → String
  | .portMissing => "invalid socket address"
  | .portInvalid => "invalid port value"

/-- Reads an address: what stands before the last colon is the host, and what follows is the
number under which it listens there. -/
def parse (text : String) : Except Error ListenAddress :=
  match Text.splitOnce ':' text.toList.reverse with
  | none => .error .portMissing
  | some (digits, host) =>
    let digits := Bytes.ofText (String.ofList digits.reverse)
    match Decimal.readNat (Decimal.unsignedMax 16) digits with
    | .error _ => .error .portInvalid
    | .ok n => .ok { host := String.ofList host.reverse, portNumber := n }

end ListenAddress

/-- Why a gateway does not start. -/
inductive StartupError where
  | config (cause : ConfigError)
  | usersFile (cause : FileFault)
  | usersFileNotText
  | badUsersFile
  | address (cause : ListenAddress.Error)
  | addressInUse
deriving DecidableEq, Repr

/-- The wording of a failure. -/
def StartupError.message : StartupError → String
  | .config e => e.message
  | .usersFile e => e.message
  | .usersFileNotText => "stream did not contain valid UTF-8"
  | .badUsersFile => "invalid users file"
  | .address e => e.message
  | .addressInUse => "Address already in use (os error 98)"

/-- A gateway that is about to answer requests. -/
structure ReadyGateway where
  config : GatewayConfig
  users : UserStore
  address : ListenAddress

namespace GatewayConfig

/-- Loads the users of a configuration; without a users file there are none. -/
def loadUsers (c : GatewayConfig) (readFile : String → FileRead) :
    Except StartupError UserStore :=
  match c.usersFile with
  | none => .ok (UserStore.ofUsers [])
  | some path =>
    match readFile path with
    | .error e => .error (.usersFile e)
    | .ok content =>
      if (Bytes.toText? content).isNone then .error .usersFileNotText
      else
        match UserStore.ofFile? content with
        | none => .error .badUsersFile
        | some users => .ok users

/-- Makes a gateway ready. -/
def start (env : Environment) (readFile : String → FileRead) (inUse : String → Bool) :
    Except StartupError ReadyGateway :=
  match read env with
  | .error e => .error (.config e)
  | .ok config =>
    match config.loadUsers readFile with
    | .error e => .error e
    | .ok users =>
      match ListenAddress.parse config.listenAddress with
      | .error e => .error (.address e)
      | .ok address =>
        if inUse config.listenAddress then .error .addressInUse
        else .ok { config, users, address }

end GatewayConfig

end PicBoard
