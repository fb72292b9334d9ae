import PicBoard.Operator.CommandLine
import PicBoard.Operator.Identifiers
import PicBoard.Operator.Probing
import PicBoard.Operator.Users

/-!
# Running commands

A run reads the command line, does what it says, and ends with a code: 0 when all went well, 1
after a failure, 2 when the command line is wrong, and 101 when the program stops short.
-/

namespace PicBoard

/-- What commands need of their surroundings. -/
structure Surroundings (m : Type → Type) extends
    Operator.LoginMeans m, Operator.ProbeMeans m where
  clock : m Instant
  /-- Sixteen random bytes. -/
  salt : m Bytes

/-- How a run of the program ends. -/
structure Completion where
  code : Nat
  output : Bytes
  failure : Option OperatorError
deriving DecidableEq, Repr

namespace Completion

/-- The end of a run that did something. -/
def ofOutcome (o : Outcome) : Completion where
  code :=
    match o.failure with
    | none => 0
    | some .timeOutOfRange => 101
    | some _ => 1
  output := o.output
  failure := o.failure

/-- The line that tells of a failure; none is told when the program stops short. -/
def errorLine? (c : Completion) : Option String :=
  match c.failure with
  | none | some .timeOutOfRange => none
  | some e => some ("Error: " ++ e.message)

end Completion

namespace Operator

variable {m : Type → Type} [Monad m]

/-- The content of a file, if it can be read. -/
def readFile? (means : ProbeMeans m) (path : String) : m (Option Bytes) := do
  let intake ← means.openFile path
  return intake.bind fun i => i.readAll.toOption

/-- Logs in and prints the tokens; new ones are kept first. -/
def runLogin (s : Surroundings m) (r : LoginRequest) : m Outcome := do
  let saved ← readFile? s.toProbeMeans r.tokenFile
  let now ← s.clock
  match ← login s.toLoginMeans now (saved.bind readTokenFile?) r with
  | .error e => return .ofExcept (.error e)
  | .ok result =>
    let file := writeTokenFile result.response
    if result.isFresh then
      unless ← s.writeFile r.tokenFile file do
        return .ofExcept (.error (.cannotWriteTokens r.tokenFile))
    return .ofExcept (.ok (Outcome.line file))

/-- Asks for the secret of a new user twice and prints the entry. -/
def runUser (s : Surroundings m) (userId : Int64) (ident : String) (capabilities : List String) :
    m Outcome := do
  match readCapabilities capabilities with
  | .error e => return .ofExcept (.error e)
  | .ok _ =>
    let some secret ← s.ask .secret | return .ofExcept (.error (.promptFailed .secret))
    let some again ← s.ask .secret | return .ofExcept (.error (.promptFailed .secret))
    return .ofExcept (showUserEntry userId ident capabilities secret again (← s.salt))

/-- Mints a token and prints it. -/
def showMinted (now : Instant) (secret : String) (isHex : Bool) (typeName : String)
    (request : TokenType → MintRequest) : Except OperatorError Bytes := do
  let key ← keyOfSecret secret isHex
  let type ← readTokenType typeName
  return Outcome.line (← mint (Mac.hmac key) now (request type))

/-- Looks at a token with the key of a secret, if one is given, and prints what it says. -/
def showInspected (now : Instant) (token : String) (secret : Option String) (isHex : Bool) :
    Except OperatorError Bytes := do
  let key ← secret.mapM fun s => keyOfSecret s isHex
  showInspection (key.map Mac.hmac) now token

end Operator

namespace Command

open Operator

variable {m : Type → Type} [Monad m]

/-- Does what a command says.  Nothing comes of it when that never ends. -/
def run (s : Surroundings m) : Command → m (Option Outcome)
  | .encode values => return some { output := encodeNumbers values }
  | .decode texts => return some (decodeTexts texts)
  | .locate id ext root thumbnail => return some (.ofExcept (showLocation id ext root thumbnail))
  | .mint secret isHex typeName request => do
    return some (.ofExcept (showMinted (← s.clock) secret isHex typeName request))
  | .inspect token secret isHex => do
    return some (.ofExcept (showInspected (← s.clock) token secret isHex))
  | .probe file frame => Operator.probe s.toProbeMeans file frame
  | .login r => some <$> runLogin s r
  | .user userId ident capabilities => some <$> runUser s userId ident capabilities

end Command

namespace Program

/-- What the program tells of its version. -/
def version : String := "pixur 0.1.0\n"

/-- What the program tells of its use: a line for each command. -/
def usage : String :=
  "Usage: pixur [-v] <command>\n\nCommands:\n" ++
    String.join (Verb.all.map fun v => "  " ++ " ".intercalate v.words ++ "\n")

/-- Runs the program.  Nothing comes of it when what it is told to do never ends. -/
def run {m : Type → Type} [Monad m] (s : Surroundings m) (args : List String) :
    m (Option Completion) := do
  match CommandLine.read args with
  | .error .misuse => return some { code := 2, output := [], failure := none }
  | .error .help => return some { code := 0, output := Bytes.ofText usage, failure := none }
  | .error .version => return some { code := 0, output := Bytes.ofText version, failure := none }
  | .ok command => return (← command.run s).map .ofOutcome

end Program

end PicBoard
