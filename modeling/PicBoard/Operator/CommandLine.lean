import PicBoard.Operator.Arguments
import PicBoard.Operator.Login
import PicBoard.Operator.Tokens

/-!
# The command line

The first words name a command, some of which stand in groups; the rest are its arguments.  The
switch for more log lines may stand at the front, after the name of a group, or among the
arguments, once at each place.
-/

namespace PicBoard

/-- What the program can be told to do. -/
inductive Command where
  | encode (values : List Int64)
  | decode (texts : List String)
  | locate (id ext root : String) (thumbnail : Bool)
  | mint (secret : String) (isHex : Bool) (typeName : String)
      (request : TokenType → Operator.MintRequest)
  | inspect (token : String) (secret : Option String) (isHex : Bool)
  | probe (file : String) (frame : Option String)
  | login (request : Operator.LoginRequest)
  | user (userId : Int64) (ident : String) (capabilities : List String)

/-- The commands by name. -/
inductive Verb where
  | encode
  | decode
  | locate
  | mint
  | inspect
  | probe
  | login
  | user
deriving DecidableEq, Repr

namespace Verb

/-- All commands. -/
def all : List Verb :=
  [.encode, .decode, .locate, .mint, .inspect, .probe, .login, .user]

/-- The words that name a command. -/
def words : Verb → List String
  | .encode => ["varint", "encode"]
  | .decode => ["varint", "decode"]
  | .locate => ["path"]
  | .mint => ["token", "mint"]
  | .inspect => ["token", "inspect"]
  | .probe => ["probe"]
  | .login => ["login"]
  | .user => ["user"]

/-- The switches that may stand anywhere. -/
def commonOptions : List CommandOption :=
  [{ name := "verbose", letter := some 'v' }, { name := Arguments.helpName, letter := some 'h' }]

/-- What a command takes, apart from the common switches. -/
def ownGrammar : Verb → CommandGrammar
  | .encode => { operands := .many .int64 }
  | .decode => { operands := .many .text }
  | .locate =>
    { options :=
        [{ name := "ext", letter := some 'e', kind := some .text },
          { name := "root", letter := some 'r', kind := some .path },
          { name := "thumbnail", letter := some 't' }]
      operands := .one .text }
  | .mint =>
    { options :=
        [{ name := "secret", letter := some 's', kind := some .text, isRequired := true },
          { name := "hex" },
          { name := "user", letter := some 'u', kind := some .int64, isRequired := true },
          { name := "type", letter := some 't', kind := some .text },
          { name := "ttl", kind := some .unsigned64 },
          { name := "soft-ttl", kind := some .unsigned64 },
          { name := "token-id", kind := some .int64 },
          { name := "parent-id", kind := some .int64 },
          { name := "issuer", kind := some .text }] }
  | .inspect =>
    { options :=
        [{ name := "secret", letter := some 's', kind := some .text }, { name := "hex" }]
      operands := .one .text }
  | .probe =>
    { options := [{ name := "frame", letter := some 'f', kind := some .path }]
      operands := .one .path }
  | .login =>
    { options :=
        [{ name := "gateway", letter := some 'g', kind := some .text },
          { name := "ident", letter := some 'i', kind := some .text },
          { name := "secret", letter := some 's', kind := some .text },
          { name := "token-file", letter := some 't', kind := some .path }] }
  | .user =>
    { options :=
        [{ name := "user", letter := some 'u', kind := some .int64, isRequired := true },
          { name := "ident", letter := some 'i', kind := some .text, isRequired := true },
          { name := "capabilities", letter := some 'c', kind := some .text, repeats := true }] }

/-- What a command takes. -/
def grammar (v : Verb) : CommandGrammar :=
  { v.ownGrammar with options := commonOptions ++ v.ownGrammar.options }

end Verb

namespace CommandLine

/-- Reads a number that was found to be one. -/
def int64 (text : String) : Int64 :=
  ((Decimal.readInt64 (Bytes.ofText text)).toOption).getD 0

/-- Reads a number without sign that was found to be one. -/
def unsigned64 (text : String) : Nat :=
  ((Decimal.readNat (Decimal.unsignedMax 64) (Bytes.ofText text)).toOption).getD 0

/-- The pieces of a text between commas. -/
def commaPieces (text : String) : List String :=
  (Text.splitAll ',' text.toList).map String.ofList

/-- What a command with its arguments says to do. -/
def command (v : Verb) (a : Arguments) : Command :=
  let text (name default : String) : String := (a.get? name).getD default
  let number (name : String) : Int64 := int64 (text name "0")
  match v with
  | .encode => .encode (a.operands.map int64)
  | .decode => .decode a.operands
  | .locate =>
    .locate (a.operands.headD "") (text "ext" "jpg") (text "root" "pix") (a.has "thumbnail")
  | .mint =>
    .mint (text "secret" "") (a.has "hex") (text "type" "auth") fun type =>
      { userId := number "user"
        type
        ttl := unsigned64 (text "ttl" "3600")
        softTtl := (a.get? "soft-ttl").map unsigned64
        tokenId := number "token-id"
        parentId := number "parent-id"
        issuer := text "issuer" "" }
  | .inspect => .inspect (a.operands.headD "") (a.get? "secret") (a.has "hex")
  | .probe => .probe (a.operands.headD "") (a.get? "frame")
  | .login =>
    .login
      { gateway := text "gateway" "http://localhost:8080"
        ident := a.get? "ident"
        secret := a.get? "secret"
        tokenFile := text "token-file" ".pixur-tokens.json" }
  | .user =>
    .user (number "user") (text "ident" "") ((a.all "capabilities").flatMap commaPieces)

/-- Whether these words lead to a command or to a group of commands. -/
def leadsToVerb (words : List String) : Bool := Verb.all.any fun v => words.isPrefixOf v.words

/-- What follows the word that asks for help: words that lead to what help is wanted on. -/
def helpOn (group topic : List String) : UsageStop :=
  if leadsToVerb (group ++ topic) || topic == [Arguments.helpName] then .help else .misuse

/-- The switches before the name of a command; only the first may ask for the version. -/
def groupOptions (group : List String) : List CommandOption :=
  if group = [] then
    Verb.commonOptions ++ [{ name := Arguments.versionName, letter := some 'V' }]
  else Verb.commonOptions

/-- Reads the words that name a command, after those of a group and the switches `a`, and leaves
the arguments. -/
def readVerb (group : List String) (a : Arguments) :
    List String → Except UsageStop (Verb × List String)
  | [] => .error .misuse
  | arg :: rest =>
    match Verb.all.find? fun v => v.words = group ++ [arg] with
    | some v => .ok (v, rest)
    | none =>
      if leadsToVerb (group ++ [arg]) then readVerb (group ++ [arg]) {} rest
      else if arg = Arguments.helpName then .error (helpOn group rest)
      else
        match arg.toList with
        | ['-', '-'] => .error .misuse
        | '-' :: '-' :: body => do
          let (a, _) ← Arguments.readName (groupOptions group) a body
          readVerb group a rest
        | '-' :: c :: letters => do
          let (a, _) ← Arguments.readLetters (groupOptions group) a (c :: letters)
          readVerb group a rest
        | _ => .error .misuse

/-- Reads what the program is told to do. -/
def read (args : List String) : Except UsageStop Command := do
  let (v, rest) ← readVerb [] {} args
  return command v (← Arguments.read v.grammar rest)

end CommandLine

end PicBoard
