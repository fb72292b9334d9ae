import PicBoard.Json.Printer
import PicBoard.Operator.Failure
import PicBoard.Text.Blank
import PicBoard.Token.Issue
import PicBoard.Token.View

/-!
# Minting and inspecting tokens

An operator who has the key can make any token, and can look at a token made by others.
-/

namespace PicBoard.Operator

/-- The key that a secret stands for: its bytes, or those that it spells in hexadecimal. -/
def keyOfSecret (secret : String) (isHex : Bool) : Except OperatorError Bytes :=
  if isHex then
    match Hex.decode (Bytes.ofText (Text.trim secret)) with
    | .ok key => .ok key
    | .error e => .error (.badSecret e)
  else .ok (Bytes.ofText secret)

/-- The kind of token that a name in any case stands for. -/
def readTokenType (name : String) : Except OperatorError TokenType :=
  match Text.asciiLower name with
  | "auth" => .ok .auth
  | "refresh" => .ok .refresh
  | "pix" => .ok .pix
  | other => .error (.unknownTokenType other)

/-! ## Minting -/

/-- What a minted token is to say. -/
structure MintRequest where
  userId : Int64
  type : TokenType
  /-- The life of the token in seconds. -/
  ttl : Nat
  /-- The life before the token should be renewed, in seconds. -/
  softTtl : Option Nat
  tokenId : Int64
  parentId : Int64
  issuer : String
deriving DecidableEq, Repr

namespace MintRequest

/-- The timestamp so many seconds after a clock reading, if there is one. -/
def bound? (now : Instant) (seconds : Int) : Option Timestamp :=
  (now.shift? seconds).bind Timestamp.ofInstant?

/-- What the token says, unless a time in it is out of range. -/
def payload? (r : MintRequest) (now : Instant) : Option Payload := do
  let notBefore ← bound? now (-clockSkew)
  let notAfter ← bound? now r.ttl
  let softNotAfter ←
    match r.softTtl with
    | none => pure none
    | some seconds => (bound? now seconds).map some
  return {
    subject := GlyphNumber.text r.userId
    notBefore := some notBefore
    notAfter := some notAfter
    softNotAfter
    tokenId := r.tokenId
    tokenParentId := r.parentId
    typeCode := r.type.code
    issuer := r.issuer }

/-- Checks that a token need not be renewed only after its end. -/
def check (r : MintRequest) : Except OperatorError Unit :=
  match r.softTtl with
  | some soft => if r.ttl < soft then .error (.softOutlastsHard soft r.ttl) else .ok ()
  | none => .ok ()

end MintRequest

/-- Makes a token. -/
def mint (mac : Mac) (now : Instant) (r : MintRequest) : Except OperatorError Bytes := do
  r.check
  match r.payload? now with
  | none => .error .timeOutOfRange
  | some p => .ok (Token.encode mac p)

/-! ## Inspecting -/

/-- What is told of a token. -/
structure Inspection where
  /-- Whether the signature was checked and found right. -/
  verified : Bool
  state : TokenState
  payload : PayloadView
deriving DecidableEq, Repr

namespace Inspection

/-- An inspection as JSON. -/
def toJson (i : Inspection) : Json :=
  .ofFields
    [("verified", .bool i.verified), ("state", .ofText i.state.name),
      ("payload", i.payload.toJson)]

/-- What is told of a payload. -/
def ofPayload (now : Instant) (verified : Bool) (p : Payload) : Except OperatorError Inspection :=
  match TokenState.read? p now with
  | none => .error .timeOutOfRange
  | some state => .ok { verified, state, payload := p.view }

end Inspection

/-- Reads a token without looking at its signature. -/
def readUnverified (token : Bytes) : Except OperatorError Payload :=
  match Token.decodeUnverified token with
  | .ok p => .ok p
  | .error e => .error (.tokenUnreadable e)

/-- Reads a token whose signature must be right.  One that does not hold now is read still. -/
def readSigned (mac : Mac) (now : Instant) (token : Bytes) : Except OperatorError Payload :=
  match Token.decode mac now token with
  | .ok p => .ok p
  | .error .expired | .error .notYetValid => readUnverified token
  | .error .clockUnreadable => .error .timeOutOfRange
  | .error e => .error (.tokenRejected e)

/-- Looks at a token, and at its signature too when a signing function is given. -/
def inspect (mac : Option Mac) (now : Instant) (token : String) :
    Except OperatorError Inspection := do
  let token := Bytes.ofText (Text.trim token)
  match mac with
  | some mac => Inspection.ofPayload now true (← readSigned mac now token)
  | none => Inspection.ofPayload now false (← readUnverified token)

/-- Prints what is told of a token. -/
def showInspection (mac : Option Mac) (now : Instant) (token : String) :
    Except OperatorError Bytes :=
  (inspect mac now token).map fun i => Outcome.line i.toJson.spread

end PicBoard.Operator
