import PicBoard.Category
import PicBoard.GlyphNumber
import PicBoard.Text.Base64Url
import PicBoard.Token.Payload

/-!
# Why a token is refused
-/

namespace PicBoard

/-- The part of a token in which something is wrong. -/
inductive TokenPart where
  | header
  | payload
  | signature
deriving DecidableEq, Repr

/-- The name of a part in messages. -/
def TokenPart.name : TokenPart → String
  | .header => "header"
  | .payload => "payload"
  | .signature => "signature"

/-- What makes a token, or a set of presented tokens, malformed. -/
inductive Malformation where
  | segments
  | base64 (part : TokenPart) (cause : Base64Url.Error)
  | record (part : TokenPart) (cause : Wire.Error)
  | tooManyTokens
  | noFamily
deriving DecidableEq, Repr

/-- The wording of a malformation. -/
def Malformation.message : Malformation → String
  | .segments => "expected three segments"
  | .base64 part e => part.name ++ ": " ++ e.message
  | .record part e => part.name ++ ": " ++ e.message
  | .tooManyTokens => "too many tokens"
  | .noFamily => "auth token has no parent family"

/-- Why a token is refused. -/
inductive TokenError where
  | malformed (cause : Malformation)
  | unsupportedAlgorithm (number : Int32)
  | unsupportedVersion (version : Int64)
  | badSignature
  | notYetValid
  | expired
  | wrongType (expected actual : TokenType)
  | missingToken
  | badSubject (cause : GlyphNumber.Error)
  /-- The clock reads a time of which there is no timestamp, and the program stops. -/
  | clockUnreadable
deriving DecidableEq, Repr

namespace TokenError

/-- The wording of a refusal. -/
def message : TokenError → String
  | .malformed e => "malformed token: " ++ e.message
  | .unsupportedAlgorithm n => "unsupported token: algorithm " ++ Decimal.text n.toInt
  | .unsupportedVersion v => "unsupported token: version " ++ Decimal.text v.toInt
  | .badSignature => "token signature mismatch"
  | .notYetValid => "token not yet valid"
  | .expired => "token expired"
  | .wrongType expected actual =>
    s!"wrong token type: expected {expected.name}, got {actual.name}"
  | .missingToken => "missing token"
  | .badSubject e => "bad token subject: " ++ e.message
  | .clockUnreadable => "clock out of range"

/-- The class of a refusal. -/
def category : TokenError → Category
  | .malformed _ | .wrongType _ _ | .missingToken | .badSubject _ => .malformedInput
  | .unsupportedAlgorithm _ | .unsupportedVersion _ => .unsupported
  | .badSignature => .integrityFailure
  | .notYetValid | .expired => .expired
  | .clockUnreadable => .resourceFailure

end TokenError

end PicBoard
