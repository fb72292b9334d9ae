import PicBoard.Media.Decode
import PicBoard.Text.Hex
import PicBoard.Token.Refusal

/-!
# How commands of the operator fail
-/

namespace PicBoard

/-- What a command may ask the operator for. -/
inductive Prompt where
  | ident
  | secret
deriving DecidableEq, Repr

/-- Why a command fails. -/
inductive OperatorError where
  | badPicId (id : String) (cause : GlyphNumber.Error)
  | badGlyphs (text : String) (cause : GlyphNumber.Error)
  | badSecret (cause : Hex.Error)
  | unknownTokenType (name : String)
  | softOutlastsHard (soft hard : Nat)
  | tokenRejected (cause : TokenError)
  | tokenUnreadable (cause : TokenError)
  | unknownCapability (name : String)
  | emptyIdent
  | noIdent
  | secretsDiffer
  | promptFailed (prompt : Prompt)
  | unreachable (url : String)
  | cannotWriteTokens (file : String)
  | cannotOpen (file : String)
  | cannotDecode (file : String) (cause : MediaError)
  | cannotWriteFrame (file : String)
  /-- A time is out of the range of clock readings or of timestamps, and the program stops. -/
  | timeOutOfRange
deriving DecidableEq, Repr

namespace OperatorError

/-- The wording of a failure. -/
def message : OperatorError → String
  | .badPicId id _ => "bad pic id " ++ Text.quoted id
  | .badGlyphs text e => "cannot decode " ++ Text.quoted text ++ ": " ++ e.message
  | .badSecret _ => "secret is not valid hex"
  | .unknownTokenType name =>
    "unknown token type " ++ Text.quoted name ++ ", want auth, refresh or pix"
  | .softOutlastsHard soft hard => s!"soft ttl {soft}s exceeds ttl {hard}s"
  | .tokenRejected _ => "token rejected"
  | .tokenUnreadable e => e.message
  | .unknownCapability name => "unknown capability " ++ Text.quoted name
  | .emptyIdent => "ident must not be empty"
  | .noIdent => "no ident given"
  | .secretsDiffer => "secrets differ"
  | .promptFailed .ident => "stream did not contain valid UTF-8"
  | .promptFailed .secret => "No such device or address (os error 6)"
  | .unreachable url => "POST " ++ url
  | .cannotWriteTokens file => "write " ++ file
  | .cannotOpen file => "open " ++ file
  | .cannotDecode file _ => "decode " ++ file
  | .cannotWriteFrame file => "write frame to " ++ file
  | .timeOutOfRange => "time out of range"

/-- What lies behind a failure, where the wording does not tell it. -/
def cause? : OperatorError → Option String
  | .badPicId _ e => some e.message
  | .badSecret e => some e.message
  | .tokenRejected e => some e.message
  | .cannotDecode _ e => some e.message
  | _ => none

/-- The innermost cause of a failure. -/
def rootCause (e : OperatorError) : String := e.cause?.getD e.message

end OperatorError

/-- What a command prints, and how it fails after that, if it does. -/
structure Outcome where
  output : Bytes
  failure : Option OperatorError := none
deriving DecidableEq, Repr

namespace Outcome

/-- The outcome of a command that prints a text or fails. -/
def ofExcept : Except OperatorError Bytes → Outcome
  | .ok output => { output }
  | .error e => { output := [], failure := some e }

/-- A text as one line. -/
def line (text : Bytes) : Bytes := text ++ [10]

end Outcome

end PicBoard
