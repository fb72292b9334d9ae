import PicBoard.Time
import PicBoard.Wire.Field

/-!
# What a token says

The header of a token names how it is signed; the payload names whom it is for, when it holds and
what it allows.  Both are records, whose fields of value zero are not written.
-/

namespace PicBoard

/-! ## Timestamps as records -/

namespace Timestamp

/-- A timestamp as a record. -/
def encode (t : Timestamp) : Bytes :=
  Wire.int64Field 1 t.seconds ++ Wire.int32Field 2 t.nanos

/-- Takes in one field of a timestamp. -/
def merge : Wire.Merge Timestamp := fun budget tag type t s =>
  match tag with
  | 1 => Wire.inField "Timestamp.seconds" <|
      (Wire.readInt64 type s).map fun (v, rest) => ({ t with seconds := v }, rest)
  | 2 => Wire.inField "Timestamp.nanos" <|
      (Wire.readInt32 type s).map fun (v, rest) => ({ t with nanos := v }, rest)
  | _ => Wire.passOver budget tag type t s

/-- The timestamp of a record without fields. -/
def zero : Timestamp := { seconds := 0, nanos := 0 }

end Timestamp

/-! ## Headers -/

/-- The record at the front of a token. -/
structure TokenHeader where
  algorithm : Int32 := 0
  version : Int64 := 0
deriving DecidableEq, Repr

namespace TokenHeader

/-- The number of the one signature algorithm, HMAC with SHA-512/256. -/
def hmacSha512_256 : Int32 := 1

/-- The one version there is. -/
def currentVersion : Int64 := 0

/-- Whether the algorithm's number has a name: none, or the one algorithm. -/
def isKnown (h : TokenHeader) : Bool := h.algorithm == 0 || h.algorithm == hmacSha512_256

/-- A header as a record. -/
def encode (h : TokenHeader) : Bytes :=
  Wire.int32Field 1 h.algorithm ++ Wire.int64Field 2 h.version

/-- Takes in one field of a header. -/
def merge : Wire.Merge TokenHeader := fun budget tag type h s =>
  match tag with
  | 1 => Wire.inField "PwtHeader.algorithm" <|
      (Wire.readInt32 type s).map fun (v, rest) => ({ h with algorithm := v }, rest)
  | 2 => Wire.inField "PwtHeader.version" <|
      (Wire.readInt64 type s).map fun (v, rest) => ({ h with version := v }, rest)
  | _ => Wire.passOver budget tag type h s

/-- Reads a header. -/
def decode (s : Bytes) : Except Wire.Error TokenHeader :=
  Wire.readRecord merge {} s

/-- The header of every token that is signed here. -/
def current : TokenHeader := { algorithm := hmacSha512_256, version := currentVersion }

end TokenHeader

/-! ## Kinds of token -/

/-- What a token may be presented for. -/
inductive TokenType where
  | unknown
  | auth
  | refresh
  | pix
deriving DecidableEq, Repr

namespace TokenType

/-- The number of a kind in a payload. -/
def code : TokenType → Int32
  | .unknown => 0
  | .auth => 1
  | .refresh => 2
  | .pix => 3

/-- The kind of a number; other numbers are of unknown kind. -/
def ofCode (n : Int32) : TokenType :=
  if n = 1 then .auth else if n = 2 then .refresh else if n = 3 then .pix else .unknown

/-- The name of a kind. -/
def name : TokenType → String
  | .unknown => "unknown"
  | .auth => "auth"
  | .refresh => "refresh"
  | .pix => "pix"

@[simp] theorem ofCode_code (t : TokenType) : ofCode t.code = t := by cases t <;> rfl

end TokenType

/-! ## Payloads -/

/-- The record that a token signs. -/
structure Payload where
  /-- The text of the user's id. -/
  subject : String := ""
  notBefore : Option Timestamp := none
  notAfter : Option Timestamp := none
  /-- When the token should be renewed, though it still holds. -/
  softNotAfter : Option Timestamp := none
  /-- The refresh family of a refresh token. -/
  tokenId : Int64 := 0
  /-- The refresh family that a token was issued with. -/
  tokenParentId : Int64 := 0
  /-- The number of the token's kind. -/
  typeCode : Int32 := 0
  issuer : String := ""
deriving DecidableEq, Repr

namespace Payload

/-- The kind of a payload's token. -/
def type (p : Payload) : TokenType := .ofCode p.typeCode

/-- A payload as a record. -/
def encode (p : Payload) : Bytes :=
  Wire.textField 1 p.subject ++
    Wire.recordField Timestamp.encode 2 p.notBefore ++
    Wire.recordField Timestamp.encode 3 p.notAfter ++
    Wire.recordField Timestamp.encode 4 p.softNotAfter ++
    Wire.int64Field 5 p.tokenId ++
    Wire.int64Field 6 p.tokenParentId ++
    Wire.int32Field 7 p.typeCode ++
    Wire.textField 8 p.issuer

/-- Takes in one field of a payload. -/
def merge : Wire.Merge Payload := fun budget tag type p s =>
  let timestamp (field : String) (t : Option Timestamp) (put : Timestamp → Payload) :=
    Wire.inField field <|
      (Wire.mergeRecord Timestamp.merge budget type (t.getD .zero) s).map
        fun (v, rest) => (put v, rest)
  match tag with
  | 1 => Wire.inField "PwtPayload.subject" <|
      (Wire.readText type s).map fun (v, rest) => ({ p with subject := v }, rest)
  | 2 => timestamp "PwtPayload.not_before" p.notBefore fun v => { p with notBefore := some v }
  | 3 => timestamp "PwtPayload.not_after" p.notAfter fun v => { p with notAfter := some v }
  | 4 => timestamp "PwtPayload.soft_not_after" p.softNotAfter
      fun v => { p with softNotAfter := some v }
  | 5 => Wire.inField "PwtPayload.token_id" <|
      (Wire.readInt64 type s).map fun (v, rest) => ({ p with tokenId := v }, rest)
  | 6 => Wire.inField "PwtPayload.token_parent_id" <|
      (Wire.readInt64 type s).map fun (v, rest) => ({ p with tokenParentId := v }, rest)
  | 7 => Wire.inField "PwtPayload.r#type" <|
      (Wire.readInt32 type s).map fun (v, rest) => ({ p with typeCode := v }, rest)
  | 8 => Wire.inField "PwtPayload.issuer" <|
      (Wire.readText type s).map fun (v, rest) => ({ p with issuer := v }, rest)
  | _ => Wire.passOver budget tag type p s

/-- Reads a payload. -/
def decode (s : Bytes) : Except Wire.Error Payload :=
  Wire.readRecord merge {} s

end Payload

end PicBoard
