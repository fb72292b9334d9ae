import PicBoard.Token.Codec

/-!
# Presenting a token

Each use of a token takes one kind of token and reads from it what that use needs.
-/

namespace PicBoard

/-- What an auth token shows. -/
structure AuthClaims where
  userId : Int64
  /-- The refresh family that the token came with, if it came with one. -/
  family : Option Int64
deriving DecidableEq, Repr

/-- What a refresh token shows. -/
structure RefreshClaims where
  userId : Int64
  family : Int64
deriving DecidableEq, Repr

namespace Token

/-- Reads a token that must be of one kind. -/
def decodeTyped (mac : Mac) (now : Instant) (token : Bytes) (expected : TokenType) :
    Except TokenError Payload := do
  let p ← decode mac now token
  if p.type = expected then .ok p else .error (.wrongType expected p.type)

/-- Reads the user whom a payload is for. -/
def subjectId (p : Payload) : Except TokenError Int64 :=
  match GlyphNumber.ofText p.subject with
  | .ok id => .ok id
  | .error e => .error (.badSubject e)

/-- Accepts an auth token. -/
def validateAuth (mac : Mac) (now : Instant) (token : Bytes) : Except TokenError AuthClaims := do
  let p ← decodeTyped mac now token .auth
  let user ← subjectId p
  return { userId := user, family := if p.tokenParentId = 0 then none else some p.tokenParentId }

/-- Accepts a refresh token. -/
def validateRefresh (mac : Mac) (now : Instant) (token : Bytes) :
    Except TokenError RefreshClaims := do
  let p ← decodeTyped mac now token .refresh
  let user ← subjectId p
  return { userId := user, family := p.tokenId }

/-- Accepts a pix token, or, where anonymous readers are allowed, no token.  An empty token
counts as none. -/
def validatePix (mac : Mac) (now : Instant) (token : Option Bytes) (anonymous : Bool) :
    Except TokenError (Option Payload) :=
  match token.filter (· ≠ []) with
  | none => if anonymous then .ok none else .error .missingToken
  | some t => (decodeTyped mac now t .pix).map some

end Token

end PicBoard
