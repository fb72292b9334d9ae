import PicBoard.Digest.Hmac
import PicBoard.Token.Refusal

/-!
# Signed tokens

A token is a header, a payload and a signature, in base64url and with dots between them.  The
signature is that of the header, the dot and the payload as they stand in the token.  Nothing in
the payload is looked at before the signature is found right.
-/

namespace PicBoard

/-! ## When a payload holds -/

namespace Payload

/-- Checks that a moment lies between the bounds of a payload, both included.  A bound that is
absent or no valid timestamp reads as long past. -/
def checkValidity (p : Payload) (now : Timestamp) : Except TokenError Unit :=
  match p.notBefore, p.notAfter with
  | some notBefore, some notAfter =>
    if !notBefore.isValid || !notAfter.isValid then .error .expired
    else if now.before notBefore then .error .notYetValid
    else if notAfter.before now then .error .expired
    else .ok ()
  | _, _ => .error .expired

/-- Checks a payload against a clock. -/
def checkClock (p : Payload) (now : Instant) : Except TokenError Unit :=
  match Timestamp.ofInstant? now with
  | none => .error .clockUnreadable
  | some t => p.checkValidity t

end Payload

/-! ## The text of a token -/

namespace Token

/-- The byte between the parts of a token. -/
def dot : UInt8 := 46

/-- The parts of a token, each in base64url. -/
structure Segments where
  header : Bytes
  payload : Bytes
  signature : Bytes
deriving DecidableEq, Repr

/-- The text that is signed. -/
def Segments.signed (s : Segments) : Bytes := s.header ++ dot :: s.payload

/-- Cuts a token into its parts.  The header may be empty, since a record of zeros is. -/
def segments (token : Bytes) : Except TokenError Segments :=
  match Bytes.pieces dot token with
  | [header, payload, signature] =>
    if payload = [] ∨ signature = [] then .error (.malformed .segments)
    else .ok { header, payload, signature }
  | _ => .error (.malformed .segments)

/-- Reads a part that is bytes in base64url. -/
def partBytes (part : TokenPart) (segment : Bytes) : Except TokenError Bytes :=
  match Base64Url.decode segment with
  | .ok b => .ok b
  | .error e => .error (.malformed (.base64 part e))

/-- Checks that a header names the one algorithm and the one version. -/
def checkHeader (segment : Bytes) : Except TokenError Unit := do
  let b ← partBytes .header segment
  match TokenHeader.decode b with
  | .error e => .error (.malformed (.record .header e))
  | .ok h =>
    if h.algorithm ≠ TokenHeader.hmacSha512_256 then .error (.unsupportedAlgorithm h.algorithm)
    else if h.version ≠ TokenHeader.currentVersion then .error (.unsupportedVersion h.version)
    else .ok ()

/-- Reads a payload. -/
def readPayload (segment : Bytes) : Except TokenError Payload := do
  let b ← partBytes .payload segment
  match Payload.decode b with
  | .error e => .error (.malformed (.record .payload e))
  | .ok p => .ok p

/-- The header and the payload of a new token. -/
def signedPart (p : Payload) : Bytes :=
  Base64Url.encode TokenHeader.current.encode ++ dot :: Base64Url.encode p.encode

/-- The token of a payload. -/
def encode (mac : Mac) (p : Payload) : Bytes :=
  signedPart p ++ dot :: Base64Url.encode (mac.sign (signedPart p))

/-- The token of a payload as characters. -/
def encodeText (mac : Mac) (p : Payload) : String := (encode mac p).toLatin1

/-- Reads a token's payload when its signature is right, at whatever time. -/
def authenticate (mac : Mac) (token : Bytes) : Except TokenError Payload := do
  let s ← segments token
  checkHeader s.header
  let signature ← partBytes .signature s.signature
  if signature ≠ mac.sign s.signed then .error .badSignature
  else readPayload s.payload

/-- Reads a token's payload when its signature is right and it holds now. -/
def decode (mac : Mac) (now : Instant) (token : Bytes) : Except TokenError Payload := do
  let p ← authenticate mac token
  p.checkClock now
  return p

/-- Reads a token's payload without looking at the signature or the clock, for a client that
cannot check them; nothing may be allowed on the strength of it. -/
def decodeUnverified (token : Bytes) : Except TokenError Payload := do
  let s ← segments token
  checkHeader s.header
  readPayload s.payload

end Token

end PicBoard
