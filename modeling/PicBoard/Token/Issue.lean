import PicBoard.Capability
import PicBoard.Token.Lifetime

/-!
# Issuing tokens

A user who has shown who they are gets a refresh token, an auth token and, if they may read pics,
a pix token.  All name the same refresh family: the refresh token as its own, the others as the
one they came with.
-/

namespace PicBoard

/-- How long tokens last, in seconds. -/
structure TokenWindows where
  /-- The life of an auth token, and of a pix token before it should be renewed. -/
  auth : Nat
  /-- The life of a refresh token and of a pix token. -/
  refresh : Nat
deriving DecidableEq, Repr

namespace TokenWindows

/-- Thirty days and a hundred and eighty. -/
def standard : TokenWindows := { auth := 30 * 86400, refresh := 180 * 86400 }

/-- The longest window that can be configured, a thousand years of 365 days. -/
def longest : Nat := 1000 * 365 * 86400

end TokenWindows

/-- How many seconds before its issue a token begins to hold, for clocks that run behind. -/
def clockSkew : Int := 60

/-- The 64-bit number nearest to an integer. -/
def saturate (n : Int) : Int64 :=
  if n < Int64.minValue.toInt then Int64.minValue
  else if Int64.maxValue.toInt < n then Int64.maxValue
  else Int64.ofInt n

/-- A token and what it says. -/
structure SignedToken where
  token : Bytes
  payload : Payload
deriving DecidableEq, Repr

/-- The tokens of one issue. -/
structure IssuedTokens where
  refresh : SignedToken
  auth : SignedToken
  pix : Option SignedToken
deriving DecidableEq, Repr

namespace IssuedTokens

/-- The timestamp so many seconds after second `second`, as far as 64 bits reach. -/
def bound (second : Int64) (offset : Int) : Option Timestamp :=
  some (Timestamp.ofSeconds (saturate (second.toInt + offset)))

/-- A window in seconds as a signed 64-bit number. -/
def window (seconds : Nat) : Int := min seconds Int64.maxValue.toInt

/-- What every token issued in a second says. -/
def basePayload (second : Int64) (userId : Int64) (issuer : String) : Payload :=
  { subject := GlyphNumber.text userId, notBefore := bound second (-clockSkew), issuer }

/-- The payload of a refresh token. -/
def refreshPayload (w : TokenWindows) (second userId family : Int64) (issuer : String) :
    Payload :=
  { basePayload second userId issuer with
    notAfter := bound second (window w.refresh)
    tokenId := family
    typeCode := TokenType.refresh.code }

/-- The payload of an auth token. -/
def authPayload (w : TokenWindows) (second userId family : Int64) (issuer : String) : Payload :=
  { basePayload second userId issuer with
    notAfter := bound second (window w.auth)
    tokenParentId := family
    typeCode := TokenType.auth.code }

/-- The payload of a pix token. -/
def pixPayload (w : TokenWindows) (second userId family : Int64) (issuer : String) : Payload :=
  { basePayload second userId issuer with
    notAfter := bound second (window w.refresh)
    softNotAfter := bound second (window w.auth)
    tokenParentId := family
    typeCode := TokenType.pix.code }

/-- Signs a payload. -/
def sign (mac : Mac) (p : Payload) : SignedToken := { token := Token.encode mac p, payload := p }

/-- The tokens issued in a second. -/
def inSecond (mac : Mac) (w : TokenWindows) (second userId : Int64) (capabilities : CapabilitySet)
    (family : Int64) (issuer : String) : IssuedTokens where
  refresh := sign mac (refreshPayload w second userId family issuer)
  auth := sign mac (authPayload w second userId family issuer)
  pix :=
    if capabilities.contains .picRead then
      some (sign mac (pixPayload w second userId family issuer))
    else none

/-- The tokens issued when the clock reads `now`, unless there is no timestamp of that time. -/
def issue? (mac : Mac) (w : TokenWindows) (now : Instant) (userId : Int64)
    (capabilities : CapabilitySet) (family : Int64) (issuer : String) : Option IssuedTokens :=
  (Timestamp.ofInstant? now).map fun t =>
    inSecond mac w t.seconds userId capabilities family issuer

end IssuedTokens

end PicBoard
