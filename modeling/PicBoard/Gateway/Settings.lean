import PicBoard.Digest.Hmac
import PicBoard.Token.Issue

/-!
# What a running gateway keeps fixed
-/

namespace PicBoard

/-- The settings of a gateway that is running. -/
structure Gateway where
  mac : Mac
  windows : TokenWindows
  issuer : String
  /-- What callers may do who show nothing. -/
  anonymous : CapabilitySet
  /-- The name of the cookie that carries a pix token. -/
  pixCookie : String

namespace Gateway

/-- The header that carries an auth token. -/
def authTokenHeader : String := "pixur-auth-token"

/-- The header that carries a pix token. -/
def pixTokenHeader : String := "pixur-pix-token"

/-- The name of the cookie when no other is configured. -/
def standardPixCookie : String := "pix_token"

end Gateway

end PicBoard
