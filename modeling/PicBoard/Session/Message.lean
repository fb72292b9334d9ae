import PicBoard.Token.View

/-!
# Messages of the token service

The request for tokens, the answers to it and to a logout, and the report of a failure, with
their JSON forms.
-/

namespace PicBoard

/-- A request for tokens: by name and secret, by refresh token, or by a previous auth token. -/
structure TokenRequest where
  ident : String := ""
  secret : String := ""
  refreshToken : String := ""
  previousAuthToken : String := ""
deriving DecidableEq, Repr

namespace TokenRequest

/-- The names of the fields, in order. -/
def names : List String := ["ident", "secret", "refresh_token", "previous_auth_token"]

/-- A request as JSON. -/
def toJson (r : TokenRequest) : Json :=
  .ofFields
    [("ident", .ofText r.ident), ("secret", .ofText r.secret),
      ("refresh_token", .ofText r.refreshToken),
      ("previous_auth_token", .ofText r.previousAuthToken)]

/-- Reads a request from JSON; every field may be missing. -/
def ofJson? (j : Json) : Option TokenRequest := do
  match ← Json.slots? names j with
  | [ident, secret, refreshToken, previousAuthToken] =>
    return {
      ident := ← ident.withDefault Json.toText? ""
      secret := ← secret.withDefault Json.toText? ""
      refreshToken := ← refreshToken.withDefault Json.toText? ""
      previousAuthToken := ← previousAuthToken.withDefault Json.toText? "" }
  | _ => none

end TokenRequest

/-- The tokens that were issued, with what they say. -/
structure TokenResponse where
  refreshToken : String
  authToken : String
  pixToken : Option String
  refreshPayload : PayloadView
  authPayload : PayloadView
  pixPayload : Option PayloadView
deriving DecidableEq, Repr

namespace TokenResponse

/-- The names of the fields, in order. -/
def names : List String :=
  ["refresh_token", "auth_token", "pix_token", "refresh_payload", "auth_payload", "pix_payload"]

/-- A response as JSON. -/
def toJson (r : TokenResponse) : Json :=
  .ofFields <|
    [("refresh_token", .ofText r.refreshToken), ("auth_token", .ofText r.authToken)] ++
    PayloadView.unlessAbsent "pix_token" .ofText r.pixToken ++
    [("refresh_payload", r.refreshPayload.toJson), ("auth_payload", r.authPayload.toJson)] ++
    PayloadView.unlessAbsent "pix_payload" PayloadView.toJson r.pixPayload

/-- Reads a response from JSON. -/
def ofJson? (j : Json) : Option TokenResponse := do
  match ← Json.slots? names j with
  | [refreshToken, authToken, pixToken, refreshPayload, authPayload, pixPayload] =>
    return {
      refreshToken := ← refreshToken.required Json.toText?
      authToken := ← authToken.required Json.toText?
      pixToken := ← pixToken.optional Json.toText?
      refreshPayload := ← refreshPayload.required PayloadView.ofJson?
      authPayload := ← authPayload.required PayloadView.ofJson?
      pixPayload := ← pixPayload.optional PayloadView.ofJson? }
  | _ => none

end TokenResponse

/-- The report of a failure. -/
structure ErrorReport where
  code : String
  message : String
deriving DecidableEq, Repr

namespace ErrorReport

/-- A report as JSON. -/
def toJson (r : ErrorReport) : Json :=
  .ofFields [("code", .ofText r.code), ("message", .ofText r.message)]

/-- Reads a report from JSON. -/
def ofJson? (j : Json) : Option ErrorReport := do
  match ← Json.slots? ["code", "message"] j with
  | [code, message] =>
    return { code := ← code.required Json.toText?, message := ← message.required Json.toText? }
  | _ => none

end ErrorReport

end PicBoard
