import PicBoard.Json.Fields
import PicBoard.Token.Payload

/-!
# A payload for readers

What a client is told of a token's payload: times in whole seconds, the kind by name, and nothing
of what is zero or empty.
-/

namespace PicBoard

/-- A payload as a client sees it. -/
structure PayloadView where
  subject : String
  type : String
  notBefore : Option Int64
  notAfter : Option Int64
  softNotAfter : Option Int64
  tokenId : Option Int64
  tokenParentId : Option Int64
  issuer : Option String
deriving DecidableEq, Repr

/-- A number unless it is zero. -/
def nonzero (n : Int64) : Option Int64 := if n = 0 then none else some n

/-- What is shown of a payload. -/
def Payload.view (p : Payload) : PayloadView where
  subject := p.subject
  type := p.type.name
  notBefore := p.notBefore.map (·.seconds)
  notAfter := p.notAfter.map (·.seconds)
  softNotAfter := p.softNotAfter.map (·.seconds)
  tokenId := nonzero p.tokenId
  tokenParentId := nonzero p.tokenParentId
  issuer := if p.issuer = "" then none else some p.issuer

namespace PayloadView

/-- The names of the fields, in order. -/
def names : List String :=
  ["subject", "type", "not_before", "not_after", "soft_not_after", "token_id", "token_parent_id",
    "issuer"]

/-- A field that is left out when it is absent. -/
def unlessAbsent {α : Type} (name : String) (item : α → Json) : Option α → List (String × Json)
  | none => []
  | some a => [(name, item a)]

/-- A number or null. -/
def orNull : Option Int64 → Json
  | none => .null
  | some n => .ofInt64 n

/-- A view as JSON. -/
def toJson (v : PayloadView) : Json :=
  .ofFields <|
    [("subject", .ofText v.subject), ("type", .ofText v.type),
      ("not_before", orNull v.notBefore), ("not_after", orNull v.notAfter)] ++
    unlessAbsent "soft_not_after" .ofInt64 v.softNotAfter ++
    unlessAbsent "token_id" .ofInt64 v.tokenId ++
    unlessAbsent "token_parent_id" .ofInt64 v.tokenParentId ++
    unlessAbsent "issuer" .ofText v.issuer

/-- Reads a view from JSON. -/
def ofJson? (j : Json) : Option PayloadView := do
  match ← Json.slots? names j with
  | [subject, type, notBefore, notAfter, softNotAfter, tokenId, tokenParentId, issuer] =>
    return {
      subject := ← subject.required Json.toText?
      type := ← type.required Json.toText?
      notBefore := ← notBefore.nullable Json.toInt64?
      notAfter := ← notAfter.nullable Json.toInt64?
      softNotAfter := ← softNotAfter.optional Json.toInt64?
      tokenId := ← tokenId.optional Json.toInt64?
      tokenParentId := ← tokenParentId.optional Json.toInt64?
      issuer := ← issuer.optional Json.toText? }
  | _ => none

end PayloadView

end PicBoard
