import PicBoard.Token.Codec

/-!
# The life of a token

A token is at first not yet valid, then live, then past its soft bound but still good, and at
last expired.
-/

namespace PicBoard

/-- Where a token stands in its life. -/
inductive TokenState where
  | notYetValid
  | live
  | softExpired
  | expired
deriving DecidableEq, Repr

namespace TokenState

/-- The state of a payload's token at a moment. -/
def during (p : Payload) (now : Timestamp) : TokenState :=
  match p.checkValidity now with
  | .error .notYetValid => .notYetValid
  | .error _ => .expired
  | .ok () =>
    match p.softNotAfter with
    | some soft => if soft.before now then .softExpired else .live
    | none => .live

/-- The state of a payload's token when the clock reads `now`, unless there is no timestamp of
that time. -/
def read? (p : Payload) (now : Instant) : Option TokenState :=
  (Timestamp.ofInstant? now).map (during p)

/-- Whether a token in this state is accepted. -/
def isUsable : TokenState → Bool
  | .live | .softExpired => true
  | .notYetValid | .expired => false

/-- The name of a state. -/
def name : TokenState → String
  | .notYetValid => "not_yet_valid"
  | .live => "live"
  | .softExpired => "soft_expired"
  | .expired => "expired"

end TokenState

end PicBoard
