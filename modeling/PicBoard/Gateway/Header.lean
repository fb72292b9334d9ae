import PicBoard.Text.Blank
import PicBoard.Text.Decimal

/-!
# Headers and cookies

A request carries headers in order, whose names are compared without regard to case.  A value
with a byte other than visible ASCII, a space or a tab is no text and is passed over.
-/

namespace PicBoard

/-- A header of a request or an answer. -/
structure Header where
  name : String
  value : Bytes
deriving DecidableEq, Repr

namespace Header

/-- Whether a byte may stand in a value that is a text. -/
def isVisible (b : UInt8) : Bool := (32 ≤ b.toNat && b.toNat < 127) || b == 9

/-- Whether a byte may stand in a value at all. -/
def isAllowed (b : UInt8) : Bool := (32 ≤ b.toNat && b != 127) || b == 9

/-- The headers of a name. -/
def named (headers : List Header) (name : String) : List Header :=
  headers.filter fun h => Text.asciiLower h.name = Text.asciiLower name

/-- The values of the headers of a name that are texts. -/
def texts (headers : List Header) (name : String) : List Bytes :=
  (named headers name).filterMap fun h => if h.value.all isVisible then some h.value else none

/-- Whether a byte is a space or a tab. -/
def isBlank (b : UInt8) : Bool := b == 32 || b == 9

/-- A byte string without spaces and tabs at its ends. -/
def trim (b : Bytes) : Bytes :=
  ((b.dropWhile isBlank).reverse.dropWhile isBlank).reverse

/-- What stands before and after the first equals sign, if there is one. -/
def splitEquals : Bytes → Option (Bytes × Bytes)
  | [] => none
  | b :: rest =>
    if b = 61 then some ([], rest) else (splitEquals rest).map fun (k, v) => (b :: k, v)

/-- The name of the headers that carry cookies. -/
def cookieHeader : String := "cookie"

/-- The value of a cookie, if a piece of a line is the cookie of a name. -/
def cookieValue? (name piece : Bytes) : Option Bytes :=
  match splitEquals (trim piece) with
  | some (k, v) => if k = name then some v else none
  | none => none

/-- The values of the cookies of a name, in order. -/
def cookies (headers : List Header) (name : Bytes) : List Bytes :=
  (texts headers cookieHeader).flatMap fun line =>
    (Bytes.pieces 59 line).filterMap (cookieValue? name)

end Header

end PicBoard
