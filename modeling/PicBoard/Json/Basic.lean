import PicBoard.Text.Decimal

/-!
# JSON values

A value as it stands in a JSON text.  Strings are byte strings: an escape that names half of a
surrogate pair stands for three bytes that are no UTF-8, so such a string is a JSON value but
spells no text.
-/

namespace PicBoard

/-- A number: an integer of moderate length, or the characters of any other number. -/
inductive JsonNumber where
  | integer (n : Int)
  | other (lexeme : Bytes)
deriving DecidableEq, Repr

/-- A JSON value. -/
inductive Json where
  | null
  | bool (b : Bool)
  | number (n : JsonNumber)
  | string (content : Bytes)
  | array (items : List Json)
  | object (members : List (Bytes × Json))
deriving Repr

namespace Json

/-- A text as a value. -/
def ofText (s : String) : Json := .string (Bytes.ofText s)

/-- An integer as a value. -/
def ofInt (n : Int) : Json := .number (.integer n)

/-- A 64-bit number as a value. -/
def ofInt64 (n : Int64) : Json := ofInt n.toInt

/-- A record as a value, from the names and values of its fields. -/
def ofFields (fields : List (String × Json)) : Json :=
  .object (fields.map fun (name, v) => (Bytes.ofText name, v))

end Json

end PicBoard
