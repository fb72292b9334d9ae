import PicBoard.Json.Basic

/-!
# Writing JSON

Compact text has no blanks.  Spread text has one item or member a line, indented by two blanks a
level, and a blank after each colon; an empty array or object stays on its line.
-/

namespace PicBoard.Json

/-- A hexadecimal digit in lower case. -/
def hexDigit (n : Nat) : UInt8 :=
  if n < 10 then UInt8.ofNat (48 + n) else UInt8.ofNat (87 + n)

/-- How a byte of a string is written. -/
def escapeByte (b : UInt8) : Bytes :=
  if b = 34 then [92, 34]
  else if b = 92 then [92, 92]
  else if b = 8 then [92, 98]
  else if b = 9 then [92, 116]
  else if b = 10 then [92, 110]
  else if b = 12 then [92, 102]
  else if b = 13 then [92, 114]
  else if b < 32 then [92, 117, 48, 48, hexDigit (b.toNat / 16), hexDigit (b.toNat % 16)]
  else [b]

/-- A string between quotes. -/
def writeString (s : Bytes) : Bytes := 34 :: s.flatMap escapeByte ++ [34]

/-- A number. -/
def writeNumber : JsonNumber → Bytes
  | .integer n => Decimal.integer n
  | .other lexeme => lexeme

mutual

/-- Compact text. -/
def compact : Json → Bytes
  | .null => Bytes.ofText "null"
  | .bool true => Bytes.ofText "true"
  | .bool false => Bytes.ofText "false"
  | .number n => writeNumber n
  | .string s => writeString s
  | .array [] => [91, 93]
  | .array (x :: xs) => 91 :: compact x ++ compactItems xs ++ [93]
  | .object [] => [123, 125]
  | .object ((k, v) :: ms) =>
    123 :: writeString k ++ 58 :: compact v ++ compactMembers ms ++ [125]

/-- The items after the first. -/
def compactItems : List Json → Bytes
  | [] => []
  | x :: xs => 44 :: compact x ++ compactItems xs

/-- The members after the first. -/
def compactMembers : List (Bytes × Json) → Bytes
  | [] => []
  | (k, v) :: ms => 44 :: writeString k ++ 58 :: compact v ++ compactMembers ms

end

/-- The start of a line at some depth. -/
def newline (depth : Nat) : Bytes := 10 :: List.replicate (2 * depth) 32

mutual

/-- Spread text, which starts at some depth. -/
def spreadAt (depth : Nat) : Json → Bytes
  | .array (x :: xs) =>
    91 :: newline (depth + 1) ++ spreadAt (depth + 1) x ++ spreadItems (depth + 1) xs ++
      newline depth ++ [93]
  | .object ((k, v) :: ms) =>
    123 :: newline (depth + 1) ++ writeString k ++ 58 :: 32 :: spreadAt (depth + 1) v ++
      spreadMembers (depth + 1) ms ++ newline depth ++ [125]
  | .null => Bytes.ofText "null"
  | .bool true => Bytes.ofText "true"
  | .bool false => Bytes.ofText "false"
  | .number n => writeNumber n
  | .string s => writeString s
  | .array [] => [91, 93]
  | .object [] => [123, 125]

/-- The items after the first. -/
def spreadItems (depth : Nat) : List Json → Bytes
  | [] => []
  | x :: xs => 44 :: newline depth ++ spreadAt depth x ++ spreadItems depth xs

/-- The members after the first. -/
def spreadMembers (depth : Nat) : List (Bytes × Json) → Bytes
  | [] => []
  | (k, v) :: ms =>
    44 :: newline depth ++ writeString k ++ 58 :: 32 :: spreadAt depth v ++
      spreadMembers depth ms

end

/-- Spread text. -/
def spread (j : Json) : Bytes := spreadAt 0 j

end PicBoard.Json
