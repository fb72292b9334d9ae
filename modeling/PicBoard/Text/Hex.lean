import PicBoard.Text.Quoted

/-!
# Hexadecimal texts

Two digits a byte, written in lower case and read in either case.
-/

namespace PicBoard.Hex

/-- The digit of a value below sixteen. -/
def digit (n : Nat) : UInt8 :=
  if n < 10 then UInt8.ofNat (48 + n) else UInt8.ofNat (87 + n)

/-- The value of a digit in either case. -/
def value? (b : UInt8) : Option Nat :=
  let n := b.toNat
  if 48 ≤ n ∧ n ≤ 57 then some (n - 48)
  else if 97 ≤ n ∧ n ≤ 102 then some (n - 87)
  else if 65 ≤ n ∧ n ≤ 70 then some (n - 55)
  else none

/-- The digits of a byte string, high half first. -/
def encodeBytes (b : Bytes) : Bytes :=
  b.flatMap fun x => [digit (x.toNat / 16), digit (x.toNat % 16)]

/-- The lower-case hexadecimal text of a byte string. -/
def encode (b : Bytes) : String :=
  (encodeBytes b).toLatin1

/-- Why a text is no hexadecimal spelling of bytes. -/
inductive Error where
  | oddLength
  | invalidCharacter (byte : UInt8) (index : Nat)
deriving DecidableEq, Repr

/-- The wording of a refusal. -/
def Error.message : Error → String
  | .oddLength => "Odd number of digits"
  | .invalidCharacter b i =>
    s!"Invalid character {Text.quotedChar (Char.ofNat b.toNat)} at position {i}"

/-- Reads pairs of digits, the first of which stands at `index`. -/
def decodeFrom (index : Nat) : Bytes → Except Error Bytes
  | hi :: lo :: rest =>
    match value? hi, value? lo with
    | some h, some l => (decodeFrom (index + 2) rest).map (UInt8.ofNat (16 * h + l) :: ·)
    | none, _ => .error (.invalidCharacter hi index)
    | _, none => .error (.invalidCharacter lo (index + 1))
  | _ => .ok []

/-- Reads a hexadecimal text; an odd length is refused before any digit is looked at. -/
def decode (text : Bytes) : Except Error Bytes :=
  if text.length % 2 = 1 then .error .oddLength else decodeFrom 0 text

end PicBoard.Hex
