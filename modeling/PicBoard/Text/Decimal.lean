import PicBoard.Text.Utf8

/-!
# Decimal integers

A text of ASCII digits, with an optional sign, read into a bounded range.  Reading stops at the
first character that is no digit or at the first digit that leaves the range.
-/

namespace PicBoard.Decimal

/-- Why a text names no integer of the wanted range. -/
inductive Error where
  | empty
  | invalidDigit
  | tooLarge
  | tooSmall
deriving DecidableEq, Repr

/-- The wording of a refusal. -/
def Error.message : Error → String
  | .empty => "cannot parse integer from empty string"
  | .invalidDigit => "invalid digit found in string"
  | .tooLarge => "number too large to fit in target type"
  | .tooSmall => "number too small to fit in target type"

/-- Whether a byte is an ASCII digit. -/
def isDigit (b : UInt8) : Bool := 48 ≤ b.toNat && b.toNat ≤ 57

/-- The value of a digit. -/
def digit? (b : UInt8) : Option Nat :=
  if isDigit b then some (b.toNat - 48) else none

/-- The number that a string of digits denotes, other bytes counting for what they are. -/
def value (b : Bytes) : Nat :=
  b.foldl (fun n x => 10 * n + (x.toNat - 48)) 0

/-- Reads digits after those that gave `acc`, up to `limit`. -/
def readDigits (limit : Nat) (acc : Nat) : Bytes → Except Error Nat
  | [] => .ok acc
  | b :: rest =>
    match digit? b with
    | none => .error .invalidDigit
    | some d =>
      let next := 10 * acc + d
      if next ≤ limit then readDigits limit next rest else .error .tooLarge

/-- Reads a number from 0 to `limit`; a leading `+` is allowed. -/
def readNat (limit : Nat) (text : Bytes) : Except Error Nat :=
  match text with
  | [] => .error .empty
  | [43] => .error .invalidDigit
  | 43 :: digits => readDigits limit 0 digits
  | digits => readDigits limit 0 digits

/-- The limit of an unsigned number of so many bits. -/
def unsignedMax (bits : Nat) : Nat := Nat.pow 2 bits - 1

/-- Reads a signed 64-bit number; a leading `+` or `-` is allowed. -/
def readInt64 (text : Bytes) : Except Error Int64 :=
  match text with
  | [] => .error .empty
  | [43] => .error .invalidDigit
  | [45] => .error .invalidDigit
  | 43 :: digits => (readDigits (unsignedMax 63) 0 digits).map fun n => Int64.ofInt n
  | 45 :: digits =>
    match readDigits (unsignedMax 63 + 1) 0 digits with
    | .ok n => .ok (Int64.ofInt (-n))
    | .error .tooLarge => .error .tooSmall
    | .error e => .error e
  | digits => (readDigits (unsignedMax 63) 0 digits).map fun n => Int64.ofInt n

/-- The digit of a value below ten. -/
def digitByte (n : Nat) : UInt8 := UInt8.ofNat (48 + n % 10)

/-- The digits of a number, without leading zeros except for zero itself. -/
def digits (n : Nat) : Bytes :=
  if n < 10 then [digitByte n] else digits (n / 10) ++ [digitByte n]
termination_by n

/-- An integer with a minus sign when it is negative. -/
def integer (n : Int) : Bytes :=
  match n with
  | .ofNat m => digits m
  | .negSucc m => 45 :: digits (m + 1)

/-- The text of an integer. -/
def text (n : Int) : String := (integer n).toLatin1

end PicBoard.Decimal
