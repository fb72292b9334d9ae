import PicBoard.Text.Decimal

/-!
# Durations

A duration is whole seconds, of which there are fewer than 2^64, and nanoseconds after them.  As
text it is seconds, a point and a number of microseconds, which may pass a second.
-/

namespace PicBoard

/-- A length of time. -/
structure Duration where
  seconds : Nat
  nanos : Nat
deriving DecidableEq, Repr

namespace Duration

/-- A length of time in nanoseconds. -/
def toNanos (d : Duration) : Nat := d.seconds * 1000000000 + d.nanos

/-- So many seconds. -/
def ofSeconds (n : Nat) : Duration := { seconds := n, nanos := 0 }

/-- So many microseconds. -/
def ofMicros (n : Nat) : Duration :=
  { seconds := n / 1000000, nanos := n % 1000000 * 1000 }

/-- Two lengths of time together; a billion nanoseconds are carried as a second. -/
def sum (a b : Duration) : Duration where
  seconds := a.seconds + b.seconds + (a.nanos + b.nanos) / 1000000000
  nanos := (a.nanos + b.nanos) % 1000000000

/-- The sum of two lengths of time, unless it has 2^64 seconds or more. -/
def add? (a b : Duration) : Option Duration :=
  if (a.sum b).seconds < UInt64.size then some (a.sum b) else none

/-- The bytes before and after the first point, if there is one. -/
def splitPoint : Bytes → Option (Bytes × Bytes)
  | [] => none
  | b :: rest =>
    if b = 46 then some ([], rest) else (splitPoint rest).map fun (a, c) => (b :: a, c)

/-- Whether a byte string is one digit or more and nothing else. -/
def isNumeral (b : Bytes) : Bool := b ≠ [] && b.all Decimal.isDigit

/-- Reads a duration; both numbers must be below 2^64, and the sum of them must be as well. -/
def parse (text : Bytes) : Option Duration :=
  match splitPoint text with
  | none => none
  | some (seconds, micros) =>
    if isNumeral seconds && isNumeral micros then
      match Decimal.readNat (Decimal.unsignedMax 64) seconds,
        Decimal.readNat (Decimal.unsignedMax 64) micros with
      | .ok s, .ok m => (ofSeconds s).add? (ofMicros m)
      | _, _ => none
    else none

/-- The digits of a fraction of so many places, without zeros at the end. -/
def fractionDigits : (places : Nat) → Nat → Bytes
  | 0, _ => []
  | places + 1, n =>
    if n = 0 then []
    else Decimal.digitByte (n / Nat.pow 10 places) ::
      fractionDigits places (n % Nat.pow 10 places)

/-- A number of units and a fraction of so many places. -/
def withUnit (whole places fraction : Nat) (unit : String) : String :=
  let f := fractionDigits places fraction
  (Decimal.digits whole ++ (if f = [] then [] else 46 :: f)).toLatin1 ++ unit

/-- A duration in messages: in the largest unit of which it has one, down to nanoseconds. -/
def describe (d : Duration) : String :=
  if 0 < d.seconds then withUnit d.seconds 9 d.nanos "s"
  else if 1000000 ≤ d.nanos then withUnit (d.nanos / 1000000) 6 (d.nanos % 1000000) "ms"
  else if 1000 ≤ d.nanos then withUnit (d.nanos / 1000) 3 (d.nanos % 1000) "µs"
  else withUnit d.nanos 0 0 "ns"

end Duration

end PicBoard
