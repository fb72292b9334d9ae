import PicBoard.Wire.Input

/-!
# Base-128 numbers

A 64-bit number as groups of seven bits, least significant first, with the high bit set on every
byte but the last.
-/

namespace PicBoard.Wire

/-- The bytes of a number. -/
def base128 (n : Nat) : Bytes :=
  if n < 128 then [UInt8.ofNat n] else UInt8.ofNat (n % 128 + 128) :: base128 (n / 128)
termination_by n

/-- Reads a number of at most `groups` bytes and below `limit`; `none` when the bytes end inside
it, when it goes on too long, or when it is too large. -/
def readGroups : (groups limit : Nat) → Input → Option (Nat × Input)
  | 0, _, _ => none
  | groups + 1, limit, s =>
    match s.next? with
    | none => none
    | some (b, rest) =>
      let n := b.toNat
      if n < 128 then if n < limit then some (n, rest) else none
      else
        match readGroups groups ((limit + 127) / 128) rest with
        | some (more, rest) => some (n - 128 + 128 * more, rest)
        | none => none

/-- Reads a 64-bit number, of at most ten bytes. -/
def readBase128 (s : Input) : Option (Nat × Input) :=
  readGroups 10 UInt64.size s

end PicBoard.Wire
