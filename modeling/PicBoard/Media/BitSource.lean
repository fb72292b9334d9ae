import PicBoard.Text.Utf8

/-!
# Bytes read bit by bit

The bits of a byte come least significant first.  More bytes may come later, so that a number
that is cut by the end of the bytes is told apart from one that makes no sense.
-/

namespace PicBoard

/-- Why nothing is read. -/
inductive Halt where
  /-- There are too few bits, or nothing can be done with what they say for now. -/
  | stalled
  /-- The bits say what cannot be. -/
  | corrupt
deriving DecidableEq, Repr

/-- Bytes that are read bit by bit. -/
structure BitSource where
  /-- The bits that are left of the byte in hand. -/
  pending : List Bool := []
  /-- The bytes after it. -/
  rest : Bytes := []
deriving DecidableEq, Repr

namespace BitSource

/-- The bits of a byte, least significant first. -/
def bitsOf (x : UInt8) : List Bool := (List.range 8).map x.toNat.testBit

/-- The next bit and what follows it. -/
def next? (s : BitSource) : Option (Bool × BitSource) :=
  match s.pending, s.rest with
  | b :: pending, _ => some (b, { s with pending })
  | [], [] => none
  | [], x :: rest => some (x.toNat.testBit 0, { pending := (bitsOf x).tail, rest })

/-- Reads a number of so many bits, least significant first. -/
def number : (count : Nat) → BitSource → Except Halt (Nat × BitSource)
  | 0, s => .ok (0, s)
  | count + 1, s =>
    match s.next? with
    | none => .error .stalled
    | some (b, s) => do
      let (n, s) ← number count s
      return (2 * n + b.toNat, s)

/-- The number of bits. -/
def size (s : BitSource) : Nat := s.pending.length + 8 * s.rest.length

/-- Whether there are so many bits. -/
def has (count : Nat) (s : BitSource) : Bool :=
  count ≤ s.pending.length + 8 * (s.rest.take count).length

/-- What follows the byte in hand. -/
def aligned (s : BitSource) : BitSource := { s with pending := [] }

/-- Adds bytes at the end. -/
def append (s : BitSource) (more : Bytes) : BitSource := { s with rest := s.rest ++ more }

/-- The same with sixteen bits at least: what is not there yet counts as zero bits. -/
def padded (s : BitSource) : BitSource :=
  match s.rest with
  | _ :: _ :: _ => s
  | _ => s.append [0, 0]

end BitSource

end PicBoard
