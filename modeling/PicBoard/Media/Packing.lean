import PicBoard.Text.Utf8

/-!
# Numbers and bits as bytes

Numbers of a fixed count of bytes, and bits eight to a byte, in both orders.
-/

namespace PicBoard

namespace Bytes

/-- The low so many bytes of a number, least significant first. -/
def little : (count : Nat) → Nat → Bytes
  | 0, _ => []
  | count + 1, n => UInt8.ofNat n :: little count (n / 256)

/-- The low so many bytes of a number, most significant first. -/
def big (count n : Nat) : Bytes := (little count n).reverse

end Bytes

namespace Packing

/-- The low so many bits of a number, least significant first. -/
def lowFirst (count n : Nat) : List Bool := (List.range count).map n.testBit

/-- The low so many bits of a number, most significant first. -/
def highFirst (count n : Nat) : List Bool := (lowFirst count n).reverse

/-- The number of bits, least significant first. -/
def value (bits : List Bool) : Nat := bits.foldr (fun b n => 2 * n + b.toNat) 0

/-- The list cut into pieces of so many items, one at least; the last may be shorter. -/
def pieces {α : Type} (size : Nat) : List α → List (List α)
  | [] => []
  | x :: rest => (x :: rest.take (size - 1)) :: pieces size (rest.drop (size - 1))
termination_by l => l.length
decreasing_by
  simp only [List.length_drop, List.length_cons]
  omega

/-- The bytes of bits of which the first is the least significant; bits that lack are zero. -/
def packLow (bits : List Bool) : Bytes :=
  (pieces 8 bits).map fun piece => UInt8.ofNat (value piece)

/-- The bytes of bits of which the first is the most significant; bits that lack are one. -/
def packHigh (bits : List Bool) : Bytes :=
  (pieces 8 bits).map fun piece =>
    UInt8.ofNat (value (piece ++ List.replicate (8 - piece.length) true).reverse)

end Packing

end PicBoard
