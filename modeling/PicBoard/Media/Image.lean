/-!
# Pictures

A picture is its size and, for each pixel row by row, the bytes of red, green, blue and alpha.
-/

namespace PicBoard

/-- A decoded picture. -/
structure Image where
  width : Nat
  height : Nat
  rgba : ByteArray

/-- Pictures are equal when their sizes and their bytes are. -/
instance : DecidableEq Image
  | ⟨width, height, ⟨bytes⟩⟩, ⟨width', height', ⟨bytes'⟩⟩ =>
    decidable_of_iff (width = width' ∧ height = height' ∧ bytes = bytes')
      ⟨fun ⟨hw, hh, hb⟩ => hw ▸ hh ▸ hb ▸ rfl, fun h => by cases h; exact ⟨rfl, rfl, rfl⟩⟩

/-- The colour of a point, and how far it covers what lies behind. -/
structure Pixel where
  red : UInt8
  green : UInt8
  blue : UInt8
  alpha : UInt8
deriving DecidableEq, Repr

namespace Image

/-- The byte at a position; zero where there is none. -/
def byteAt (i : Image) (n : Nat) : UInt8 := if h : n < i.rgba.size then i.rgba[n] else 0

/-- The pixel in a column and a row. -/
def pixelAt (i : Image) (x y : Nat) : Pixel :=
  let n := 4 * (i.width * y + x)
  { red := i.byteAt n, green := i.byteAt (n + 1), blue := i.byteAt (n + 2),
    alpha := i.byteAt (n + 3) }

/-- The pixels of a row. -/
def row (i : Image) (y : Nat) : List Pixel := (List.range i.width).map (i.pixelAt · y)

/-- The rows from the top down. -/
def rows (i : Image) : List (List Pixel) := (List.range i.height).map i.row

/-- The pixels row by row. -/
def pixels (i : Image) : List Pixel := i.rows.flatten

end Image

end PicBoard
