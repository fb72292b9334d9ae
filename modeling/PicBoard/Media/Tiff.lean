import PicBoard.Media.Image
import PicBoard.Media.Packing

/-!
# TIFF pictures

The pixels in one strip as they are, and then a directory of entries that say how to read them.
-/

namespace PicBoard.Tiff

open Bytes (little)

/-- How the values of an entry are laid out. -/
inductive FieldType where
  | short
  | long

/-- The number of a layout. -/
def FieldType.code : FieldType → Nat
  | .short => 3
  | .long => 4

/-- An entry of the directory: what it tells, and one value, or many at a position. -/
structure Entry where
  tag : Nat
  type : FieldType
  count : Nat := 1
  value : Nat

/-- An entry as it is written. -/
def Entry.encode (e : Entry) : Bytes :=
  little 2 e.tag ++ little 2 e.type.code ++ little 4 e.count ++ little 4 e.value

/-- Where the pixels start. -/
def pixelsStart : Nat := 8

/-- How many bits red, green, blue and alpha have. -/
def sampleBits : List Nat := [8, 8, 8, 8]

/-- The entries in the order of their numbers; `bits` is where the sizes of the samples lie. -/
def entries (i : Image) (bits : Nat) : List Entry :=
  [{ tag := 256, type := .long, value := i.width },
    { tag := 257, type := .long, value := i.height },
    { tag := 258, type := .short, count := 4, value := bits },
    { tag := 259, type := .short, value := 1 },
    { tag := 262, type := .short, value := 2 },
    { tag := 273, type := .long, value := pixelsStart },
    { tag := 277, type := .short, value := 4 },
    { tag := 278, type := .long, value := i.height },
    { tag := 279, type := .long, value := 4 * i.width * i.height },
    { tag := 338, type := .short, value := 2 }]

/-- Writes a picture. -/
def encode (i : Image) : Bytes :=
  let bits := pixelsStart + 4 * i.width * i.height
  let directory := bits + 2 * sampleBits.length
  let entries := entries i bits
  Bytes.ofText "II" ++ little 2 42 ++ little 4 directory ++
    i.pixels.flatMap (fun p => [p.red, p.green, p.blue, p.alpha]) ++
    sampleBits.flatMap (little 2) ++
    little 2 entries.length ++ entries.flatMap Entry.encode ++ little 4 0

end PicBoard.Tiff
