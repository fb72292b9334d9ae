import PicBoard.Media.Image
import PicBoard.Media.Packing

/-!
# BMP pictures

A header that says which bits of a pixel hold which colour, and the rows from the bottom up.
-/

namespace PicBoard.Bitmap

open Bytes (little)

/-- The size of the file's own header. -/
def fileHeaderSize : Nat := 14

/-- The size of the header that describes the picture. -/
def infoHeaderSize : Nat := 108

/-- Where red, green, blue and alpha lie in a pixel of 32 bits. -/
def masks : List Nat := [0x00ff0000, 0x0000ff00, 0x000000ff, 0xff000000]

/-- The mark of the usual space of colours. -/
def colorSpace : Nat := 0x73524742

/-- The header that describes a picture: one plane of 32 bits, masks, and no table of colours. -/
def infoHeader (i : Image) : Bytes :=
  little 4 infoHeaderSize ++ little 4 i.width ++ little 4 i.height ++ little 2 1 ++ little 2 32 ++
    little 4 3 ++ little 4 (4 * i.width * i.height) ++ List.replicate 16 0 ++
    masks.flatMap (little 4) ++ little 4 colorSpace ++ List.replicate 48 0

/-- A pixel, least significant byte first. -/
def pixelBytes (p : Pixel) : Bytes := [p.blue, p.green, p.red, p.alpha]

/-- Writes a picture. -/
def encode (i : Image) : Bytes :=
  let start := fileHeaderSize + infoHeaderSize
  Bytes.ofText "BM" ++ little 4 (start + 4 * i.width * i.height) ++ little 4 0 ++ little 4 start ++
    infoHeader i ++ i.rows.reverse.flatMap fun row => row.flatMap pixelBytes

end PicBoard.Bitmap
