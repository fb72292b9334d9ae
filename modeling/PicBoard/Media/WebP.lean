import PicBoard.Media.Image
import PicBoard.Media.Packing

/-!
# WebP pictures

The lossless kind, with codes in which every byte has a word of eight bits.
-/

namespace PicBoard.WebP

open Bytes (little)
open Packing (lowFirst highFirst)

/-- The longest side. -/
def longestSide : Nat := 16384

/-- The lengths of the words of the code for code lengths, in the order in which they are written:
one bit for each of the lengths 0 and 8. -/
def lengthCode : List Nat := [0, 0, 1, 0, 0, 0, 0, 0, 0, 0, 0, 1]

/-- A code of so many symbols of which the first 256 have words of eight bits, and the others
none. -/
def byteCode (symbols : Nat) : List Bool :=
  false :: lowFirst 4 (lengthCode.length - 4) ++ lengthCode.flatMap (lowFirst 3) ++ false ::
    (List.range symbols).map (· < 256)

/-- A code whose one symbol is zero and has an empty word. -/
def zeroCode : List Bool := [true, false, false, false]

/-- The codes for green, red, blue, alpha and distances; green shares its code with 24 lengths. -/
def codes : List Bool := byteCode 280 ++ byteCode 256 ++ byteCode 256 ++ byteCode 256 ++ zeroCode

/-- A pixel in words of the codes. -/
def pixelBits (p : Pixel) : List Bool :=
  [p.green, p.red, p.blue, p.alpha].flatMap fun b => highFirst 8 b.toNat

/-- The stream of a picture: its mark, its size, and no transforms, cache or choice of codes. -/
def stream (i : Image) : Bytes :=
  0x2f :: Packing.packLow (lowFirst 14 (i.width - 1) ++ lowFirst 14 (i.height - 1) ++
    [true, false, false, false] ++ [false, false, false] ++ codes ++ i.pixels.flatMap pixelBits)

/-- Writes a picture, unless it is too large. -/
def encode? (i : Image) : Option Bytes :=
  if longestSide < i.width ∨ longestSide < i.height then none
  else
    let stream := stream i
    let chunk := Bytes.ofText "VP8L" ++ little 4 stream.length ++ stream ++
      (if stream.length % 2 = 1 then [0] else [])
    some (Bytes.ofText "RIFF" ++ little 4 (chunk.length + 4) ++ Bytes.ofText "WEBP" ++ chunk)

end PicBoard.WebP
