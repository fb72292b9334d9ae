import PicBoard.Media.Image
import PicBoard.Media.Packing

/-!
# JPEG pictures

The baseline kind: brightness and two differences of colour in blocks of eight by eight, each as
rounded shares of waves.  All three use one table of steps and codes in which all words are of one
length.
-/

namespace PicBoard.Jpeg

open Bytes (big)
open Packing (highFirst)

/-- The longest side. -/
def longestSide : Nat := 65535

/-- The side of a block. -/
def side : Nat := 8

/-! ## Samples -/

/-- The quotient rounded to the nearest integer. -/
def roundDiv (n : Int) (d : Nat) : Int := (2 * n + d) / (2 * d : Nat)

/-- Brightness and differences of a pixel, around zero. -/
def samples (p : Pixel) : List Int :=
  let r : Int := p.red.toNat
  let g : Int := p.green.toNat
  let b : Int := p.blue.toNat
  [roundDiv (299 * r + 587 * g + 114 * b) 1000 - 128,
    roundDiv (-168736 * r - 331264 * g + 500000 * b) 1000000,
    roundDiv (500000 * r - 418688 * g - 81312 * b) 1000000]

/-- The samples of one kind in a block; a picture goes on beyond its edges as it ends. -/
def block (i : Image) (component x y : Nat) : List (List Int) :=
  (List.range side).map fun v => (List.range side).map fun u =>
    (samples (i.pixelAt (min (x + u) (i.width - 1)) (min (y + v) (i.height - 1)))).getD component 0

/-! ## Waves -/

/-- Half the cosine of so many sixteenths of a half-turn, in units of 1/4096, for up to half a
half-turn. -/
def halfCosines : List Int := [2048, 2009, 1892, 1703, 1448, 1138, 784, 400, 0]

/-- Half the cosine of so many sixteenths of a half-turn, in units of 1/4096. -/
def halfCosine (n : Nat) : Int :=
  let n := n % 32
  let n := if 16 < n then 32 - n else n
  if n ≤ 8 then halfCosines.getD n 0 else -halfCosines.getD (16 - n) 0

/-- How far a wave of a frequency stands up at a place. -/
def wave (frequency place : Nat) : Int :=
  if frequency = 0 then halfCosine 4 else halfCosine ((2 * place + 1) * frequency)

/-- The shares of the waves in a row of samples. -/
def sharesOf (row : List Int) : List Int :=
  (List.range side).map fun frequency =>
    row.zipIdx.foldl (fun n (s, place) => n + s * wave frequency place) 0

/-- Rows as columns. -/
def transposed (rows : List (List Int)) : List (List Int) :=
  (List.range side).map fun x => rows.map fun row => row.getD x 0

/-- The shares of the waves in a block, in units of 1/4096 of 1/4096. -/
def shares (rows : List (List Int)) : List (List Int) :=
  transposed ((transposed (rows.map sharesOf)).map sharesOf)

/-! ## Steps -/

/-- The order in which shares are written: along the diagonals. -/
def zigzag : List Nat :=
  [0, 1, 8, 16, 9, 2, 3, 10, 17, 24, 32, 25, 18, 11, 4, 5, 12, 19, 26, 33, 40, 48, 41, 34, 27, 20,
    13, 6, 7, 14, 21, 28, 35, 42, 49, 56, 57, 50, 43, 36, 29, 22, 15, 23, 30, 37, 44, 51, 58, 59,
    52, 45, 38, 31, 39, 46, 53, 60, 61, 54, 47, 55, 62, 63]

/-- The steps to which shares are rounded, row by row. -/
def steps : List Nat :=
  [8, 6, 5, 8, 12, 20, 26, 31, 6, 6, 7, 10, 13, 29, 30, 28, 7, 7, 8, 12, 20, 29, 35, 28, 7, 9, 11,
    15, 26, 44, 40, 31, 9, 11, 19, 28, 34, 55, 52, 39, 12, 18, 28, 32, 41, 52, 57, 46, 25, 32, 39,
    44, 52, 61, 60, 51, 36, 46, 48, 49, 56, 50, 52, 50]

/-- The shares of a block in steps, in the order in which they are written. -/
def stepped (rows : List (List Int)) : List Int :=
  let shares := (shares rows).flatten
  zigzag.map fun n => roundDiv (shares.getD n 0) (4096 * 4096 * steps.getD n 1)

/-! ## Codes -/

/-- The number of bits of a share: how many its absolute value has. -/
def category (n : Int) : Nat := (List.range 12).countP fun k => (1 <<< k : Nat) ≤ n.natAbs

/-- The bits of a share, by which those of one category are told apart. -/
def shareBits (n : Int) : List Bool :=
  let size := category n
  highFirst size (if n < 0 then (n + ((1 <<< size : Nat) : Int) - 1).toNat else n.toNat)

/-- The symbols for the first share of a block: its category. -/
def firstSymbols : List Nat := List.range 12

/-- The most zeros before a share that one symbol tells. -/
def longestRun : Nat := 15

/-- The number of categories of shares other than the first. -/
def categories : Nat := 10

/-- The symbol of a block's end. -/
def endSymbol : Nat := 0

/-- The symbol of sixteen zeros. -/
def zerosSymbol : Nat := 240

/-- The symbols for the other shares: how many zeros come before, and a category; the end of a
block; and sixteen zeros. -/
def otherSymbols : List Nat :=
  ((List.range (longestRun + 1)).flatMap fun zeros =>
    (List.range categories).map fun c => 16 * zeros + c + 1) ++ [endSymbol, zerosSymbol]

/-- The word of a symbol, which is its place among the symbols in so many bits. -/
def word (symbols : List Nat) (bits symbol : Nat) : List Bool := highFirst bits (symbols.idxOf symbol)

/-- The other shares of a block in words, after so many zeros. -/
def otherBits : (zeros : Nat) → List Int → List Bool
  | zeros, [] => if zeros = 0 then [] else word otherSymbols 8 endSymbol
  | zeros, n :: rest =>
    if n = 0 then otherBits (zeros + 1) rest
    else
      (List.replicate (zeros / 16) (word otherSymbols 8 zerosSymbol)).flatten ++
        word otherSymbols 8 (16 * (zeros % 16) + category n) ++ shareBits n ++ otherBits 0 rest

/-- A block in words; its first share is told by how it differs from the one before. -/
def blockBits (before : Int) : List Int → List Bool
  | [] => []
  | first :: rest =>
    let d := first - before
    word firstSymbols 4 (category d) ++ shareBits d ++ otherBits 0 rest

/-! ## Files -/

/-- The bits of blocks, each a list for the three kinds of sample, after given first shares. -/
def blocksBits : (before : List Int) → List (List (List Int)) → List Bool
  | _, [] => []
  | before, blocks :: rest =>
    ((before.zip blocks).flatMap fun (b, shares) => blockBits b shares) ++
      blocksBits (blocks.map fun shares => shares.headD 0) rest

/-- The blocks of a picture row by row. -/
def blocksOf (i : Image) : List (List (List Int)) :=
  (List.range ((i.height + side - 1) / side)).flatMap fun y =>
    (List.range ((i.width + side - 1) / side)).map fun x =>
      (List.range 3).map fun component => stepped (block i component (side * x) (side * y))

/-- Bytes after which a zero stands where they could be taken for a mark. -/
def stuffed (b : Bytes) : Bytes := b.flatMap fun x => if x = 0xff then [x, 0] else [x]

/-- A segment: a mark, a length, and what it counts. -/
def segment (mark : UInt8) (content : Bytes) : Bytes :=
  0xff :: mark :: big 2 (content.length + 2) ++ content

/-- The segment of a code all whose words have so many bits. -/
def codeSegment (kind : UInt8) (bits : Nat) (symbols : List Nat) : Bytes :=
  segment 0xc4 <| kind ::
    ((List.range 16).map fun n => if n + 1 = bits then UInt8.ofNat symbols.length else 0) ++
    symbols.map UInt8.ofNat

/-- Writes a picture, unless it is too large. -/
def encode? (i : Image) : Option Bytes :=
  if longestSide < i.width ∨ longestSide < i.height then none
  else
    let kinds : List UInt8 := [1, 2, 3]
    some <|
      [0xff, 0xd8] ++ segment 0xe0 (Bytes.ofText "JFIF" ++ [0, 1, 2, 0, 0, 1, 0, 1, 0, 0]) ++
        segment 0xdb (0 :: zigzag.map fun n => UInt8.ofNat (steps.getD n 1)) ++
        segment 0xc0 (8 :: big 2 i.height ++ big 2 i.width ++
          3 :: kinds.flatMap fun k => [k, 0x11, 0]) ++
        codeSegment 0x00 4 firstSymbols ++ codeSegment 0x10 8 otherSymbols ++
        segment 0xda (3 :: (kinds.flatMap fun k => [k, 0]) ++ [0, 63, 0]) ++
        stuffed (Packing.packHigh (blocksBits [0, 0, 0] (blocksOf i))) ++ [0xff, 0xd9]

end PicBoard.Jpeg
