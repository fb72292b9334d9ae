import PicBoard.Media.Image
import PicBoard.Media.Inflate

/-!
# PNG pictures

Reads pictures with eight bits a sample that are not interlaced, in any of the five colour types,
with palette and transparency, and writes pictures as red, green, blue and alpha.  Of an animation
the picture is read that stands for all of it.
-/

namespace PicBoard.Png

open Inflate (byteAt)

/-- The bytes that every file starts with. -/
def signature : Bytes := [0x89, 0x50, 0x4e, 0x47, 0x0d, 0x0a, 0x1a, 0x0a]

/-! ## Chunks -/

/-- One step of the checksum for each of the low eight bits. -/
def checksumStep : (count : Nat) → UInt32 → UInt32
  | 0, c => c
  | count + 1, c =>
    checksumStep count (if c &&& 1 = 1 then (c >>> 1) ^^^ 0xedb88320 else c >>> 1)

/-- The checksum of a chunk: CRC-32 of its type and data. -/
def checksum (b : Bytes) : UInt32 :=
  ~~~(b.foldl (fun c x => checksumStep 8 (c ^^^ x.toUInt32)) 0xffffffff)

/-- The big-endian number that bytes denote. -/
def numberOf (b : Bytes) : Nat := b.foldl (fun n x => 256 * n + x.toNat) 0

/-- The big-endian bytes of a 32-bit number. -/
def bytesOf (n : Nat) : Bytes :=
  [UInt8.ofNat (n >>> 24), UInt8.ofNat (n >>> 16), UInt8.ofNat (n >>> 8), UInt8.ofNat n]

/-- The type of the first chunk. -/
def typeHeader : Bytes := Bytes.ofText "IHDR"

/-- The type of the chunk of colours. -/
def typePalette : Bytes := Bytes.ofText "PLTE"

/-- The type of the chunk of transparency. -/
def typeTransparency : Bytes := Bytes.ofText "tRNS"

/-- The type of the chunk of the colour behind the picture. -/
def typeBackground : Bytes := Bytes.ofText "bKGD"

/-- The type of the chunk of code points, which say what the colours mean. -/
def typeCodePoints : Bytes := Bytes.ofText "cICP"

/-- The type of the chunk that begins a frame of an animation. -/
def typeFrame : Bytes := Bytes.ofText "fcTL"

/-- The type of the chunks of pixels. -/
def typeData : Bytes := Bytes.ofText "IDAT"

/-- The type of the chunks of pixels that belong to a frame of an animation only. -/
def typeFrameData : Bytes := Bytes.ofText "fdAT"

/-- The type of the last chunk. -/
def typeEnd : Bytes := Bytes.ofText "IEND"

/-- A chunk of a file. -/
structure Chunk where
  type : Bytes
  data : Bytes
  /-- Whether the checksum is right. -/
  sound : Bool
deriving DecidableEq, Repr

/-- The least and the most bytes of a chunk, for the types that are looked into. -/
def sizeTable : List (Bytes × Nat × Nat) :=
  [(typeHeader, 13, 13), (typePalette, 3, 768), (typeTransparency, 0, 256), (typeBackground, 1, 6),
    (typeCodePoints, 4, 4), (typeFrame, 26, 26)]

/-- Whether a chunk is as long as chunks of its type may be. -/
def Chunk.fits (c : Chunk) : Bool :=
  match sizeTable.lookup c.type with
  | some (least, most) => least ≤ c.data.length && c.data.length ≤ most
  | none => true

/-- Whether a picture cannot be read without chunks of a type: its name starts with a capital. -/
def isCritical (type : Bytes) : Bool :=
  match type with
  | b :: _ => b.toNat / 32 % 2 = 0
  | [] => false

/-- The type of the chunk at the front, which is `none` when the bytes end before it does. -/
def frontType? (s : Bytes) : Option Bytes :=
  let type := (s.drop 4).take 4
  if type.length < 4 then none else some type

/-- The chunk at the front, which is `none` when the bytes end inside it. -/
def readChunk (s : Bytes) : Option (Chunk × Bytes) := do
  let type ← frontType? s
  let length := numberOf (s.take 4)
  let body := s.drop 8
  let data := body.take length
  let after := body.drop length
  let mark := after.take 4
  if data.length < length ∨ mark.length < 4 then none
  else
    return ({ type, data, sound := (checksum (type ++ data)).toNat = numberOf mark },
      after.drop 4)

/-! ## Reading what comes before the pixels -/

/-- The kinds of pixel. -/
inductive ColorType where
  | gray
  | rgb
  | indexed
  | grayAlpha
  | rgba
deriving DecidableEq, Repr

namespace ColorType

/-- The kind of a number. -/
def ofCode? : Nat → Option ColorType
  | 0 => some .gray
  | 2 => some .rgb
  | 3 => some .indexed
  | 4 => some .grayAlpha
  | 6 => some .rgba
  | _ => none

/-- The bytes of a pixel. -/
def bytes : ColorType → Nat
  | .gray => 1
  | .rgb => 3
  | .indexed => 1
  | .grayAlpha => 2
  | .rgba => 4

end ColorType

/-- What the first chunk says. -/
structure Header where
  width : Nat
  height : Nat
  color : ColorType
deriving DecidableEq, Repr

/-- Reads the first chunk. -/
def readHeader (c : Chunk) : Option Header :=
  match c.data.drop 8 with
  | depth :: color :: compression :: filter :: interlace :: _ =>
    let width := numberOf (c.data.take 4)
    let height := numberOf ((c.data.drop 4).take 4)
    if c.type ≠ typeHeader ∨ !c.fits ∨ !c.sound ∨ depth ≠ 8 ∨ compression ≠ 0 ∨ filter ≠ 0 ∨
        interlace ≠ 0 ∨ width = 0 ∨ height = 0 then none
    else (ColorType.ofCode? color.toNat).map fun color => { width, height, color }
  | _ => none

/-- What is transparent. -/
inductive Transparency where
  /-- Pixels of one shade of gray. -/
  | shade (v : UInt8)
  /-- Pixels of one colour. -/
  | color (r g b : UInt8)
  /-- The entries of the palette, each as far as its byte says. -/
  | entries (alphas : Bytes)
deriving DecidableEq, Repr

/-- What the chunks before the pixels say. -/
structure Preamble where
  palette : Option Bytes := none
  transparency : Option Transparency := none
  /-- Whether it is said what the colours mean. -/
  hasCodePoints : Bool := false
  /-- How many frames of an animation were begun. -/
  frames : Nat := 0
deriving DecidableEq, Repr

/-- Takes the palette, which has three bytes an entry; there is one palette only.  Where the
pixels need it, its last entry must be whole. -/
def Preamble.takePalette (p : Preamble) (color : ColorType) (data : Bytes) : Option Preamble :=
  if p.palette.isSome ∨ (color = .indexed ∧ data.length % 3 ≠ 0) then none
  else some { p with palette := some data }

/-- What a chunk of transparency says of pixels of a kind; samples come as two bytes, of which
the second counts. -/
def readTransparency (color : ColorType) (hasPalette : Bool) (data : Bytes) :
    Option Transparency :=
  match color, data with
  | .gray, _ :: v :: _ => some (.shade v)
  | .rgb, _ :: r :: _ :: g :: _ :: b :: _ => some (.color r g b)
  | .indexed, _ => if hasPalette then some (.entries data) else none
  | _, _ => none

/-- Takes a chunk of transparency, if it is the first that makes sense. -/
def Preamble.takeTransparency (p : Preamble) (color : ColorType) (data : Bytes) : Preamble :=
  { p with transparency := p.transparency <|> readTransparency color p.palette.isSome data }

/-- Takes the colour behind the picture, which must have a palette when its pixels need one. -/
def Preamble.takeBackground (p : Preamble) (color : ColorType) : Option Preamble :=
  if color = .indexed ∧ p.palette = none then none else some p

/-- Takes what the colours mean, if that is said for the first time and before the palette.  They
must be red, green and blue, and whether their range is full is told by 0 or 1. -/
def Preamble.takeCodePoints (p : Preamble) (data : Bytes) : Option Preamble :=
  if p.hasCodePoints ∨ p.palette.isSome then some p
  else
    match data with
    | [_, _, matrix, range] =>
      if matrix ≠ 0 ∨ 1 < range then none else some { p with hasCodePoints := true }
    | _ => some p

/-- Takes the beginning of a frame.  Before the pixels the frame is the picture itself; frames are
numbered from 0 on, ways to clear a frame up to 2, and ways to draw it up to 1. -/
def Preamble.takeFrame (p : Preamble) (header : Header) (data : Bytes) : Option Preamble :=
  let field (i : Nat) : Nat := numberOf ((data.drop (4 * i)).take 4)
  match data.drop 24 with
  | clear :: draw :: _ =>
    if field 0 ≠ p.frames ∨ field 1 ≠ header.width ∨ field 2 ≠ header.height ∨
        field 3 ≠ 0 ∨ field 4 ≠ 0 ∨ 2 < clear ∨ 1 < draw then none
    else some { p with frames := p.frames + 1 }
  | _ => none

/-- Takes a chunk.  One that the picture cannot be read without has to be known, and right in
length and checksum; another one counts only when it is.  The beginning of a frame has to be right
in length. -/
def Preamble.take (p : Preamble) (header : Header) (c : Chunk) : Option Preamble :=
  if isCritical c.type then
    if c.fits ∧ c.sound ∧ c.type = typePalette then p.takePalette header.color c.data else none
  else if !c.fits then if c.type = typeFrame then none else some p
  else if !c.sound then some p
  else if c.type = typeTransparency then some (p.takeTransparency header.color c.data)
  else if c.type = typeBackground then p.takeBackground header.color
  else if c.type = typeCodePoints then p.takeCodePoints c.data
  else if c.type = typeFrame then p.takeFrame header c.data
  else some p

/-- Reads chunks up to the first with pixels.  Pixels that belong to a frame of an animation only
do not come before those of the picture.  The fuel is the number of bytes. -/
def readPreamble (header : Header) : (fuel : Nat) → Preamble → Bytes → Option (Preamble × Bytes)
  | 0, _, _ => none
  | fuel + 1, p, s => do
    let type ← frontType? s
    if type = typeData then return (p, s)
    else if type = typeFrameData then none
    else
      let (c, rest) ← readChunk s
      readPreamble header fuel (← p.take header c) rest

/-! ## Reading the pixels -/

/-- Reads the chunks of pixels up to the first chunk of another type, of which only the length
and the type are looked at.  The pieces so far are given last first.  The fuel is the number of
bytes. -/
def readPieces : (fuel : Nat) → (pieces : List Bytes) → Bytes → Option (List Bytes)
  | 0, _, _ => none
  | fuel + 1, pieces, s => do
    if (← frontType? s) = typeData then
      let (c, rest) ← readChunk s
      if c.sound then readPieces fuel (c.data :: pieces) rest else none
    else return pieces.reverse

/-- The one of left, above and upper left that is nearest to left + above - upper left. -/
def paeth (a b c : Nat) : Nat :=
  let p : Int := (a : Int) + b - c
  let pa := (p - a).natAbs
  let pb := (p - b).natAbs
  let pc := (p - c).natAbs
  if pa ≤ pb ∧ pa ≤ pc then a else if pb ≤ pc then b else c

/-- What a filter adds to a byte, from the bytes to the left, above, and to the upper left. -/
def predict (filter : Nat) (a b c : UInt8) : UInt8 :=
  match filter with
  | 1 => a
  | 2 => b
  | 3 => UInt8.ofNat ((a.toNat + b.toNat) / 2)
  | 4 => UInt8.ofNat (paeth a.toNat b.toNat c.toNat)
  | _ => 0

/-- Restores the last so many bytes of a row, of which `raw` has the next at a position, after the
bytes restored so far.  A pixel has `pixel` bytes and a row `stride`. -/
def unfilterRow (filter pixel stride : Nat) (raw : ByteArray) :
    (count position : Nat) → ByteArray → ByteArray
  | 0, _, out => out
  | count + 1, position, out =>
    let isFirst := stride < count + 1 + pixel
    let left := if isFirst then 0 else byteAt out (out.size - pixel)
    let above := if out.size < stride then 0 else byteAt out (out.size - stride)
    let upperLeft :=
      if isFirst || out.size < stride then 0 else byteAt out (out.size - stride - pixel)
    unfilterRow filter pixel stride raw count (position + 1)
      (out.push (byteAt raw position + predict filter left above upperLeft))

/-- Restores the last so many rows, of which `raw` has the next at a position: a byte that names a
filter and the bytes of the row. -/
def unfilter (pixel stride : Nat) (raw : ByteArray) :
    (rows position : Nat) → ByteArray → Option ByteArray
  | 0, _, out => some out
  | rows + 1, position, out =>
    let filter := byteAt raw position
    if 4 < filter then none
    else
      unfilter pixel stride raw rows (position + 1 + stride)
        (unfilterRow filter.toNat pixel stride raw stride (position + 1) out)

/-! ## Colours -/

/-- Adds a pixel. -/
def pushPixel (out : ByteArray) (r g b a : UInt8) : ByteArray :=
  (((out.push r).push g).push b).push a

/-- The most entries of a palette. -/
def longestPalette : Nat := 256

/-- What of the transparency holds: more entries than the palette has count as none. -/
def Preamble.transparency? (p : Preamble) : Option Transparency :=
  match p.transparency with
  | some (.entries alphas) =>
    if (p.palette.getD []).length < 3 * alphas.length then none else some (.entries alphas)
  | t => t

/-- The entries of the palette, four bytes each; entries beyond it are black. -/
def Preamble.entries (p : Preamble) : ByteArray :=
  let colors := (p.palette.getD []).toByteArray
  let alphas :=
    match p.transparency? with
    | some (.entries alphas) => alphas.toByteArray
    | _ => .empty
  longestPalette.fold (fun i _ out =>
    pushPixel out (byteAt colors (3 * i)) (byteAt colors (3 * i + 1)) (byteAt colors (3 * i + 2))
      (if i < alphas.size then byteAt alphas i else 255)) .empty

/-- Adds the pixel at a position of the restored rows. -/
def addPixel (color : ColorType) (transparency : Option Transparency) (entries rows : ByteArray)
    (i : Nat) (out : ByteArray) : ByteArray :=
  let x := byteAt rows i
  match color with
  | .gray => pushPixel out x x x (if transparency = some (.shade x) then 0 else 255)
  | .indexed =>
    let e := 4 * x.toNat
    pushPixel out (byteAt entries e) (byteAt entries (e + 1)) (byteAt entries (e + 2))
      (byteAt entries (e + 3))
  | .grayAlpha => pushPixel out x x x (byteAt rows (i + 1))
  | .rgb =>
    let y := byteAt rows (i + 1)
    let z := byteAt rows (i + 2)
    pushPixel out x y z (if transparency = some (.color x y z) then 0 else 255)
  | .rgba =>
    pushPixel out x (byteAt rows (i + 1)) (byteAt rows (i + 2)) (byteAt rows (i + 3))

/-- The pixels of restored rows as red, green, blue and alpha. -/
def toRgba (header : Header) (p : Preamble) (rows : ByteArray) : ByteArray :=
  let transparency := p.transparency?
  let entries := p.entries
  let size := header.color.bytes
  (header.width * header.height).fold
    (fun i _ out => addPixel header.color transparency entries rows (size * i) out) .empty

/-! ## Reading a file -/

/-- The most bytes that the pixels of a picture may take. -/
def largestPicture : Nat := 512 * 1024 * 1024

/-- The bytes that the pixels take: alpha comes to them with the transparency. -/
def pictureSize (header : Header) (p : Preamble) : Nat :=
  let pixel :=
    match header.color with
    | .gray => if p.transparency = none then 1 else 2
    | .rgb | .indexed => if p.transparency = none then 3 else 4
    | color => color.bytes
  header.width * header.height * pixel

/-- Reads a file. -/
def decode (file : Bytes) : Option Image := do
  if signature.isPrefixOf file = false then none
  else
    let (first, rest) ← readChunk (file.drop signature.length)
    let header ← readHeader first
    let (preamble, rest) ← readPreamble header (rest.length + 1) {} rest
    if (header.color = .indexed ∧ preamble.palette = none) ∨
        largestPicture < pictureSize header preamble then none
    else
      let pieces ← readPieces (rest.length + 1) [] rest
      let pixel := header.color.bytes
      let stride := pixel * header.width
      let raw ← Inflate.inflate (header.height * (1 + stride)) pieces
      let rows ← unfilter pixel stride raw header.height 0 .empty
      return {
        width := header.width
        height := header.height
        rgba := toRgba header preamble rows }

/-! ## Writing -/

/-- A chunk with its checksum. -/
def writeChunk (type data : Bytes) : Bytes :=
  bytesOf data.length ++ type ++ data ++ bytesOf (checksum (type ++ data)).toNat

/-- The checksum of a compressed stream: Adler-32. -/
def streamChecksum (b : Bytes) : Nat :=
  let (x, y) := b.foldl (fun (x, y) n =>
    let x := (x + n.toNat) % 65521
    (x, (y + x) % 65521)) (1, 0)
  65536 * y + x

/-- The longest stored block. -/
def longestBlock : Nat := 65535

/-- Bytes as stored blocks, at most so many. -/
def writeBlocks : (fuel : Nat) → Bytes → Bytes
  | 0, _ => []
  | fuel + 1, b =>
    let block := b.take longestBlock
    let rest := b.drop longestBlock
    let n := block.length
    [if rest = [] then 1 else 0, UInt8.ofNat n, UInt8.ofNat (n / 256),
      UInt8.ofNat (65535 - n), UInt8.ofNat ((65535 - n) / 256)] ++ block ++
      (if rest = [] then [] else writeBlocks fuel rest)

/-- A stream that holds bytes as they are. -/
def store (b : Bytes) : Bytes :=
  [0x78, 0x01] ++ writeBlocks (b.length + 1) b ++ bytesOf (streamChecksum b)

/-- The rows of a picture, each after the byte of no filter. -/
def rowsOf (stride : Nat) : (rows : Nat) → Bytes → Bytes
  | 0, _ => []
  | rows + 1, b => 0 :: b.take stride ++ rowsOf stride rows (b.drop stride)

/-- Writes a picture. -/
def encode (image : Image) : Bytes :=
  signature ++
    writeChunk typeHeader (bytesOf image.width ++ bytesOf image.height ++ [8, 6, 0, 0, 0]) ++
    writeChunk typeData (store (rowsOf (4 * image.width) image.height image.rgba.data.toList)) ++
    writeChunk typeEnd []

end PicBoard.Png
