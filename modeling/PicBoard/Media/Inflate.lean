import PicBoard.Media.PrefixCode

/-!
# Inflating

The DEFLATE format: blocks that are stored, or written in prefix codes that are fixed or come with
the block.  A symbol is a byte, the end of the block, or a length that copies bytes from a
distance back.

A stream comes in pieces, and only as many bytes of it are made as are wanted.  Then no symbol is
read any more but the end of a block, and what the next block begins with, as far as the piece
goes; so a fault there counts and one in a later piece does not.  The checksum at the end of a
stream is not looked at.
-/

namespace PicBoard.Inflate

/-- The byte at a position; zero where there is none. -/
def byteAt (b : ByteArray) (i : Nat) : UInt8 := if h : i < b.size then b[i] else 0

/-! ## Lengths and distances -/

/-- The least length and the number of further bits of each length symbol, from 257 on. -/
def lengthTable : List (Nat × Nat) :=
  [(3, 0), (4, 0), (5, 0), (6, 0), (7, 0), (8, 0), (9, 0), (10, 0), (11, 1), (13, 1), (15, 1),
    (17, 1), (19, 2), (23, 2), (27, 2), (31, 2), (35, 3), (43, 3), (51, 3), (59, 3), (67, 4),
    (83, 4), (99, 4), (115, 4), (131, 5), (163, 5), (195, 5), (227, 5), (258, 0)]

/-- The least distance and the number of further bits of each distance symbol. -/
def distanceTable : List (Nat × Nat) :=
  [(1, 0), (2, 0), (3, 0), (4, 0), (5, 1), (7, 1), (9, 2), (13, 2), (17, 3), (25, 3), (33, 4),
    (49, 4), (65, 5), (97, 5), (129, 6), (193, 6), (257, 7), (385, 7), (513, 8), (769, 8),
    (1025, 9), (1537, 9), (2049, 10), (3073, 10), (4097, 11), (6145, 11), (8193, 12), (12289, 12),
    (16385, 13), (24577, 13)]

/-- Reads the value that a symbol and the bits after it stand for. -/
def readExtra (table : List (Nat × Nat)) (symbol : Nat) (s : BitSource) :
    Except Halt (Nat × BitSource) :=
  match table[symbol]? with
  | none => .error .corrupt
  | some (least, extra) => do
    let (n, s) ← s.number extra
    return (least + n, s)

/-- Copies so many bytes, one by one, from a distance back. -/
def copyBack (distance : Nat) : (count : Nat) → ByteArray → ByteArray
  | 0, out => out
  | count + 1, out => copyBack distance count (out.push (byteAt out (out.size - distance)))

/-! ## Codes -/

/-- The codes of a block. -/
structure Codes where
  literal : PrefixCode
  distance : PrefixCode

/-- The symbol that ends a block. -/
def endSymbol : Nat := 256

/-- The last symbol that stands for a length. -/
def lastLength : Nat := 285

/-- The codes of a block without codes of its own. -/
def fixedCodes : Codes where
  literal :=
    (PrefixCode.ofLengths? <| List.replicate 144 8 ++ List.replicate 112 9 ++
      List.replicate 24 7 ++ List.replicate 8 8).getD .empty
  distance := (PrefixCode.ofLengths? (List.replicate 30 5)).getD .empty

/-- The codes that come with a block, from the lengths of their words.  Every block has an end. -/
def Codes.ofLengths? (literals distances : List Nat) : Option Codes := do
  guard (literals.getD endSymbol 0 ≠ 0)
  return {
    literal := ← PrefixCode.complete? literals
    distance := ← PrefixCode.sparse? distances }

/-- The order in which the lengths of the length code are written. -/
def lengthOrder : List Nat :=
  [16, 17, 18, 0, 8, 7, 9, 6, 10, 5, 11, 4, 12, 3, 13, 2, 14, 1, 15]

/-- Reads so many numbers of three bits. -/
def readTriples : (count : Nat) → BitSource → Except Halt (List Nat × BitSource)
  | 0, s => .ok ([], s)
  | count + 1, s => do
    let (n, s) ← s.number 3
    let (rest, s) ← readTriples count s
    return (n :: rest, s)

/-- The code in which code lengths are written, from the lengths of its words as written. -/
def lengthCode? (triples : List Nat) : Option PrefixCode :=
  let given := lengthOrder.zip triples
  PrefixCode.complete? <| (List.range 19).map fun i => (given.lookup i).getD 0

/-! ## What is read next -/

/-- Where in a stream the reader is. -/
inductive Phase where
  /-- Before the two bytes that a stream begins with. -/
  | start
  /-- Before a block. -/
  | block
  /-- Before so many bytes that are stored as they are. -/
  | stored (isLast : Bool) (left : Nat)
  /-- Before the code in which code lengths are written, which has so many lengths itself. -/
  | lengthCode (isLast : Bool) (literals distances count : Nat)
  /-- Amid the lengths of the code words of a block, after some that were read. -/
  | lengths (isLast : Bool) (literals distances : Nat) (code : PrefixCode) (seen : Array Nat)
  /-- Amid the symbols of a block. -/
  | symbols (isLast : Bool) (codes : Codes)
  /-- Amid what a symbol stands for, of which only a part is wanted. -/
  | surplus
  /-- After the last block. -/
  | finished

/-- What follows a block. -/
def Phase.afterBlock (isLast : Bool) : Phase := if isLast then .finished else .block

/-- What a step of reading makes. -/
inductive Product where
  | nothing
  | byte (b : UInt8)
  | pair (first second : UInt8)
  | copy (distance length : Nat)

/-- How many bytes a step makes. -/
def Product.length : Product → Nat
  | .nothing => 0
  | .byte _ => 1
  | .pair _ _ => 2
  | .copy _ length => length

/-- A step of reading: what it makes, where it leads, and what is left. -/
structure Step where
  product : Product := .nothing
  phase : Phase
  source : BitSource

/-- Reads what a stream begins with. -/
def readStart (s : BitSource) : Except Halt Step := do
  let (method, s) ← s.number 8
  let (flags, s) ← s.number 8
  if method % 16 ≠ 8 ∨ 7 < method / 16 ∨ flags / 32 % 2 = 1 ∨ (256 * method + flags) % 31 ≠ 0 then
    .error .corrupt
  else return { phase := .block, source := s }

/-- Reads what a stored block begins with: how many bytes it has, and the complement of that. -/
def readStoredHead (isLast : Bool) (s : BitSource) : Except Halt Step := do
  let (length, s) ← s.aligned.number 16
  let (complement, s) ← s.number 16
  if length + complement ≠ 65535 then .error .corrupt
  else return { phase := .stored isLast length, source := s }

/-- Begins a block with fixed codes; one that has no symbols is ended at once. -/
def readFixedHead (isLast : Bool) (s : BitSource) : Except Halt Step := do
  let (n, rest) ← s.number 7
  if n = 0 then return { phase := .afterBlock isLast, source := rest }
  else return { phase := .symbols isLast fixedCodes, source := s }

/-- Reads what a block with codes of its own begins with: how many lengths of code words. -/
def readCodesHead (isLast : Bool) (s : BitSource) : Except Halt Step := do
  let (literals, s) ← s.number 5
  let (distances, s) ← s.number 5
  let (count, s) ← s.number 4
  if 29 < literals ∨ 29 < distances then .error .corrupt
  else
    return { phase := .lengthCode isLast (literals + 257) (distances + 1) (count + 4), source := s }

/-- The fewest bits that a block is begun with. -/
def leastBlock : Nat := 10

/-- Reads what a block begins with. -/
def readBlock (s : BitSource) : Except Halt Step := do
  if s.has leastBlock then
    let (last, s) ← s.number 1
    let (kind, s) ← s.number 2
    let isLast := last == 1
    match kind with
    | 0 => readStoredHead isLast s
    | 1 => readFixedHead isLast s
    | 2 => readCodesHead isLast s
    | _ => .error .corrupt
  else .error .stalled

/-- The bits that have to be there when a length is read. -/
def lengthBits : Nat := 7

/-- What a symbol of the length code adds to the lengths read so far. -/
def readRepeat (seen : Array Nat) (symbol : Nat) (s : BitSource) :
    Except Halt (List Nat × BitSource) := do
  if symbol < 16 then return ([symbol], s)
  else if symbol = 16 then
    let (n, s) ← s.number 2
    match seen.back? with
    | none => .error .corrupt
    | some last => return (List.replicate (n + 3) last, s)
  else
    let (n, s) ← s.number (if symbol = 17 then 3 else 7)
    return (List.replicate (n + if symbol = 17 then 3 else 11) 0, s)

/-- Reads one more length, or makes the codes when all are there. -/
def readLength (isLast : Bool) (literals distances : Nat) (code : PrefixCode) (seen : Array Nat)
    (s : BitSource) : Except Halt Step := do
  if seen.size = literals + distances then
    match Codes.ofLengths? (seen.toList.take literals) (seen.toList.drop literals) with
    | none => .error .corrupt
    | some codes => return { phase := .symbols isLast codes, source := s }
  else if s.has lengthBits then
    let (symbol, _, s) ← code.read 0 s
    let (more, s) ← readRepeat seen symbol s
    let seen := seen.appendList more
    if literals + distances < seen.size then .error .corrupt
    else return { phase := .lengths isLast literals distances code seen, source := s }
  else .error .stalled

/-- The most bits of two words that are looked up as one. -/
def pairBits : Nat := 12

/-- Reads the second literal of a pair, after a first that took so many bits.  A short word is
looked up together with the one after it, and counts alone unless that is a literal of more than
one bit; what is not there yet counts as zero bits, but a pair is taken as a whole. -/
def readSecond (literal : PrefixCode) (used : Nat) (s : BitSource) :
    Except Halt (Option (UInt8 × BitSource)) :=
  match literal.read 0 s.padded with
  | .error _ => .ok none
  | .ok (symbol, second, _) =>
    if symbol < endSymbol ∧ 1 < second ∧ used + second ≤ pairBits then do
      let (symbol, _, s) ← literal.read 0 s
      return some (UInt8.ofNat symbol, s)
    else .ok none

/-- The step that makes something amid the symbols of a block, after `size` of the wanted bytes. -/
def Step.ofProduct (isLast : Bool) (codes : Codes) (wanted size : Nat) (product : Product)
    (source : BitSource) : Step where
  product := product
  phase := if wanted < size + product.length then .surplus else .symbols isLast codes
  source := source

/-- Reads a symbol of a block, or two literals, after `size` of the wanted bytes.  The fixed code
has two words more than there are symbols; they end a block too. -/
def readSymbol (isLast : Bool) (codes : Codes) (wanted size : Nat) (s : BitSource) :
    Except Halt Step := do
  let step := Step.ofProduct isLast codes wanted size
  let (symbol, used, s) ← codes.literal.read 0 s
  if symbol < endSymbol then
    match ← readSecond codes.literal used s with
    | some (second, s) => return step (.pair (UInt8.ofNat symbol) second) s
    | none => return step (.byte (UInt8.ofNat symbol)) s
  else if symbol = endSymbol ∨ lastLength < symbol then
    return { phase := .afterBlock isLast, source := s }
  else
    let (length, s) ← readExtra lengthTable (symbol - 257) s
    let (symbol, _, s) ← codes.distance.read 0 s
    let (distance, s) ← readExtra distanceTable symbol s
    if size < distance then .error .corrupt
    else return step (.copy distance length) s

/-- The bits that have to be there when the end of a block is looked for. -/
def endBits : Nat := 15

/-- Reads the end of a block after all wanted bytes; any other symbol stays unread. -/
def readEnd (isLast : Bool) (codes : Codes) (s : BitSource) : Except Halt Step := do
  if s.has endBits then
    let (symbol, _, s) ← codes.literal.read 0 s
    if symbol = endSymbol then return { phase := .afterBlock isLast, source := s }
    else .error .stalled
  else .error .stalled

/-- Reads one step on, after so many of the wanted bytes. -/
def read (wanted size : Nat) (phase : Phase) (s : BitSource) : Except Halt Step :=
  match phase with
  | .start => readStart s
  | .block => readBlock s
  | .stored isLast 0 => .ok { phase := .afterBlock isLast, source := s }
  | .stored isLast (left + 1) =>
    match s.rest with
    | b :: rest =>
      if size < wanted then
        .ok { product := .byte b, phase := .stored isLast left, source := { s with rest } }
      else .error .stalled
    | [] => .error .stalled
  | .lengthCode isLast literals distances count => do
    let (triples, s) ← readTriples count s
    match lengthCode? triples with
    | none => .error .corrupt
    | some code => return { phase := .lengths isLast literals distances code #[], source := s }
  | .lengths isLast literals distances code seen =>
    readLength isLast literals distances code seen s
  | .symbols isLast codes =>
    if size < wanted then readSymbol isLast codes wanted size s else readEnd isLast codes s
  | .surplus => .error .stalled
  | .finished => .error .stalled

/-! ## Streams -/

/-- Adds what a step makes, as far as it is wanted. -/
def Product.addTo (wanted : Nat) (out : ByteArray) : Product → ByteArray
  | .nothing => out
  | .byte b => out.push b
  | .pair first second =>
    let out := out.push first
    if out.size < wanted then out.push second else out
  | .copy distance length => copyBack distance (min length (wanted - out.size)) out

/-- A stream that has been read in part. -/
structure Stream where
  phase : Phase := .start
  source : BitSource := {}
  output : ByteArray := .empty

namespace Stream

/-- Reads at most so many steps on, until the reading stalls. -/
def run (wanted : Nat) : (fuel : Nat) → Phase → BitSource → ByteArray → Option Stream
  | 0, phase, source, output => some { phase, source, output }
  | fuel + 1, phase, source, output =>
    match read wanted output.size phase source with
    | .ok step => run wanted fuel step.phase step.source (step.product.addTo wanted output)
    | .error .stalled => some { phase, source, output }
    | .error .corrupt => none

/-- Reads a piece that follows what was read.  Of two steps one takes a bit at least. -/
def feed (wanted : Nat) (s : Stream) (piece : Bytes) : Option Stream :=
  let source := s.source.append piece
  run wanted (2 * source.size + 2) s.phase source s.output

end Stream

/-- The wanted number of bytes of a stream that comes in pieces, after it was read in part. -/
def fill (wanted : Nat) (s : Stream) : (pieces : List Bytes) → Option ByteArray
  | [] => none
  | piece :: pieces =>
    match s.feed wanted piece with
    | none => none
    | some s => if wanted ≤ s.output.size then some s.output else fill wanted s pieces

/-- The wanted number of bytes, which the stream in these pieces begins with. -/
def inflate (wanted : Nat) (pieces : List Bytes) : Option ByteArray := fill wanted {} pieces

end PicBoard.Inflate
