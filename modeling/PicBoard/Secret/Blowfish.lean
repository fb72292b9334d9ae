import PicBoard.Secret.PiFraction
import PicBoard.Text.Utf8

/-!
# Blowfish with an expensive key schedule

A cipher on pairs of 32-bit words.  Its tables start from the fraction of pi and are then
replaced, pair by pair, by what they themselves encipher.
-/

namespace PicBoard.Blowfish

/-- The tables: 18 subkeys and four boxes of 256 words in a row. -/
structure Tables where
  subkeys : Array UInt32
  boxes : Array UInt32

/-- The tables before any key. -/
def initial : Tables :=
  let words := (PiFraction.words 1042).toArray
  { subkeys := words.extract 0 18, boxes := words.extract 18 1042 }

/-- The function of one half that is mixed into the other. -/
def mix (boxes : Array UInt32) (x : UInt32) : UInt32 :=
  let a := boxes.getD (x >>> 24).toNat 0
  let b := boxes.getD (256 + ((x >>> 16) &&& 0xff).toNat) 0
  let c := boxes.getD (512 + ((x >>> 8) &&& 0xff).toNat) 0
  let d := boxes.getD (768 + (x &&& 0xff).toNat) 0
  ((a + b) ^^^ c) + d

/-- The rounds from number `i` on, so many of them, each of which swaps the halves. -/
def rounds (subkeys boxes : Array UInt32) : (count i : Nat) → UInt32 → UInt32 → UInt32 × UInt32
  | 0, _, l, r => (l, r)
  | count + 1, i, l, r =>
    let l := l ^^^ subkeys.getD i 0
    rounds subkeys boxes count (i + 1) (r ^^^ mix boxes l) l

/-- Enciphers a pair of words. -/
def encipher (subkeys boxes : Array UInt32) (l r : UInt32) : UInt32 × UInt32 :=
  let (l, r) := rounds subkeys boxes 16 0 l r
  (r ^^^ subkeys.getD 17 0, l ^^^ subkeys.getD 16 0)

/-- The salt's words for pair number `i`; there are four, which come round again. -/
def saltPair (salt : Array UInt32) (i : Nat) : UInt32 × UInt32 :=
  (salt.getD (2 * i % 4) 0, salt.getD ((2 * i + 1) % 4) 0)

/-- Replaces the subkeys from pair number `i` on. -/
def refillSubkeys (salt boxes : Array UInt32) :
    (count i : Nat) → Array UInt32 → UInt32 → UInt32 → Array UInt32 × UInt32 × UInt32
  | 0, _, subkeys, l, r => (subkeys, l, r)
  | count + 1, i, subkeys, l, r =>
    let (x, y) := saltPair salt i
    let (l, r) := encipher subkeys boxes (l ^^^ x) (r ^^^ y)
    refillSubkeys salt boxes count (i + 1)
      ((subkeys.setIfInBounds (2 * i) l).setIfInBounds (2 * i + 1) r) l r

/-- Replaces the boxes from pair number `i` on, after the nine pairs of subkeys. -/
def refillBoxes (salt subkeys : Array UInt32) :
    (count i : Nat) → Array UInt32 → UInt32 → UInt32 → Array UInt32
  | 0, _, boxes, _, _ => boxes
  | count + 1, i, boxes, l, r =>
    let (x, y) := saltPair salt (9 + i)
    let (l, r) := encipher subkeys boxes (l ^^^ x) (r ^^^ y)
    refillBoxes salt subkeys count (i + 1)
      ((boxes.setIfInBounds (2 * i) l).setIfInBounds (2 * i + 1) r) l r

/-- Takes in a key of 18 words and a salt of four. -/
def expand (t : Tables) (salt key : Array UInt32) : Tables :=
  let keyed := t.subkeys.mapIdx fun i w => w ^^^ key.getD i 0
  let (subkeys, l, r) := refillSubkeys salt t.boxes 9 0 keyed 0 0
  { subkeys, boxes := refillBoxes salt subkeys 512 0 t.boxes l r }

/-- The big-endian value of four bytes. -/
def wordOf (a b c d : UInt8) : UInt32 :=
  ((a.toUInt32 * 256 + b.toUInt32) * 256 + c.toUInt32) * 256 + d.toUInt32

/-- The first `count` words of a byte string that comes round again. -/
def cyclicWords (count : Nat) (b : Bytes) : Array UInt32 :=
  let bytes := b.toArray
  let byteAt (i : Nat) : UInt8 := bytes.getD (i % bytes.size) 0
  (Array.range count).map fun i =>
    wordOf (byteAt (4 * i)) (byteAt (4 * i + 1)) (byteAt (4 * i + 2)) (byteAt (4 * i + 3))

/-- Takes in the key and the salt in turn, so many times. -/
def strengthen (key salt noSalt : Array UInt32) : (count : Nat) → Tables → Tables
  | 0, t => t
  | count + 1, t => strengthen key salt noSalt count (expand (expand t noSalt key) noSalt salt)

/-- The tables of a salt and a key, after 2^cost turns. -/
def schedule (cost : Nat) (salt key : Bytes) : Tables :=
  let keyWords := cyclicWords 18 key
  let noSalt := Array.replicate 4 0
  strengthen keyWords (cyclicWords 18 salt) noSalt (Nat.pow 2 cost)
    (expand initial (cyclicWords 4 salt) keyWords)

/-- Enciphers a pair of words so many times. -/
def encipherTimes (t : Tables) : (count : Nat) → UInt32 → UInt32 → UInt32 × UInt32
  | 0, l, r => (l, r)
  | count + 1, l, r =>
    let (l, r) := encipher t.subkeys t.boxes l r
    encipherTimes t count l r

end PicBoard.Blowfish
