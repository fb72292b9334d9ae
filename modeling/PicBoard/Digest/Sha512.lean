import PicBoard.Text.Utf8

/-!
# SHA-512/256

The secure hash of FIPS 180-4 with 64-bit words, cut to 256 bits and started from its own values.
-/

namespace PicBoard.Sha512

/-- The eight words that are carried from block to block. -/
structure State where
  a : UInt64
  b : UInt64
  c : UInt64
  d : UInt64
  e : UInt64
  f : UInt64
  g : UInt64
  h : UInt64
deriving DecidableEq, Repr

/-- The words before the first block. -/
def initial : State where
    a := 0x22312194fc2bf72c
    b := 0x9f555fa3c84c64c2
    c := 0x2393b86b6f53b151
    d := 0x963877195940eabd
    e := 0x96283ee2a88effe3
    f := 0xbe5e1e2553863992
    g := 0x2b0199fc2c85b8aa
    h := 0x0eb72ddc81c52ca2

/-- The round constants: the first 64 fraction bits of the cube roots of the first 80 primes. -/
def roundConstants : List UInt64 :=
  [0x428a2f98d728ae22, 0x7137449123ef65cd, 0xb5c0fbcfec4d3b2f, 0xe9b5dba58189dbbc,
   0x3956c25bf348b538, 0x59f111f1b605d019, 0x923f82a4af194f9b, 0xab1c5ed5da6d8118,
   0xd807aa98a3030242, 0x12835b0145706fbe, 0x243185be4ee4b28c, 0x550c7dc3d5ffb4e2,
   0x72be5d74f27b896f, 0x80deb1fe3b1696b1, 0x9bdc06a725c71235, 0xc19bf174cf692694,
   0xe49b69c19ef14ad2, 0xefbe4786384f25e3, 0x0fc19dc68b8cd5b5, 0x240ca1cc77ac9c65,
   0x2de92c6f592b0275, 0x4a7484aa6ea6e483, 0x5cb0a9dcbd41fbd4, 0x76f988da831153b5,
   0x983e5152ee66dfab, 0xa831c66d2db43210, 0xb00327c898fb213f, 0xbf597fc7beef0ee4,
   0xc6e00bf33da88fc2, 0xd5a79147930aa725, 0x06ca6351e003826f, 0x142929670a0e6e70,
   0x27b70a8546d22ffc, 0x2e1b21385c26c926, 0x4d2c6dfc5ac42aed, 0x53380d139d95b3df,
   0x650a73548baf63de, 0x766a0abb3c77b2a8, 0x81c2c92e47edaee6, 0x92722c851482353b,
   0xa2bfe8a14cf10364, 0xa81a664bbc423001, 0xc24b8b70d0f89791, 0xc76c51a30654be30,
   0xd192e819d6ef5218, 0xd69906245565a910, 0xf40e35855771202a, 0x106aa07032bbd1b8,
   0x19a4c116b8d2d0c8, 0x1e376c085141ab53, 0x2748774cdf8eeb99, 0x34b0bcb5e19b48a8,
   0x391c0cb3c5c95a63, 0x4ed8aa4ae3418acb, 0x5b9cca4f7763e373, 0x682e6ff3d6b2b8a3,
   0x748f82ee5defb2fc, 0x78a5636f43172f60, 0x84c87814a1f0ab72, 0x8cc702081a6439ec,
   0x90befffa23631e28, 0xa4506cebde82bde9, 0xbef9a3f7b2c67915, 0xc67178f2e372532b,
   0xca273eceea26619c, 0xd186b8c721c0c207, 0xeada7dd6cde0eb1e, 0xf57d4f7fee6ed178,
   0x06f067aa72176fba, 0x0a637dc5a2c898a6, 0x113f9804bef90dae, 0x1b710b35131c471b,
   0x28db77f523047d84, 0x32caab7b40c72493, 0x3c9ebe0a15c9bebc, 0x431d67c49c100d4c,
   0x4cc5d4becb3e42b6, 0x597f299cfc657e2a, 0x5fcb6fab3ad6faec, 0x6c44198c4a475817]

/-- Rotation to the right. -/
def rotr (x : UInt64) (n : UInt64) : UInt64 := (x >>> n) ||| (x <<< (64 - n))

/-- Sixteen words of the schedule give the next. -/
def nextWord (w : List UInt64) : UInt64 :=
  let w1 := w.getD 1 0
  let w14 := w.getD 14 0
  let s0 := rotr w1 1 ^^^ rotr w1 8 ^^^ (w1 >>> 7)
  let s1 := rotr w14 19 ^^^ rotr w14 61 ^^^ (w14 >>> 6)
  w.getD 0 0 + s0 + w.getD 9 0 + s1

/-- The schedule from a window of sixteen words on, so many words long. -/
def schedule : (count : Nat) → List UInt64 → List UInt64
  | 0, _ => []
  | count + 1, w => w.getD 0 0 :: schedule count (w.drop 1 ++ [nextWord w])

/-- One round, with its constant and its word of the schedule. -/
def round (s : State) (k w : UInt64) : State :=
  let s1 := rotr s.e 14 ^^^ rotr s.e 18 ^^^ rotr s.e 41
  let choice := (s.e &&& s.f) ^^^ (~~~s.e &&& s.g)
  let t1 := s.h + s1 + choice + k + w
  let s0 := rotr s.a 28 ^^^ rotr s.a 34 ^^^ rotr s.a 39
  let majority := (s.a &&& s.b) ^^^ (s.a &&& s.c) ^^^ (s.b &&& s.c)
  { a := t1 + (s0 + majority), b := s.a, c := s.b, d := s.c,
    e := s.d + t1, f := s.e, g := s.f, h := s.g }

/-- The big-endian value of a byte string. -/
def wordOf (b : Bytes) : UInt64 :=
  b.foldl (fun n x => n * 256 + x.toUInt64) 0

/-- The words of a byte string, eight bytes each, so many of them. -/
def wordsOf : (count : Nat) → Bytes → List UInt64
  | 0, _ => []
  | count + 1, b => wordOf (b.take 8) :: wordsOf count (b.drop 8)

/-- Takes in one block of 128 bytes. -/
def compress (s : State) (block : Bytes) : State :=
  let words := schedule 80 (wordsOf 16 block)
  let t := (roundConstants.zip words).foldl (fun t (k, w) => round t k w) s
  { a := s.a + t.a, b := s.b + t.b, c := s.c + t.c, d := s.d + t.d,
    e := s.e + t.e, f := s.f + t.f, g := s.g + t.g, h := s.h + t.h }

/-- The big-endian bytes of a word. -/
def bytesOf (w : UInt64) : Bytes :=
  [(w >>> 56).toUInt8, (w >>> 48).toUInt8, (w >>> 40).toUInt8, (w >>> 32).toUInt8,
    (w >>> 24).toUInt8, (w >>> 16).toUInt8, (w >>> 8).toUInt8, w.toUInt8]

/-- The message with a one bit, zeros, and its length in bits, up to a whole number of blocks. -/
def pad (message : Bytes) : Bytes :=
  let zeros := (239 - message.length % 128) % 128
  message ++ 0x80 :: List.replicate zeros 0 ++ List.replicate 8 0 ++
    bytesOf (UInt64.ofNat (8 * message.length))

/-- Takes in so many blocks. -/
def absorb : (blocks : Nat) → State → Bytes → State
  | 0, s, _ => s
  | blocks + 1, s, b => absorb blocks (compress s (b.take 128)) (b.drop 128)

/-- The length of a hash in bytes. -/
def hashLength : Nat := 32

/-- The SHA-512/256 hash of a message. -/
def hash256 (message : Bytes) : Bytes :=
  let padded := pad message
  let s := absorb (padded.length / 128) initial padded
  bytesOf s.a ++ bytesOf s.b ++ bytesOf s.c ++ bytesOf s.d

/-- Every hash has its length. -/
@[simp] theorem hash256_length (message : Bytes) : (hash256 message).length = hashLength := rfl

end PicBoard.Sha512
