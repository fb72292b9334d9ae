import PicBoard.Text.Utf8

/-!
# Glyph numbers

A 64-bit number is written as one glyph that announces a length and that many glyphs more.  The
texts of one length stand for consecutive numbers, shorter texts before longer ones, so the texts
of any two numbers compare as the numbers do (read without sign), and a text can be told from
what follows it.

The alphabet has 32 glyphs.  A reader takes `o` for `0` and `i`, `l` for `1`, in either case.
-/

namespace PicBoard.GlyphNumber

/-! ## Glyphs -/

/-- The alphabet, in ascending order of value and of byte. -/
def alphabet : Bytes := Bytes.ofText "0123456789abcdefghjkmnpqrstvwxyz"

/-- The glyph of a value below 32. -/
def glyph (v : Nat) : UInt8 := alphabet.getD v 0

/-- A look-alike is read as the digit it looks like. -/
def fold (b : UInt8) : UInt8 :=
  if b = 79 ∨ b = 111 then 48
  else if b = 73 ∨ b = 105 ∨ b = 76 ∨ b = 108 then 49
  else b

/-- The value of a glyph or of a look-alike. -/
def value? (b : UInt8) : Option Nat :=
  alphabet.idxOf? (fold b)

/-- The most glyphs that follow the first. -/
def maxBody : Nat := 13

/-- The first glyph of a text that has `len` glyphs more. -/
def lengthGlyph (len : Nat) : UInt8 := glyph (16 + len)

/-- The length that a first glyph announces. -/
def length? (b : UInt8) : Option Nat :=
  match value? b with
  | some v => if 16 ≤ v ∧ v - 16 ≤ maxBody then some (v - 16) else none
  | none => none

/-! ## Writing -/

/-- The least number whose text has `len` glyphs after the first. -/
def firstOfLength : (len : Nat) → Nat
  | 0 => 0
  | len + 1 => firstOfLength len + Nat.pow 32 len

/-- How many glyphs follow the first in the text of `n`. -/
def bodyLength (n : Nat) : Nat :=
  (List.range maxBody).countP fun len => firstOfLength (len + 1) ≤ n

/-- The `len` low digits of a number in base 32, most significant first. -/
def body : (len : Nat) → Nat → Bytes
  | 0, _ => []
  | len + 1, n => glyph (n / Nat.pow 32 len % 32) :: body len n

/-- The text of a number below 2^64. -/
def encodeNat (n : Nat) : Bytes :=
  let len := bodyLength n
  lengthGlyph len :: body len (n - firstOfLength len)

/-- The text of a number, whose sign bit counts as 2^63. -/
def encode (n : Int64) : Bytes := encodeNat n.toUInt64.toNat

/-- The text of a number as characters. -/
def text (n : Int64) : String := (encode n).toLatin1

/-! ## Reading -/

/-- Why bytes are no text of a number. -/
inductive Error where
  | noInput
  | invalidLength
  | truncated
  | invalidSymbol
  | overflow
  | excessInput
deriving DecidableEq, Repr

/-- The wording of a refusal. -/
def Error.message : Error → String
  | .noInput => "varint: no input"
  | .invalidLength => "varint: invalid length"
  | .invalidSymbol => "varint: invalid symbol"
  | .truncated => "varint: eof"
  | .overflow => "varint: overflow"
  | .excessInput => "varint: excess input"

/-- The number that glyph values denote in base 32. -/
def ofValues (values : List Nat) : Nat :=
  values.foldl (fun n v => 32 * n + v) 0

/-- Reads the number at the front of `s`, with how many bytes it takes. -/
def decode (s : Bytes) : Except Error (Int64 × Nat) :=
  match s with
  | [] => .error .noInput
  | first :: rest =>
    match length? first with
    | none => .error .invalidLength
    | some len =>
      if rest.length < len then .error .truncated
      else
        match (rest.take len).mapM value? with
        | none => .error .invalidSymbol
        | some values =>
          let n := ofValues values + firstOfLength len
          if n < UInt64.size then .ok ((UInt64.ofNat n).toInt64, len + 1) else .error .overflow

/-- Reads a number that takes all of `s`. -/
def decodeAll (s : Bytes) : Except Error Int64 :=
  match decode s with
  | .error e => .error e
  | .ok (n, used) => if used = s.length then .ok n else .error .excessInput

/-- Reads a number that takes all of a text. -/
def ofText (s : String) : Except Error Int64 := decodeAll (Bytes.ofText s)

end PicBoard.GlyphNumber
