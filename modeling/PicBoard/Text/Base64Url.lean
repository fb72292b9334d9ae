import PicBoard.Text.Decimal

/-!
# Base64url without padding

Three bytes are four symbols; one or two bytes at the end are two or three symbols, whose unused
low bits must be zero.  So each byte string has exactly one text.
-/

namespace PicBoard.Base64Url

/-- The symbol of a value below 64. -/
def symbol (n : Nat) : UInt8 :=
  if n < 26 then UInt8.ofNat (65 + n)
  else if n < 52 then UInt8.ofNat (71 + n)
  else if n < 62 then UInt8.ofNat (n - 4)
  else if n = 62 then 45
  else 95

/-- The value of a symbol. -/
def value? (b : UInt8) : Option Nat :=
  let n := b.toNat
  if 65 ≤ n ∧ n ≤ 90 then some (n - 65)
  else if 97 ≤ n ∧ n ≤ 122 then some (n - 71)
  else if 48 ≤ n ∧ n ≤ 57 then some (n + 4)
  else if n = 45 then some 62
  else if n = 95 then some 63
  else none

/-- The symbols of a byte string. -/
def encode : Bytes → Bytes
  | [] => []
  | [x] => [symbol (x.toNat / 4), symbol (x.toNat % 4 * 16)]
  | [x, y] =>
    [symbol (x.toNat / 4), symbol (x.toNat % 4 * 16 + y.toNat / 16),
      symbol (y.toNat % 16 * 4)]
  | x :: y :: z :: rest =>
    symbol (x.toNat / 4) :: symbol (x.toNat % 4 * 16 + y.toNat / 16) ::
      symbol (y.toNat % 16 * 4 + z.toNat / 64) :: symbol (z.toNat % 64) :: encode rest

/-- The text of a byte string. -/
def encodeText (b : Bytes) : String := (encode b).toLatin1

/-- Why a byte string is no base64url text. -/
inductive Error where
  | invalidSymbol (byte : UInt8) (offset : Nat)
  | invalidLength (length : Nat)
  | invalidLastSymbol (byte : UInt8) (offset : Nat)
  | invalidPadding
deriving DecidableEq, Repr

/-- What is wrong, in words. -/
def Error.reason : Error → String
  | .invalidSymbol b i => s!"Invalid symbol {b.toNat}, offset {i}."
  | .invalidLength n => s!"Invalid input length: {n}"
  | .invalidLastSymbol b i => s!"Invalid last symbol {b.toNat}, offset {i}."
  | .invalidPadding => "Invalid padding"

/-- The wording of a refusal. -/
def Error.message (e : Error) : String := "base64url decode failed: " ++ e.reason

/-- The padding sign, which no text may hold. -/
def padding : UInt8 := 61

/-- The values of the last one to four symbols, which start at `index`, and whether padding
follows them.  `offset` counts what was read and `pad` is where padding began. -/
def scanTail (index offset : Nat) (pad : Option Nat) : Bytes → Except Error (List Nat × Bool)
  | [] => .ok ([], pad.isSome)
  | b :: rest =>
    if b = padding then
      if offset < 2 then .error (.invalidSymbol b (index + offset))
      else scanTail index (offset + 1) (some (pad.getD offset)) rest
    else
      match pad with
      | some p => .error (.invalidSymbol padding (index + p))
      | none =>
        match value? b with
        | none => .error (.invalidSymbol b (index + offset))
        | some v => (scanTail index (offset + 1) none rest).map fun (vs, p) => (v :: vs, p)

/-- Reads the last one to four symbols, which start at `index`. -/
def decodeTail (index : Nat) (tail : Bytes) : Except Error Bytes :=
  match scanTail index 0 none tail with
  | .error e => .error e
  | .ok (values, padded) =>
    if tail ≠ [] ∧ values.length < 2 then .error (.invalidLength (index + values.length))
    else if padded then .error .invalidPadding
    else
      match values with
      | [a, b] =>
        if b % 16 ≠ 0 then .error (.invalidLastSymbol (symbol b) (index + 1))
        else .ok [UInt8.ofNat (a * 4 + b / 16)]
      | [a, b, c] =>
        if c % 4 ≠ 0 then .error (.invalidLastSymbol (symbol c) (index + 2))
        else .ok [UInt8.ofNat (a * 4 + b / 16), UInt8.ofNat (b % 16 * 16 + c / 4)]
      | [a, b, c, d] =>
        .ok [UInt8.ofNat (a * 4 + b / 16), UInt8.ofNat (b % 16 * 16 + c / 4),
          UInt8.ofNat (c % 4 * 64 + d)]
      | _ => .ok []

/-- Reads groups of four symbols, the first of which starts at `index`, and then the tail. -/
def decodeFrom (index : Nat) : Bytes → Except Error Bytes
  | a :: b :: c :: d :: e :: rest =>
    match value? a, value? b, value? c, value? d with
    | some v, some w, some x, some y =>
      (decodeFrom (index + 4) (e :: rest)).map fun more =>
        UInt8.ofNat (v * 4 + w / 16) :: UInt8.ofNat (w % 16 * 16 + x / 4) ::
          UInt8.ofNat (x % 4 * 64 + y) :: more
    | none, _, _, _ => .error (.invalidSymbol a index)
    | _, none, _, _ => .error (.invalidSymbol b (index + 1))
    | _, _, none, _ => .error (.invalidSymbol c (index + 2))
    | _, _, _, none => .error (.invalidSymbol d (index + 3))
  | tail => decodeTail index tail

/-- Reads a base64url text.  When one symbol too many ends it, a last byte that is no symbol is
refused before anything else. -/
def decode (text : Bytes) : Except Error Bytes :=
  match text.getLast? with
  | some last =>
    if text.length % 4 = 1 ∧ last ≠ padding ∧ value? last = none then
      .error (.invalidSymbol last (text.length - 1))
    else decodeFrom 0 text
  | none => .ok []

end PicBoard.Base64Url
