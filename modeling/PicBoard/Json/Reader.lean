import PicBoard.Json.Basic

/-!
# Reading JSON

The strict grammar: one value with blanks around it, no comments, no control characters in
strings, no leading zeros, nothing after the value.  Nesting may go to any depth.
-/

namespace PicBoard.Json

/-- The blanks between the parts of a text. -/
def isBlank (b : UInt8) : Bool := b = 32 || b = 9 || b = 10 || b = 13

/-- The bytes after the blanks at the front. -/
def skipBlanks (s : Bytes) : Bytes := s.dropWhile isBlank

/-! ## Strings -/

/-- The value of a hexadecimal digit. -/
def hexValue? (b : UInt8) : Option Nat :=
  let n := b.toNat
  if 48 ≤ n ∧ n ≤ 57 then some (n - 48)
  else if 97 ≤ n ∧ n ≤ 102 then some (n - 87)
  else if 65 ≤ n ∧ n ≤ 70 then some (n - 55)
  else none

/-- The number that four hexadecimal digits denote. -/
def hexUnit? (a b c d : UInt8) : Option Nat := do
  let a ← hexValue? a
  let b ← hexValue? b
  let c ← hexValue? c
  let d ← hexValue? d
  return ((a * 16 + b) * 16 + c) * 16 + d

/-- The bytes of a code point, by the layout of UTF-8.  Those of half a surrogate pair are no
UTF-8. -/
def codePoint (n : Nat) : Bytes :=
  if n < 0x80 then [UInt8.ofNat n]
  else if n < 0x800 then [UInt8.ofNat (0xc0 + n / 64), UInt8.ofNat (0x80 + n % 64)]
  else if n < 0x10000 then
    [UInt8.ofNat (0xe0 + n / 4096), UInt8.ofNat (0x80 + n / 64 % 64), UInt8.ofNat (0x80 + n % 64)]
  else
    [UInt8.ofNat (0xf0 + n / 262144), UInt8.ofNat (0x80 + n / 4096 % 64),
      UInt8.ofNat (0x80 + n / 64 % 64), UInt8.ofNat (0x80 + n % 64)]

/-- The byte that an escape of one character stands for. -/
def simpleEscape? (b : UInt8) : Option UInt8 :=
  if b = 34 ∨ b = 92 ∨ b = 47 then some b
  else if b = 98 then some 8
  else if b = 102 then some 12
  else if b = 110 then some 10
  else if b = 114 then some 13
  else if b = 116 then some 9
  else none

/-- The second half of a surrogate pair whose first half is `high`, when it follows. -/
def lowSurrogate? (high : Nat) (s : Bytes) : Option (Nat × Bytes) :=
  match s with
  | 92 :: 117 :: a :: b :: c :: d :: rest =>
    match hexUnit? a b c d with
    | some low =>
      if 0xd800 ≤ high ∧ high < 0xdc00 ∧ 0xdc00 ≤ low ∧ low < 0xe000 then
        some (0x10000 + (high - 0xd800) * 1024 + (low - 0xdc00), rest)
      else none
    | none => none
  | _ => none

/-- Reads the content of a string and the quote that ends it.  The fuel is the number of
bytes. -/
def readContent : (fuel : Nat) → Bytes → Option (Bytes × Bytes)
  | 0, _ => none
  | _, [] => none
  | fuel + 1, b :: rest =>
    if b = 34 then some ([], rest)
    else if b = 92 then
      match rest with
      | 117 :: a :: b :: c :: d :: rest =>
        match hexUnit? a b c d with
        | none => none
        | some n =>
          match lowSurrogate? n rest with
          | some (n, rest) =>
            (readContent fuel rest).map fun (s, rest) => (codePoint n ++ s, rest)
          | none => (readContent fuel rest).map fun (s, rest) => (codePoint n ++ s, rest)
      | e :: rest =>
        match simpleEscape? e with
        | none => none
        | some c => (readContent fuel rest).map fun (s, rest) => (c :: s, rest)
      | [] => none
    else if b < 32 then none
    else (readContent fuel rest).map fun (s, rest) => (b :: s, rest)

/-! ## Numbers -/

/-- The digits at the front, of which there must be one. -/
def readDigits (s : Bytes) : Option (Bytes × Bytes) :=
  let digits := s.takeWhile Decimal.isDigit
  if digits = [] then none else some (digits, s.dropWhile Decimal.isDigit)

/-- The digits of the integer part: a zero alone, or digits that start with another. -/
def readWhole (s : Bytes) : Option (Bytes × Bytes) :=
  match s with
  | 48 :: rest => some ([48], rest)
  | _ => readDigits s

/-- A point and digits, if there is a point. -/
def readFraction (s : Bytes) : Option (Bytes × Bytes) :=
  match s with
  | 46 :: rest => (readDigits rest).map fun (d, rest) => (46 :: d, rest)
  | _ => some ([], s)

/-- The sign at the front, if there is one. -/
def readSign : Bytes → Bytes × Bytes
  | 43 :: rest => ([43], rest)
  | 45 :: rest => ([45], rest)
  | s => ([], s)

/-- An exponent, if there is one. -/
def readExponent (s : Bytes) : Option (Bytes × Bytes) :=
  match s with
  | e :: rest =>
    if e = 101 ∨ e = 69 then
      let (sign, rest) := readSign rest
      (readDigits rest).map fun (d, rest) => (e :: sign ++ d, rest)
    else some ([], s)
  | [] => some ([], s)

/-- How many digits an integer may have: as many as the largest of 64 bits. -/
def maxIntegerDigits : Nat := 20

/-- The integer that a number denotes, when it is written without fraction and exponent and is
no longer than integers may be.  Minus zero is no integer. -/
def integer? (minus : Bool) (whole fraction exponent : Bytes) : Option Int :=
  if fraction ≠ [] ∨ exponent ≠ [] ∨ maxIntegerDigits < whole.length then none
  else
    let n := Decimal.value whole
    if minus then if n = 0 then none else some (-n) else some n

/-- Reads a number. -/
def readNumber (s : Bytes) : Option (JsonNumber × Bytes) := do
  let (minus, s) : Bool × Bytes := match s with
    | 45 :: rest => (true, rest)
    | s => (false, s)
  let (whole, s) ← readWhole s
  let (fraction, s) ← readFraction s
  let (exponent, s) ← readExponent s
  match integer? minus whole fraction exponent with
  | some n => return (.integer n, s)
  | none => return (.other ((if minus then [45] else []) ++ whole ++ fraction ++ exponent), s)

/-! ## Values -/

/-- The rest after a given word at the front. -/
def afterWord? (word : Bytes) (s : Bytes) : Option Bytes :=
  if word.isPrefixOf s then some (s.drop word.length) else none

mutual

/-- Reads a value that starts with the first byte.  The fuel is the number of bytes. -/
def readValue : (fuel : Nat) → Bytes → Option (Json × Bytes)
  | 0, _ => none
  | _, [] => none
  | fuel + 1, b :: rest =>
    if b = 34 then (readContent fuel rest).map fun (s, rest) => (.string s, rest)
    else if b = 91 then
      match skipBlanks rest with
      | 93 :: rest => some (.array [], rest)
      | s =>
        match readValue fuel s with
        | none => none
        | some (x, s) => (readItems fuel s).map fun (xs, rest) => (.array (x :: xs), rest)
    else if b = 123 then
      match skipBlanks rest with
      | 125 :: rest => some (.object [], rest)
      | s =>
        match readMember fuel s with
        | none => none
        | some (m, s) => (readMembers fuel s).map fun (ms, rest) => (.object (m :: ms), rest)
    else if b = 110 then (afterWord? (Bytes.ofText "ull") rest).map fun rest => (.null, rest)
    else if b = 116 then (afterWord? (Bytes.ofText "rue") rest).map fun rest => (.bool true, rest)
    else if b = 102 then
      (afterWord? (Bytes.ofText "alse") rest).map fun rest => (.bool false, rest)
    else (readNumber (b :: rest)).map fun (n, rest) => (.number n, rest)

/-- Reads the items after the first, each after a comma, and the end of the array. -/
def readItems : (fuel : Nat) → Bytes → Option (List Json × Bytes)
  | 0, _ => none
  | fuel + 1, s =>
    match skipBlanks s with
    | 93 :: rest => some ([], rest)
    | 44 :: rest =>
      match readValue fuel (skipBlanks rest) with
      | none => none
      | some (x, s) => (readItems fuel s).map fun (xs, rest) => (x :: xs, rest)
    | _ => none

/-- Reads the name of a member, a colon and its value. -/
def readMember : (fuel : Nat) → Bytes → Option ((Bytes × Json) × Bytes)
  | 0, _ => none
  | fuel + 1, s =>
    match s with
    | 34 :: rest =>
      match readContent fuel rest with
      | none => none
      | some (k, s) =>
        match skipBlanks s with
        | 58 :: rest => (readValue fuel (skipBlanks rest)).map fun (v, rest) => ((k, v), rest)
        | _ => none
    | _ => none

/-- Reads the members after the first, each after a comma, and the end of the object. -/
def readMembers : (fuel : Nat) → Bytes → Option (List (Bytes × Json) × Bytes)
  | 0, _ => none
  | fuel + 1, s =>
    match skipBlanks s with
    | 125 :: rest => some ([], rest)
    | 44 :: rest =>
      match readMember fuel (skipBlanks rest) with
      | none => none
      | some (m, s) => (readMembers fuel s).map fun (ms, rest) => (m :: ms, rest)
    | _ => none

end

/-- Reads a text that is one value. -/
def parse (s : Bytes) : Option Json :=
  match readValue (2 * s.length + 2) (skipBlanks s) with
  | some (j, rest) => if skipBlanks rest = [] then some j else none
  | none => none

end PicBoard.Json
