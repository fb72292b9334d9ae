import PicBoard.Wire.Base128

/-!
# Fields of records

A record is a sequence of fields, each a key and a value.  A key holds a tag, which says which
field it is, and a wire type, which says how far its value goes, so a reader can pass over fields
it does not know.  A reader takes the last of repeated scalar values and merges repeated records.
-/

namespace PicBoard.Wire

/-- How the value of a field is laid out. -/
inductive WireType where
  | varint
  | sixtyFourBit
  | lengthDelimited
  | startGroup
  | endGroup
  | thirtyTwoBit
deriving DecidableEq, Repr

namespace WireType

/-- The number of a wire type in a key. -/
def code : WireType → Nat
  | .varint => 0
  | .sixtyFourBit => 1
  | .lengthDelimited => 2
  | .startGroup => 3
  | .endGroup => 4
  | .thirtyTwoBit => 5

/-- The wire type of a number. -/
def ofCode? : Nat → Option WireType
  | 0 => some .varint
  | 1 => some .sixtyFourBit
  | 2 => some .lengthDelimited
  | 3 => some .startGroup
  | 4 => some .endGroup
  | 5 => some .thirtyTwoBit
  | _ => none

/-- The name of a wire type in messages. -/
def name : WireType → String
  | .varint => "Varint"
  | .sixtyFourBit => "SixtyFourBit"
  | .lengthDelimited => "LengthDelimited"
  | .startGroup => "StartGroup"
  | .endGroup => "EndGroup"
  | .thirtyTwoBit => "ThirtyTwoBit"

@[simp] theorem ofCode?_code (t : WireType) : ofCode? t.code = some t := by
  cases t <;> rfl

end WireType

/-! ## Refusals -/

/-- What can be wrong with the bytes of a record. -/
inductive Fault where
  | invalidVarint
  | bufferUnderflow
  | lengthExceeded
  | unknownWireType (code : Nat)
  | wrongWireType (actual expected : WireType)
  | invalidKey (key : Nat)
  | zeroTag
  | unexpectedEndGroup
  | recursionLimit
  | invalidText
deriving DecidableEq, Repr

/-- The wording of a fault. -/
def Fault.message : Fault → String
  | .invalidVarint => "invalid varint"
  | .bufferUnderflow => "buffer underflow"
  | .lengthExceeded => "delimited length exceeded"
  | .unknownWireType n => s!"invalid wire type value: {n}"
  | .wrongWireType a e => s!"invalid wire type: {a.name} (expected {e.name})"
  | .invalidKey n => s!"invalid key value: {n}"
  | .zeroTag => "invalid tag value: 0"
  | .unexpectedEndGroup => "unexpected end group tag"
  | .recursionLimit => "recursion limit reached"
  | .invalidText => "invalid string value: data is not UTF-8 encoded"

/-- A fault and the fields in whose values it lies, innermost first. -/
structure Error where
  fault : Fault
  path : List String := []
deriving DecidableEq, Repr

/-- The wording of a refusal: the fields, innermost first, and then the fault. -/
def Error.message (e : Error) : String :=
  "failed to decode Protobuf message: " ++ String.join (e.path.map (· ++ ": ")) ++
    e.fault.message

/-- Marks a refusal as lying in the value of a field. -/
def inField {α : Type} (field : String) : Except Error α → Except Error α
  | .ok a => .ok a
  | .error e => .error { e with path := e.path ++ [field] }

/-! ## Keys -/

/-- The key of a field. -/
def key (tag : Nat) (type : WireType) : Bytes := base128 (8 * tag + type.code)

/-- Reads a key. -/
def readKey (s : Input) : Except Fault (Nat × WireType × Input) :=
  match readBase128 s with
  | none => .error .invalidVarint
  | some (k, rest) =>
    if UInt32.size ≤ k then .error (.invalidKey k)
    else
      match WireType.ofCode? (k % 8) with
      | none => .error (.unknownWireType (k % 8))
      | some type => if k / 8 = 0 then .error .zeroTag else .ok (k / 8, type, rest)

/-! ## Passing over unknown fields -/

/-- How many records and groups may enclose one another. -/
def nesting : Nat := 100

/-- Passes over so many bytes. -/
def advance (n : Nat) (s : Input) : Except Fault Input :=
  if s.size < n then .error .bufferUnderflow else .ok (s.drop n)

/-- Passes over the fields of a group up to its end, each by `skip`.  The fuel is the number of
bytes, of which every field takes at least one. -/
def skipGroup (skip : Nat → WireType → Input → Except Fault Input) (tag : Nat) :
    (fuel : Nat) → Input → Except Fault Input
  | 0, _ => .error .invalidVarint
  | fuel + 1, s =>
    match readKey s with
    | .error e => .error e
    | .ok (inner, type, rest) =>
      if type = .endGroup then
        if inner = tag then .ok rest else .error .unexpectedEndGroup
      else
        match skip inner type rest with
        | .error e => .error e
        | .ok rest => skipGroup skip tag fuel rest

/-- Passes over the value of a field, with so much nesting left. -/
def skipField : (budget tag : Nat) → WireType → Input → Except Fault Input
  | 0, _, _, _ => .error .recursionLimit
  | budget + 1, tag, type, s =>
    match type with
    | .varint =>
      match readBase128 s with
      | none => .error .invalidVarint
      | some (_, rest) => .ok rest
    | .thirtyTwoBit => advance 4 s
    | .sixtyFourBit => advance 8 s
    | .lengthDelimited =>
      match readBase128 s with
      | none => .error .invalidVarint
      | some (n, rest) => advance n rest
    | .startGroup => skipGroup (skipField budget) tag (s.size + 1) s
    | .endGroup => .error .unexpectedEndGroup

/-! ## Values -/

/-- Reads the number of a scalar field. -/
def readScalar (type : WireType) (s : Input) : Except Error (Nat × Input) :=
  if type ≠ .varint then .error ⟨.wrongWireType type .varint, []⟩
  else
    match readBase128 s with
    | none => .error ⟨.invalidVarint, []⟩
    | some r => .ok r

/-- Reads a signed 64-bit field. -/
def readInt64 (type : WireType) (s : Input) : Except Error (Int64 × Input) :=
  (readScalar type s).map fun (n, rest) => ((UInt64.ofNat n).toInt64, rest)

/-- Reads a signed 32-bit field: the low half of its number. -/
def readInt32 (type : WireType) (s : Input) : Except Error (Int32 × Input) :=
  (readScalar type s).map fun (n, rest) => ((UInt32.ofNat n).toInt32, rest)

/-- Reads the length of a delimited value, which must not pass the end of the bytes. -/
def readLength (type : WireType) (s : Input) : Except Error (Nat × Input) :=
  if type ≠ .lengthDelimited then .error ⟨.wrongWireType type .lengthDelimited, []⟩
  else
    match readBase128 s with
    | none => .error ⟨.invalidVarint, []⟩
    | some (n, rest) => if rest.size < n then .error ⟨.bufferUnderflow, []⟩ else .ok (n, rest)

/-- Reads a text field. -/
def readText (type : WireType) (s : Input) : Except Error (String × Input) :=
  match readLength type s with
  | .error e => .error e
  | .ok (n, rest) =>
    match Bytes.toText? (rest.bytes.take n) with
    | none => .error ⟨.invalidText, []⟩
    | some t => .ok (t, rest.drop n)

/-! ## Records -/

/-- How a record of type `α` takes in the value of one field, given the nesting left. -/
abbrev Merge (α : Type) := (budget tag : Nat) → WireType → α → Input → Except Error (α × Input)

/-- Reads fields into `a` until no more than `left` bytes remain.  The fuel is the number of
bytes, of which every field takes at least one. -/
def readFields {α : Type} (merge : Merge α) (budget left : Nat) :
    (fuel : Nat) → α → Input → Except Error (α × Input)
  | 0, a, s => .ok (a, s)
  | fuel + 1, a, s =>
    if s.size ≤ left then .ok (a, s)
    else
      match readKey s with
      | .error e => .error ⟨e, []⟩
      | .ok (tag, type, rest) =>
        match merge budget tag type a rest with
        | .error e => .error e
        | .ok (a, rest) => readFields merge budget left fuel a rest

/-- Reads a whole record. -/
def readRecord {α : Type} (merge : Merge α) (start : α) (s : Bytes) : Except Error α :=
  (readFields merge nesting 0 s.length start (.ofBytes s)).map (·.1)

/-- Reads a record inside another into what was read of it before.  Its fields may run past its
length before that is noticed. -/
def mergeRecord {α : Type} (merge : Merge α) (budget : Nat) (type : WireType) (a : α)
    (s : Input) : Except Error (α × Input) :=
  if type ≠ .lengthDelimited then .error ⟨.wrongWireType type .lengthDelimited, []⟩
  else
    match budget with
    | 0 => .error ⟨.recursionLimit, []⟩
    | budget + 1 =>
      match readLength type s with
      | .error e => .error e
      | .ok (n, rest) =>
        let left := rest.size - n
        match readFields merge budget left rest.size a rest with
        | .error e => .error e
        | .ok (a, rest) =>
          if rest.size = left then .ok (a, rest) else .error ⟨.lengthExceeded, []⟩

/-- Passes over a field that a record does not know. -/
def passOver {α : Type} (budget tag : Nat) (type : WireType) (a : α) (s : Input) :
    Except Error (α × Input) :=
  match skipField budget tag type s with
  | .error e => .error ⟨e, []⟩
  | .ok rest => .ok (a, rest)

/-! ## Writing -/

/-- A 64-bit field, which is left out when it is zero. -/
def int64Field (tag : Nat) (v : Int64) : Bytes :=
  if v = 0 then [] else key tag .varint ++ base128 v.toUInt64.toNat

/-- A 32-bit field, which is left out when it is zero and is written with the sign extended. -/
def int32Field (tag : Nat) (v : Int32) : Bytes :=
  if v = 0 then [] else key tag .varint ++ base128 v.toInt64.toUInt64.toNat

/-- A length and the bytes it counts. -/
def delimited (tag : Nat) (value : Bytes) : Bytes :=
  key tag .lengthDelimited ++ base128 value.length ++ value

/-- A text field, which is left out when it is empty. -/
def textField (tag : Nat) (v : String) : Bytes :=
  if v = "" then [] else delimited tag (Bytes.ofText v)

/-- A record inside another, which is left out only when it is absent. -/
def recordField {α : Type} (encode : α → Bytes) (tag : Nat) : Option α → Bytes
  | none => []
  | some a => delimited tag (encode a)

end PicBoard.Wire
