import PicBoard.Media.BitSource

/-!
# Prefix codes

A code is a tree whose branches are chosen by bits.  Of a canonical code only the lengths of the
words are given: shorter words come first, and words of one length in the order of their symbols.
-/

namespace PicBoard

/-- A prefix code as a tree: a bit chooses a branch. -/
inductive PrefixCode where
  | empty
  | leaf (symbol : Nat)
  | node (zero one : PrefixCode)
deriving DecidableEq, Repr

namespace PrefixCode

/-- The longest word, in bits. -/
def longestWord : Nat := 15

/-- Adds a code word of so many bits, whose value is read from its most significant bit on.
There must be room for it. -/
def insert (symbol : Nat) : (length value : Nat) → PrefixCode → Option PrefixCode
  | 0, _, .empty => some (.leaf symbol)
  | 0, _, _ => none
  | length + 1, value, .empty =>
    if value.testBit length then (insert symbol length value .empty).map (.node .empty ·)
    else (insert symbol length value .empty).map (.node · .empty)
  | length + 1, value, .node z o =>
    if value.testBit length then (insert symbol length value o).map (.node z ·)
    else (insert symbol length value z).map (.node · o)
  | _ + 1, _, .leaf _ => none

/-- Whether every sequence of bits leads to a symbol. -/
def isComplete : PrefixCode → Bool
  | .empty => false
  | .leaf _ => true
  | .node z o => z.isComplete && o.isComplete

/-- Adds the code words of one length, in the order of their symbols, from `value` on. -/
def insertLength (length : Nat) :
    List (Nat × Nat) → (value : Nat) → PrefixCode → Option (PrefixCode × Nat)
  | [], value, code => some (code, value)
  | (symbol, l) :: rest, value, code =>
    if l = length then do
      insertLength length rest (value + 1) (← insert symbol length value code)
    else insertLength length rest value code

/-- Adds the code words of so many lengths, from `length` on. -/
def insertLengths (symbols : List (Nat × Nat)) :
    (count length value : Nat) → PrefixCode → Option PrefixCode
  | 0, _, _, code => some code
  | count + 1, length, value, code => do
    let (code, value) ← insertLength length symbols value code
    insertLengths symbols count (length + 1) (2 * value) code

/-- The code of which only the lengths of the words are given; length zero means no word. -/
def ofLengths? (lengths : List Nat) : Option PrefixCode :=
  insertLengths (lengths.zipIdx.map fun (l, i) => (i, l)) longestWord 1 0 .empty

/-- The code of given lengths, if every sequence of bits leads to a symbol. -/
def complete? (lengths : List Nat) : Option PrefixCode :=
  (ofLengths? lengths).filter isComplete

/-- The code of given lengths, which may also have no words, or a single one of one bit. -/
def sparse? (lengths : List Nat) : Option PrefixCode :=
  match lengths.filter (· ≠ 0) with
  | [] => some .empty
  | [1] => ofLengths? lengths
  | _ => complete? lengths

/-- Reads a symbol, after so many bits of its word; it comes with the length of the word. -/
def read : PrefixCode → (used : Nat) → BitSource → Except Halt (Nat × Nat × BitSource)
  | .empty, _, _ => .error .corrupt
  | .leaf symbol, used, s => .ok (symbol, used, s)
  | .node z o, used, s =>
    match s.next? with
    | none => .error .stalled
    | some (b, s) => if b then o.read (used + 1) s else z.read (used + 1) s

end PrefixCode

end PicBoard
