import PicBoard.Media.Reads

/-!
# Reading a file once

A file is read once, in pieces, and each piece is given to every reader that still takes its
input.  Reading may fail after any piece.
-/

namespace PicBoard

/-- What the reads of a file give, and the failure after them, if there is one. -/
structure Intake where
  reads : Reads
  failure : Option String := none
deriving DecidableEq, Repr

namespace Intake

/-- Takes the first `n` bytes, or all there are, off a file; fails when the failure comes first. -/
def peek (n : Nat) (i : Intake) : Except String (Bytes × Intake) :=
  let (head, rest) := i.reads.take n
  match i.failure with
  | some reason => if head.length < n then .error reason else .ok (head, { i with reads := rest })
  | none => .ok (head, { i with reads := rest })

/-- A file with a piece before it. -/
def prepend (head : Bytes) (i : Intake) : Intake := { i with reads := head :: i.reads }

/-- All bytes of a file, unless reading it fails. -/
def readAll (i : Intake) : Except String Bytes :=
  match i.failure with
  | some reason => .error reason
  | none => .ok i.reads.bytes

end Intake

/-- The input of a reader. -/
structure Sink where
  /-- How many bytes more the reader takes before it stops; no end when absent. -/
  room : Option Nat
  /-- What the reader took, last piece first. -/
  taken : List Bytes := []
  /-- Whether pieces are still given to it. -/
  isOpen : Bool := true
deriving DecidableEq, Repr

namespace Sink

/-- All bytes that a reader took, in order. -/
def received (s : Sink) : Bytes := s.taken.reverse.flatten

/-- Gives a piece to a reader.  One that cannot take all of it is given nothing after it. -/
def write (piece : Bytes) (s : Sink) : Sink :=
  if s.isOpen then
    match s.room with
    | none => { s with taken := piece :: s.taken }
    | some room =>
      if piece.length ≤ room then
        { s with room := some (room - piece.length), taken := piece :: s.taken }
      else { room := some 0, taken := piece.take room :: s.taken, isOpen := false }
  else s

end Sink

/-- Gives each piece in turn to every sink, and counts the bytes. -/
def copyReads : Reads → (total : Nat) → List Sink → Nat × List Sink
  | [], total, sinks => (total, sinks)
  | piece :: rest, total, sinks =>
    copyReads rest (total + piece.length) (sinks.map (Sink.write piece))

/-- Gives a file to every sink: the number of bytes, or why reading failed, and the sinks. -/
def Intake.fanOut (i : Intake) (sinks : List Sink) : Except String Nat × List Sink :=
  let (total, sinks) := copyReads i.reads 0 sinks
  match i.failure with
  | some reason => (.error reason, sinks)
  | none => (.ok total, sinks)

end PicBoard
