import PicBoard.Media.Png
import PicBoard.Media.Reads

/-!
# Pictures one after the other

The converter writes the frames of a video as PNG files without anything between them.  A frame
ends with the chunk that ends a PNG file, which is found by the lengths of the chunks before it.
The end of the stream, also in the midst of a frame, is the end of the frames.
-/

namespace PicBoard.FrameStream

/-- The longest chunk that is taken, in bytes. -/
def longestChunk : Nat := 64 * 1024 * 1024

/-- The most frames that are taken. -/
def maxFrames : Nat := 120

/-- Why a stream holds no frame where one should start. -/
inductive Fault where
  | badSignature
  | chunkTooLong (length : Nat)
deriving DecidableEq, Repr

/-- The wording of a fault. -/
def Fault.message : Fault → String
  | .badSignature => "bad PNG signature"
  | .chunkTooLong n => s!"PNG chunk of {n} bytes"

/-- What stands at the front of a stream: a frame, or something else that was read up to where it
shows; or the stream ends before either. -/
inductive Front where
  | frame (bytes : Bytes) (rest : Reads)
  | fault (fault : Fault) (rest : Reads)
  | ended
deriving DecidableEq, Repr

/-- Takes chunks up to the last of a frame, after the pieces of it in `front`, which are given
last first.  The fuel is the number of bytes. -/
def chunks : (fuel : Nat) → (front : List Bytes) → Reads → Front
  | 0, _, _ => .ended
  | fuel + 1, front, r =>
    match r.exactly 8 with
    | none => .ended
    | some (head, r) =>
      let length := Png.numberOf (head.take 4)
      if longestChunk < length then .fault (.chunkTooLong length) r
      else
        match r.exactly (length + 4) with
        | none => .ended
        | some (body, r) =>
          let front := body :: head :: front
          if head.drop 4 = Png.typeEnd then .frame front.reverse.flatten r
          else chunks fuel front r

/-- Takes the frame at the front. -/
def next (r : Reads) : Front :=
  match r.exactly Png.signature.length with
  | none => .ended
  | some (b, r) =>
    if b ≠ Png.signature then .fault .badSignature r
    else chunks (r.bytes.length + 1) [b] r

/-- Why no frame could be kept. -/
inductive Error where
  | stream (fault : Fault)
  | undecodable
deriving DecidableEq, Repr

/-- How the reading of frames stops. -/
structure Stop (α : Type) where
  /-- The last frame and its number, if there is one. -/
  verdict : Except Error (Option (α × Nat))
  /-- The stream behind what was read, unless it was read to its end. -/
  unread : Option Reads

variable {α : Type}

/-- Takes at most `count` frames, after `last` and so many frames before. -/
def stopAfter (decode : Bytes → Option α) :
    (count : Nat) → (seen : Nat) → (last : Option (α × Nat)) → Reads → Stop α
  | 0, _, last, r => { verdict := .ok last, unread := some r }
  | count + 1, seen, last, r =>
    match next r with
    | .ended => { verdict := .ok last, unread := none }
    | .fault e rest => { verdict := .error (.stream e), unread := some rest }
    | .frame frame rest =>
      match decode frame with
      | none => { verdict := .error .undecodable, unread := some rest }
      | some image => stopAfter decode count (seen + 1) (some (image, seen + 1)) rest

/-- Reads the frames of a stream, up to the most that are taken. -/
def stop (decode : Bytes → Option α) (r : Reads) : Stop α := stopAfter decode maxFrames 0 none r

/-- The last frame of a stream, which every frame before it must decode for, with its number. -/
def keepLast (decode : Bytes → Option α) (r : Reads) : Except Error (Option (α × Nat)) :=
  (stop decode r).verdict

/-- How many bytes of a stream are left behind by the reading of frames. -/
def unread (decode : Bytes → Option α) (r : Reads) : Nat :=
  match (stop decode r).unread with
  | some rest => rest.bytes.length
  | none => 0

/-- Whether it is settled by a byte string what the frames of a stream that starts with it come
to. -/
def isSettled (decode : Bytes → Option α) (b : Bytes) : Bool := (stop decode [b]).unread.isSome

end PicBoard.FrameStream
