import PicBoard.Text.Utf8

/-!
# Streams that arrive in pieces

A stream is the list of what its reads give, in order, up to its end.  What is read from it does
not depend on where the pieces are cut.
-/

namespace PicBoard

/-- What the reads of a stream give, one after the other. -/
abbrev Reads := List Bytes

namespace Reads

/-- All bytes of a stream. -/
def bytes (r : Reads) : Bytes := r.flatten

/-- Takes `n` bytes off a stream, or all there are when there are fewer. -/
def take (n : Nat) : Reads → Bytes × Reads
  | [] => ([], [])
  | piece :: rest =>
    let front := piece.take n
    if front.length = n then (front, piece.drop n :: rest)
    else
      let (more, rest) := take (n - front.length) rest
      (front ++ more, rest)

/-- What is taken is the front of the stream. -/
theorem take_fst (n : Nat) (r : Reads) : (take n r).1 = r.bytes.take n := by
  induction r generalizing n with
  | nil => simp [take, bytes]
  | cons piece rest ih =>
    unfold take
    simp only [List.length_take]
    split
    · rename_i h
      simp [bytes, List.take_append_of_le_length (show n ≤ piece.length by omega)]
    · rename_i h
      have hmin : min n piece.length = piece.length := by omega
      simp only [bytes, List.flatten_cons] at ih ⊢
      rw [ih, List.take_append, hmin]

/-- What is left is the rest of the stream. -/
theorem bytes_take_snd (n : Nat) (r : Reads) : bytes (take n r).2 = r.bytes.drop n := by
  induction r generalizing n with
  | nil => simp [take, bytes]
  | cons piece rest ih =>
    unfold take
    simp only [List.length_take]
    split
    · rename_i h
      simp [bytes, List.drop_append_of_le_length (show n ≤ piece.length by omega)]
    · rename_i h
      have hmin : min n piece.length = piece.length := by omega
      simp only [bytes, List.flatten_cons] at ih ⊢
      rw [ih, List.drop_append, List.drop_eq_nil_of_le (show piece.length ≤ n by omega), hmin,
        List.nil_append]

/-- Takes exactly `n` bytes off a stream, unless it ends before. -/
def exactly (n : Nat) (r : Reads) : Option (Bytes × Reads) :=
  let (b, rest) := take n r
  if b.length = n then some (b, rest) else none

end Reads

end PicBoard
