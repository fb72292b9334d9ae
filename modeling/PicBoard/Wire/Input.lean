import PicBoard.Text.Utf8

/-!
# Bytes to read, with their number at hand

A reader of nested records asks again and again how many bytes are left; here that takes no
counting.
-/

namespace PicBoard.Wire

/-- The bytes that are left to read. -/
structure Input where
  bytes : Bytes
  size : Nat
  size_eq : size = bytes.length
deriving DecidableEq, Repr

namespace Input

/-- All of some bytes. -/
def ofBytes (b : Bytes) : Input := ⟨b, b.length, rfl⟩

/-- An input is determined by its bytes. -/
theorem ext_bytes {i j : Input} (h : i.bytes = j.bytes) : i = j := by
  obtain ⟨b, n, hn⟩ := i
  obtain ⟨c, m, hm⟩ := j
  subst hn hm
  simp only at h
  subst h
  rfl

/-- The first byte and what follows it. -/
def next? (i : Input) : Option (UInt8 × Input) :=
  match i with
  | ⟨[], _, _⟩ => none
  | ⟨b :: rest, size, h⟩ => some (b, ⟨rest, size - 1, by simp [h]⟩)

/-- The first byte of an input that has one. -/
theorem next?_ofBytes_cons (b : UInt8) (rest : Bytes) :
    (ofBytes (b :: rest)).next? = some (b, ofBytes rest) := rfl

/-- What follows so many bytes. -/
def drop (n : Nat) (i : Input) : Input :=
  ⟨i.bytes.drop n, i.size - n, by simp [i.size_eq]⟩

/-- What follows the front of an input is the rest. -/
theorem drop_ofBytes_append (a b : Bytes) : (ofBytes (a ++ b)).drop a.length = ofBytes b :=
  ext_bytes (by simp [drop, ofBytes])

end Input

end PicBoard.Wire
