import PicBoard.GlyphNumber

/-!
# Event keys

The key of a user's event is the texts of the user, of the time and of an index among the events
of one time, one after the other.  An index of zero is left out.  Keys sort by user, then by time,
then by index.
-/

namespace PicBoard

/-- What names one event of a user. -/
structure EventKey where
  userId : Int64
  createdTs : Int64
  index : Int64
deriving DecidableEq, Repr

namespace EventKey

/-- The text of a key. -/
def encode (k : EventKey) : Bytes :=
  GlyphNumber.encode k.userId ++ GlyphNumber.encode k.createdTs ++
    (if k.index = 0 then [] else GlyphNumber.encode k.index)

/-- The text of a key as characters. -/
def text (k : EventKey) : String := k.encode.toLatin1

/-- Reads a key that takes all of `s`; nothing after the time means index zero. -/
def decode (s : Bytes) : Except GlyphNumber.Error EventKey := do
  let (user, n) ← GlyphNumber.decode s
  let rest := s.drop n
  let (created, m) ← GlyphNumber.decode rest
  let rest := rest.drop m
  let index ← if rest = [] then .ok 0 else GlyphNumber.decodeAll rest
  return { userId := user, createdTs := created, index }

/-- Reads a key that takes all of a text. -/
def ofText (s : String) : Except GlyphNumber.Error EventKey := decode (Bytes.ofText s)

end EventKey

end PicBoard
