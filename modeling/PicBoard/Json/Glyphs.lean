import PicBoard.GlyphNumber
import PicBoard.Json.Fields

/-!
# Glyph numbers as JSON

A glyph number stands in JSON as a string with its text.
-/

namespace PicBoard.GlyphNumber

/-- A number as JSON. -/
def toJson (n : Int64) : Json := .ofText (text n)

/-- Reads a number from JSON. -/
def ofJson? (j : Json) : Option Int64 := do
  let s ← j.toText?
  (ofText s).toOption

end PicBoard.GlyphNumber
