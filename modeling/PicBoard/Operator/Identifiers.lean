import PicBoard.Operator.Failure
import PicBoard.PixTree

/-!
# Ids and the places of pics

Glyph numbers to numbers and back, and where the files of a pic lie.
-/

namespace PicBoard.Operator

/-- One line for each number: the number, a tab and its text. -/
def encodeNumbers (values : List Int64) : Bytes :=
  values.flatMap fun n => Outcome.line (Decimal.integer n.toInt ++ 9 :: GlyphNumber.encode n)

/-- One line for each text: the text, a tab and its number; the first bad text ends it. -/
def decodeTexts : List String → Outcome
  | [] => { output := [] }
  | text :: rest =>
    match GlyphNumber.ofText text with
    | .error e => { output := [], failure := some (.badGlyphs text e) }
    | .ok n =>
      let more := decodeTexts rest
      { more with
        output :=
          Outcome.line (Bytes.ofText text ++ 9 :: Decimal.integer n.toInt) ++ more.output }

/-- Reads a pic id: a number in decimal, or else the text of one. -/
def readPicId (id : String) : Except OperatorError Int64 :=
  match Decimal.readInt64 (Bytes.ofText id) with
  | .ok n => .ok n
  | .error _ =>
    match GlyphNumber.ofText id with
    | .ok n => .ok n
    | .error e => .error (.badPicId id e)

/-- Where a file of a pic lies, and its address. -/
structure PicLocation where
  picId : Int64
  file : Bytes
  url : Bytes
deriving DecidableEq, Repr

/-- Finds the file of a pic, or of its thumbnail, in a tree. -/
def locate (picId : Int64) (ext root : Bytes) (thumbnail : Bool) : PicLocation where
  picId
  file := PixTree.path root picId thumbnail ext
  url := PixTree.url picId thumbnail ext

/-- A location as it is printed. -/
def PicLocation.describe (l : PicLocation) : Bytes :=
  Outcome.line (Bytes.ofText "id:   " ++ Decimal.integer l.picId.toInt ++ Bytes.ofText " (" ++
    GlyphNumber.encode l.picId ++ Bytes.ofText ")") ++
  Outcome.line (Bytes.ofText "file: " ++ l.file) ++
  Outcome.line (Bytes.ofText "url:  " ++ l.url)

/-- Prints where a file of a pic lies. -/
def showLocation (id ext root : String) (thumbnail : Bool) : Except OperatorError Bytes := do
  let picId ← readPicId id
  return (locate picId (Bytes.ofText ext) (Bytes.ofText root) thumbnail).describe

end PicBoard.Operator
