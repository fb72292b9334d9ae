import PicBoard.GlyphNumber

/-!
# Where pics lie

A pic's files lie in a tree with one directory level for each glyph of its id's text but the
last, so that siblings share a directory.  A thumbnail has the glyph `0` after the id.  Outside,
the same files are named under `pix/` without the tree.
-/

namespace PicBoard.PixTree

/-- The byte between the components of a path. -/
def separator : UInt8 := 47

/-- The byte between a name and its extension. -/
def dot : UInt8 := 46

/-- The glyph after the id in a thumbnail's name. -/
def thumbnailMark : UInt8 := 48

/-- The path of `name` in `dir`: nothing stands between them when `dir` is empty or ends with a
separator. -/
def join (dir name : Bytes) : Bytes :=
  match dir.getLast? with
  | none => name
  | some last => if last = separator then dir ++ name else dir ++ separator :: name

/-- The file name of a pic or of its thumbnail. -/
def fileName (id : Int64) (thumbnail : Bool) (ext : Bytes) : Bytes :=
  GlyphNumber.encode id ++ (if thumbnail then [thumbnailMark] else []) ++ dot :: ext

/-- The directories between the root and a pic's file, from the root down. -/
def shards (id : Int64) : List Bytes :=
  (GlyphNumber.encode id).dropLast.map fun g => [g]

/-- The directory of a pic's files. -/
def directory (root : Bytes) (id : Int64) : Bytes :=
  (shards id).foldl join root

/-- The path of a pic's file, or of its thumbnail's. -/
def path (root : Bytes) (id : Int64) (thumbnail : Bool) (ext : Bytes) : Bytes :=
  join (directory root id) (fileName id thumbnail ext)

/-- The address of a file relative to the server. -/
def url (id : Int64) (thumbnail : Bool) (ext : Bytes) : Bytes :=
  Bytes.ofText "pix/" ++ fileName id thumbnail ext

end PicBoard.PixTree

namespace PicBoard

/-- What a file name under `pix/` asks for. -/
structure PixName where
  picId : Int64
  thumbnail : Bool
  /-- The extension in lower case, without its dot. -/
  ext : Bytes
deriving DecidableEq, Repr

namespace PixName

/-- Why a name asks for no file. -/
inductive Error where
  | missingExtension
  | badExtension
  | badId (cause : GlyphNumber.Error)
  | trailing
deriving DecidableEq, Repr

/-- The wording of a refusal. -/
def Error.message : Error → String
  | .missingExtension => "missing extension"
  | .badExtension => "bad extension"
  | .badId e => "bad pic id: " ++ e.message
  | .trailing => "unexpected trailing characters"

/-- Whether a byte is an ASCII letter or digit. -/
def isAlphanumeric (b : UInt8) : Bool :=
  let n := b.toNat
  (48 ≤ n && n ≤ 57) || (65 ≤ n && n ≤ 90) || (97 ≤ n && n ≤ 122)

/-- A letter `A` to `Z` in lower case, and every other byte as it is. -/
def lowerByte (b : UInt8) : UInt8 :=
  if 65 ≤ b.toNat ∧ b.toNat ≤ 90 then b + 32 else b

/-- The bytes before and after the last dot, if there is a dot. -/
def splitLastDot : Bytes → Option (Bytes × Bytes)
  | [] => none
  | b :: rest =>
    match splitLastDot rest with
    | some (stem, ext) => some (b :: stem, ext)
    | none => if b = PixTree.dot then some ([], rest) else none

/-- Reads the file name of a pic or of a thumbnail.  An id's text ends where its first glyph
says, so the thumbnail's mark is never taken for a part of it. -/
def parse (name : Bytes) : Except Error PixName :=
  match splitLastDot name with
  | none => .error .missingExtension
  | some (stem, ext) =>
    if stem = [] ∨ ext = [] then .error .missingExtension
    else if ext.all isAlphanumeric = false then .error .badExtension
    else
      match GlyphNumber.decode stem with
      | .error e => .error (.badId e)
      | .ok (id, n) =>
        match stem.drop n with
        | [] => .ok { picId := id, thumbnail := false, ext := ext.map lowerByte }
        | [b] =>
          if b = PixTree.thumbnailMark then
            .ok { picId := id, thumbnail := true, ext := ext.map lowerByte }
          else .error .trailing
        | _ => .error .trailing

/-- The path of the file that a name asks for. -/
def path (root : Bytes) (n : PixName) : Bytes :=
  PixTree.path root n.picId n.thumbnail n.ext

end PixName

end PicBoard
