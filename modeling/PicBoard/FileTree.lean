import PicBoard.PixTree

/-!
# Trees of files

What comes of reading and writing a path: the content of a file, or a reason why there is none, as
when a directory is read or a file is used as a directory.
-/

namespace PicBoard

/-- Why a path gives no file. -/
inductive FileFault where
  | missing
  | isDirectory
  | notDirectory
  | nameTooLong
deriving DecidableEq, Repr

/-- The wording of a reason. -/
def FileFault.message : FileFault → String
  | .missing => "No such file or directory (os error 2)"
  | .isDirectory => "Is a directory (os error 21)"
  | .notDirectory => "Not a directory (os error 20)"
  | .nameTooLong => "File name too long (os error 36)"

/-- What reading a file gives. -/
abbrev FileRead := Except FileFault Bytes

/-- A path as its components. -/
abbrev Components := List Bytes

/-- The files and the empty directories of a tree. -/
structure FileTree where
  files : List (Components × Bytes)
  directories : List Components := []
  /-- The directory that paths start from when they do not start from the root. -/
  current : Components := []
deriving DecidableEq, Repr

namespace FileTree

/-- The component that stays where it is. -/
def here : Bytes := [PixTree.dot]

/-- The component that leads back. -/
def parent : Bytes := [PixTree.dot, PixTree.dot]

/-- The components of a path; a separator at the end asks for a directory, as one dot does. -/
def components (path : Bytes) : Components :=
  (Bytes.pieces PixTree.separator path).filter (· ≠ []) ++
    if path.getLast? = some PixTree.separator then [here] else []

/-- The longest component. -/
def longestName : Nat := 255

/-- The longest path. -/
def longestPath : Nat := 4095

/-- Whether one path leads to another or into it. -/
def leadsTo (dir path : Components) : Bool := dir.isPrefixOf path

/-- The content of the file at a path. -/
def file? (t : FileTree) (path : Components) : Option Bytes :=
  (t.files.find? fun (p, _) => p = path).map (·.2)

/-- Whether a path is a directory: the root, a listed directory, or one on the way to a file. -/
def isDirectory (t : FileTree) (path : Components) : Bool :=
  path = [] || t.directories.any (leadsTo path) ||
    t.files.any fun (p, _) => p ≠ path && leadsTo path p

/-- Checks that something can be looked up at a path. -/
def checkDirectory (t : FileTree) (path : Components) : Except FileFault Unit :=
  if (t.file? path).isSome then .error .notDirectory
  else if t.isDirectory path then .ok () else .error .missing

/-- Where the components of a path lead from a place. -/
def follow (t : FileTree) (place : Components) : Components → Except FileFault Components
  | [] => .ok place
  | name :: rest => do
    t.checkDirectory place
    if name = here then follow t place rest
    else if name = parent then follow t place.dropLast rest
    else if longestName < name.length then .error .nameTooLong
    else follow t (place ++ [name]) rest

/-- Where a path starts from. -/
def start (t : FileTree) (path : Bytes) : Components :=
  if path.head? = some PixTree.separator then [] else t.current

/-- Where a path leads.  An empty one leads nowhere. -/
def locate (t : FileTree) (path : Bytes) : Except FileFault Components :=
  if path = [] then .error .missing
  else if longestPath < path.length then .error .nameTooLong
  else t.follow (t.start path) (components path)

/-- Reads a file. -/
def read (t : FileTree) (path : Bytes) : FileRead := do
  let place ← t.locate path
  match t.file? place with
  | some content => .ok content
  | none => .error (if t.isDirectory place then .isDirectory else .missing)

/-- The tree after a file is written, if that can be done: in a directory, and not over one. -/
def write? (t : FileTree) (path content : Bytes) : Option FileTree := do
  let place ← (t.locate path).toOption
  t.checkDirectory place.dropLast |>.toOption
  if t.isDirectory place ∨ path.getLast? = some PixTree.separator ∨ path.contains 0 then none
  else
    return { t with
      files := (place, content) :: t.files.filter fun (p, _) => p ≠ place }

end FileTree

end PicBoard
