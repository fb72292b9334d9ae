import PicBoard.Media.Encode
import PicBoard.Operator.Failure
import PicBoard.Text.Blank

/-!
# Looking at a media file

What is told of a file is printed, and then its frame is written if that is wanted.
-/

namespace PicBoard.Operator

/-- The extension of the last component of a path, in lower case: what follows its last dot, if
that is not its first character. -/
def extension? (path : String) : Option String :=
  let name := path.toList.reverse.takeWhile (· ≠ '/')
  match Text.splitOnce '.' name with
  | some (ext, stem) =>
    if stem = [] then none else some (Text.asciiLower (String.ofList ext.reverse))
  | none => none

/-- A summary as it is printed. -/
def showSummary (media : DecodedMedia) : Bytes :=
  Outcome.line (MediaSummary.ofMedia media).toJson.spread

/-- What a look at files needs of its surroundings. -/
structure ProbeMeans (m : Type → Type) where
  /-- Opens a file, if that can be done. -/
  openFile : String → m (Option Intake)
  /-- Writes a file, and tells whether that was done. -/
  writeFile : String → Bytes → m Bool
  /-- What becomes of starting a tool. -/
  tool : Tool → ToolStart

/-- Writes a frame as a picture of the kind that its path says.  Where a kind is known but the
frame cannot be written so, an empty file is left. -/
def writeFrame {m : Type → Type} [Monad m] (means : ProbeMeans m) (path : String)
    (frame : Image) : m (Option OperatorError) := do
  let ext := (extension? path).getD ""
  let content := (ImageFormat.ofExtension? ext).bind (·.encode? frame)
  if (ImageFormat.ofExtension? ext).isSome || ImageFormat.foreignExtensions.contains ext then
    let isWritten ← means.writeFile path (content.getD [])
    if isWritten && content.isSome then return none
  return some (.cannotWriteFrame path)

/-- Looks at a file.  Nothing comes of it when the tools never end. -/
def probe {m : Type → Type} [Monad m] (means : ProbeMeans m) (file : String)
    (frame : Option String) : m (Option Outcome) := do
  match ← means.openFile file with
  | none => return some (.ofExcept (.error (.cannotOpen file)))
  | some intake =>
    let some decoding := Media.decode (means.tool .ffprobe) (means.tool .ffmpeg) intake
      | return none
    match decoding.verdict with
    | .error e => return some (.ofExcept (.error (.cannotDecode file e)))
    | .ok media =>
      match frame with
      | none => return some { output := showSummary media }
      | some path =>
        let failure ← writeFrame means path media.frame
        return some { output := showSummary media, failure }

end PicBoard.Operator
