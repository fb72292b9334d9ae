import PicBoard.Json.Reader
import PicBoard.Media.Container
import PicBoard.Media.FrameStream
import PicBoard.Media.Intake
import PicBoard.Media.Tool

/-!
# Decoding a WebM file

The file goes to both tools at once.  When both have ended, the first failure in this order is
reported: the copying of the file, the prober, the converter, the policy on the container.  A
converter that has more to write than is read of it, and than a pipe holds, never ends, and nothing
is reported.
-/

namespace PicBoard

/-- Why a WebM file is not decoded. -/
inductive WebmError where
  | spawn (tool : Tool) (reason : String)
  | copy (reason : String)
  | pipe (tool : Tool) (reason diagnostics : String)
  | toolFailed (tool : Tool) (status : ExitStatus) (diagnostics : String)
  | probeOutput (diagnostics : String)
  | frameDecode (diagnostics : String)
  | noFrames (diagnostics : String)
  | rejected (cause : Container.Rejection)
deriving DecidableEq, Repr

namespace WebmError

/-- The wording of a failure. -/
def message : WebmError → String
  | .spawn tool reason => s!"failed to start {tool.name}: {reason}"
  | .copy reason => s!"failed to read input: {reason}"
  | .pipe tool reason _ => s!"{tool.name} pipe failed: {reason}"
  | .toolFailed tool status _ => s!"{tool.name} exited with {status.describe}"
  | .probeOutput _ => "bad ffprobe output"
  | .frameDecode _ => "bad frame from ffmpeg"
  | .noFrames _ => "no frames in webm"
  | .rejected e => e.message

/-- What the failing tool wrote on its error output. -/
def diagnostics? : WebmError → Option String
  | .pipe _ _ d | .toolFailed _ _ d | .probeOutput d | .frameDecode d | .noFrames d => some d
  | .spawn _ _ | .copy _ | .rejected _ => none

/-- The class of a failure. -/
def category : WebmError → Category
  | .spawn _ _ | .copy _ | .pipe _ _ _ | .toolFailed _ _ _ | .probeOutput _ => .resourceFailure
  | .frameDecode _ | .noFrames _ => .producerRejected
  | .rejected e => e.category

end WebmError

/-- A decoded WebM file: the last frame of its first second and what the container says. -/
structure WebmImage where
  frame : Image
  duration : Duration
  tags : List (String × String)
deriving DecidableEq

/-- What comes of decoding a file. -/
structure Decoding (ε α : Type) where
  /-- What came of copying the file to the tools, and what each of them was given, once both were
  started. -/
  delivery : Option (Except String Nat × List Sink) := none
  verdict : Except ε α

namespace Webm

/-- How what the tools write is read: what the prober tells, and the converter's frames. -/
structure Readers where
  container : Bytes → Option Container
  frame : Bytes → Option Image

/-- The container as JSON, and frames as PNG files. -/
def Readers.standard : Readers where
  container b := (Json.parse b).bind Container.ofJson?
  frame := Png.decode

/-- Checks that a tool ended well. -/
def checkExit (tool : Tool) (r : ToolRun) : Except WebmError Unit :=
  if r.exit.isSuccess then .ok () else .error (.toolFailed tool r.exit r.diagnostics)

/-- What the prober tells. -/
def probe (k : Readers) (r : ToolRun) : Except WebmError Container := do
  checkExit .ffprobe r
  match k.container r.stdout.bytes with
  | some c => return c
  | none => .error (.probeOutput r.diagnostics)

/-- The last frame that the converter writes. -/
def convert (k : Readers) (r : ToolRun) : Except WebmError Image :=
  match FrameStream.keepLast k.frame r.stdout with
  | .error (.stream fault) => .error (.pipe .ffmpeg fault.message r.diagnostics)
  | .error .undecodable => .error (.frameDecode r.diagnostics)
  | .ok last => do
    checkExit .ffmpeg r
    match last with
    | some (frame, _) => return frame
    | none => .error (.noFrames r.diagnostics)

/-- Puts together what the tools tell, if the policy allows the container. -/
def accept (container : Container) (frame : Image) : Except WebmError WebmImage :=
  match container.check with
  | .error e => .error (.rejected e)
  | .ok duration => .ok { frame, duration, tags := container.format.tags }

/-- What the tools tell of a file, unless it could not be copied to them. -/
def conclude (k : Readers) (copied : Except String Nat) (prober converter : ToolRun) :
    Except WebmError WebmImage :=
  match copied with
  | .error reason => .error (.copy reason)
  | .ok _ => do
    let container ← probe k prober
    let frame ← convert k converter
    accept container frame

/-- The sinks of the tools' inputs. -/
def sinks (prober converter : ToolRun) : List Sink :=
  [{ room := prober.appetite }, { room := converter.appetite }]

/-- Copies a file to tools that were started, and looks at what they tell. -/
def attend (k : Readers) (prober converter : ToolRun) (i : Intake) :
    Decoding WebmError WebmImage :=
  let delivery := i.fanOut (sinks prober converter)
  { delivery := some delivery, verdict := conclude k delivery.1 prober converter }

/-- How many bytes a pipe holds. -/
def pipeCapacity : Nat := 65536

/-- Whether a converter never ends: more of its output is left unread than a pipe holds.  It waits
for room in its output, which is closed only when its error output has ended. -/
def stalls (capacity : Nat) (k : Readers) (converter : ToolRun) : Bool :=
  capacity < FrameStream.unread k.frame converter.stdout

/-- Decodes a file with tools that start and do as given, through pipes that hold so much.  Nothing
comes of it when the converter never ends. -/
def decodeWith (capacity : Nat) (k : Readers) (ffprobe ffmpeg : ToolStart) (i : Intake) :
    Option (Decoding WebmError WebmImage) :=
  match ffprobe, ffmpeg with
  | .failed reason, _ => some { verdict := .error (.spawn .ffprobe reason) }
  | .started _, .failed reason => some { verdict := .error (.spawn .ffmpeg reason) }
  | .started prober, .started converter =>
    if stalls capacity k converter then none else some (attend k prober converter i)

/-- Decodes a file, reading what the tools write in the usual way. -/
def decode (ffprobe ffmpeg : ToolStart) (i : Intake) : Option (Decoding WebmError WebmImage) :=
  decodeWith pipeCapacity .standard ffprobe ffmpeg i

end Webm

end PicBoard
