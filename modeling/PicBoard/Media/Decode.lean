import PicBoard.Json.Printer
import PicBoard.Media.Format
import PicBoard.Media.Webm
import PicBoard.Text.Shortest

/-!
# Decoding any file

A file is told by its first sixteen bytes and then decoded whole: a WebM file by the tools, a
still picture here.
-/

namespace PicBoard

/-- Why a file is not decoded. -/
inductive MediaError where
  | unknownFormat
  | read (reason : String)
  | image
  | webm (cause : WebmError)
deriving DecidableEq, Repr

namespace MediaError

/-- The wording of a failure. -/
def message : MediaError → String
  | .unknownFormat => "unrecognized media format"
  | .read reason => "failed to read media: " ++ reason
  | .image => "failed to decode image"
  | .webm e => e.message

/-- The class of a failure. -/
def category : MediaError → Category
  | .unknownFormat | .image => .malformedInput
  | .read _ => .resourceFailure
  | .webm e => e.category

end MediaError

/-- A decoded file. -/
inductive DecodedMedia where
  | webm (w : WebmImage)
  | still (format : ImageFormat) (image : Image)
deriving DecidableEq

namespace DecodedMedia

/-- The picture to show of a file. -/
def frame : DecodedMedia → Image
  | .webm w => w.frame
  | .still _ image => image

end DecodedMedia

namespace Media

/-- Reads a still picture; of the kinds told apart, the pixels of PNG pictures can be read. -/
def decodeStill (format : ImageFormat) (data : Bytes) : Option Image :=
  match format with
  | .png => Png.decode data
  | _ => none

/-- What comes of a video. -/
def ofWebm (d : Decoding WebmError WebmImage) : Decoding MediaError DecodedMedia where
  delivery := d.delivery
  verdict :=
    match d.verdict with
    | .error e => .error (.webm e)
    | .ok w => .ok (.webm w)

/-- What comes of a still picture. -/
def readStill (still : ImageFormat → Bytes → Option Image) (format : ImageFormat) (file : Intake) :
    Except MediaError DecodedMedia :=
  match file.readAll with
  | .error reason => .error (.read reason)
  | .ok data =>
    match still format data with
    | none => .error .image
    | some image => .ok (.still format image)

/-- Hands a file to whatever decodes its kind: the tools, which start and do as given and are
reached through pipes that hold so much, or `still`, which reads still pictures.  Nothing comes of
it when the tools never end. -/
def dispatch (capacity : Nat) (k : Webm.Readers) (still : ImageFormat → Bytes → Option Image)
    (ffprobe ffmpeg : ToolStart) (file : Intake) :
    MediaFormat → Option (Decoding MediaError DecodedMedia)
  | .webm => (Webm.decodeWith capacity k ffprobe ffmpeg file).map ofWebm
  | .image format => some { verdict := readStill still format file }
  | .unknown => some { verdict := .error .unknownFormat }

/-- Decodes a file: what was looked at to tell its kind is put back in front. -/
def decodeWith (capacity : Nat) (k : Webm.Readers) (still : ImageFormat → Bytes → Option Image)
    (ffprobe ffmpeg : ToolStart) (i : Intake) : Option (Decoding MediaError DecodedMedia) :=
  match i.peek MediaFormat.sniffLength with
  | .error reason => some { verdict := .error (.read reason) }
  | .ok (head, rest) =>
    dispatch capacity k still ffprobe ffmpeg (rest.prepend head) (MediaFormat.sniff head)

/-- Decodes a file, reading what the tools write and still pictures in the usual way. -/
def decode (ffprobe ffmpeg : ToolStart) (i : Intake) : Option (Decoding MediaError DecodedMedia) :=
  decodeWith Webm.pipeCapacity .standard decodeStill ffprobe ffmpeg i

end Media

/-- What is told of a decoded file. -/
structure MediaSummary where
  format : String
  width : Nat
  height : Nat
  duration : Option Duration
  tags : List (String × String)
deriving DecidableEq, Repr

namespace MediaSummary

/-- What is told of a file. -/
def ofMedia : DecodedMedia → MediaSummary
  | .webm w =>
    { format := "webm", width := w.frame.width, height := w.frame.height,
      duration := some w.duration, tags := w.tags }
  | .still format image =>
    { format := format.lowerName, width := image.width, height := image.height,
      duration := none, tags := [] }

/-- A duration in seconds as a floating-point number. -/
def seconds (d : Duration) : Float := d.seconds.toFloat + d.nanos.toFloat / 1e9

/-- A summary as JSON; the duration and the tags are left out when there are none. -/
def toJson (s : MediaSummary) : Json :=
  .ofFields <|
    [("format", .ofText s.format), ("width", .ofInt s.width), ("height", .ofInt s.height)] ++
    (match s.duration with
      | none => []
      | some d => [("duration_secs", .number (.other (Shortest.text (seconds d))))]) ++
    (if s.tags = [] then [] else [("tags", Json.ofEntries s.tags)])

end MediaSummary

end PicBoard
