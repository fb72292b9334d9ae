import PicBoard.Category
import PicBoard.Json.Fields
import PicBoard.Media.Duration
import PicBoard.Text.Quoted

/-!
# Which containers are accepted

What the prober tells of a file, and the policy on it: a WebM file of at most 121 seconds with
streams of the known codecs only, at least one of which is video.
-/

namespace PicBoard

/-! ## What the prober tells -/

/-- One stream of a container. -/
structure MediaStream where
  codecType : String := ""
  codecName : String := ""
  width : Int64 := 0
  height : Int64 := 0
deriving DecidableEq, Repr

/-- The container as a whole. -/
structure ContainerFormat where
  formatName : String := ""
  streamCount : Int64 := 0
  duration : String := ""
  /-- Texts by name, in ascending order of names. -/
  tags : List (String × String) := []
deriving DecidableEq, Repr

/-- What the prober tells of a file. -/
structure Container where
  streams : List MediaStream := []
  format : ContainerFormat := {}
deriving DecidableEq, Repr

namespace MediaStream

/-- A stream as JSON. -/
def toJson (s : MediaStream) : Json :=
  .ofFields
    [("codec_type", .ofText s.codecType), ("codec_name", .ofText s.codecName),
      ("width", .ofInt64 s.width), ("height", .ofInt64 s.height)]

/-- Reads a stream from JSON; every field may be missing. -/
def ofJson? (j : Json) : Option MediaStream := do
  match ← Json.slots? ["codec_type", "codec_name", "width", "height"] j with
  | [codecType, codecName, width, height] =>
    return {
      codecType := ← codecType.withDefault Json.toText? ""
      codecName := ← codecName.withDefault Json.toText? ""
      width := ← width.withDefault Json.toInt64? 0
      height := ← height.withDefault Json.toInt64? 0 }
  | _ => none

end MediaStream

namespace ContainerFormat

/-- A format as JSON. -/
def toJson (f : ContainerFormat) : Json :=
  .ofFields
    [("format_name", .ofText f.formatName), ("nb_streams", .ofInt64 f.streamCount),
      ("duration", .ofText f.duration), ("tags", Json.ofEntries f.tags)]

/-- Reads a format from JSON; every field may be missing. -/
def ofJson? (j : Json) : Option ContainerFormat := do
  match ← Json.slots? ["format_name", "nb_streams", "duration", "tags"] j with
  | [formatName, streamCount, duration, tags] =>
    return {
      formatName := ← formatName.withDefault Json.toText? ""
      streamCount := ← streamCount.withDefault Json.toInt64? 0
      duration := ← duration.withDefault Json.toText? ""
      tags := ← tags.withDefault Json.toEntries? [] }
  | _ => none

end ContainerFormat

namespace Container

/-- What the prober tells, as JSON. -/
def toJson (c : Container) : Json :=
  .ofFields
    [("streams", .array (c.streams.map MediaStream.toJson)), ("format", c.format.toJson)]

/-- Reads what the prober tells from JSON; every field may be missing. -/
def ofJson? (j : Json) : Option Container := do
  match ← Json.slots? ["streams", "format"] j with
  | [streams, format] =>
    return {
      streams := ← streams.withDefault (Json.toList? MediaStream.ofJson?) []
      format := ← format.withDefault ContainerFormat.ofJson? {} }
  | _ => none

/-! ## The policy -/

/-- Why a container is refused. -/
inductive Rejection where
  | notWebm (formatName : String)
  | noStreams
  | badDuration (text : String)
  | durationOutOfRange (duration : Duration)
  | unsupportedVideo (codec : String)
  | unsupportedAudio (codec : String)
  | unsupportedStream (codecType codecName : String)
  | noVideo
deriving DecidableEq, Repr

namespace Rejection

/-- The wording of a refusal. -/
def message : Rejection → String
  | .notWebm name => "only webm supported, got " ++ Text.quoted name
  | .noStreams => "no streams found"
  | .badDuration text => "bad duration " ++ Text.quoted text
  | .durationOutOfRange d => "invalid duration " ++ d.describe
  | .unsupportedVideo codec => "unsupported video type " ++ Text.quoted codec
  | .unsupportedAudio codec => "unsupported audio type " ++ Text.quoted codec
  | .unsupportedStream type name =>
    "unsupported stream type " ++ Text.quoted type ++ " (" ++ Text.quoted name ++ ")"
  | .noVideo => "no video found"

/-- The class of a refusal. -/
def category : Rejection → Category
  | .notWebm _ => .malformedInput
  | .unsupportedVideo _ | .unsupportedAudio _ | .unsupportedStream _ _ => .unsupported
  | .noStreams | .badDuration _ | .durationOutOfRange _ | .noVideo => .producerRejected

end Rejection

/-- The one format name that is accepted. -/
def webmFormatName : String := "matroska,webm"

/-- The longest duration that is accepted, two minutes and a second. -/
def longest : Duration := { seconds := 121, nanos := 0 }

/-- The video codecs that are accepted. -/
def videoCodecs : List String := ["vp8", "vp9"]

/-- The audio codecs that are accepted. -/
def audioCodecs : List String := ["vorbis", "opus"]

/-- What is wrong with a stream, if anything. -/
def streamFault (s : MediaStream) : Option Rejection :=
  if s.codecType = "video" then
    if s.codecName ∈ videoCodecs then none else some (.unsupportedVideo s.codecName)
  else if s.codecType = "audio" then
    if s.codecName ∈ audioCodecs then none else some (.unsupportedAudio s.codecName)
  else some (.unsupportedStream s.codecType s.codecName)

/-- Goes through streams in order, up to the first with which something is wrong, and tells whether
there is video among them or has been before. -/
def checkStreams (videoFound : Bool) : List MediaStream → Except Rejection Bool
  | [] => .ok videoFound
  | s :: rest =>
    match streamFault s with
    | some e => .error e
    | none => checkStreams (videoFound || s.codecType == "video") rest

/-- Reads a duration. -/
def parseDuration (text : String) : Except Rejection Duration :=
  match Duration.parse (Bytes.ofText text) with
  | some d => .ok d
  | none => .error (.badDuration text)

/-- Applies the policy, whose rules are tried in order, and gives the duration. -/
def check (c : Container) : Except Rejection Duration :=
  if c.format.formatName ≠ webmFormatName then .error (.notWebm c.format.formatName)
  else if c.format.streamCount ≤ 0 then .error .noStreams
  else
    match parseDuration c.format.duration with
    | .error e => .error e
    | .ok d =>
      if d.toNanos = 0 ∨ longest.toNanos < d.toNanos then .error (.durationOutOfRange d)
      else
        match checkStreams false c.streams with
        | .error e => .error e
        | .ok videoFound => if videoFound then .ok d else .error .noVideo

end Container

end PicBoard
