import PicBoard.Text.Utf8

/-!
# Kinds of media

What a file is, by the bytes it starts with.
-/

namespace PicBoard

/-- The kinds of still picture that are told apart. -/
inductive ImageFormat where
  | png
  | jpeg
  | gif
  | webp
  | tiff
  | bmp
deriving DecidableEq, Repr

namespace ImageFormat

/-- The name of a kind, as its inventors write it. -/
def name : ImageFormat → String
  | .png => "Png"
  | .jpeg => "Jpeg"
  | .gif => "Gif"
  | .webp => "WebP"
  | .tiff => "Tiff"
  | .bmp => "Bmp"

/-- The name of a kind in lower case. -/
def lowerName : ImageFormat → String
  | .png => "png"
  | .jpeg => "jpeg"
  | .gif => "gif"
  | .webp => "webp"
  | .tiff => "tiff"
  | .bmp => "bmp"

/-- The usual extension of a kind. -/
def extension : ImageFormat → String
  | .png => "png"
  | .jpeg => "jpg"
  | .gif => "gif"
  | .webp => "webp"
  | .tiff => "tiff"
  | .bmp => "bmp"

/-- The kinds by their extensions, in lower case. -/
def extensionTable : List (String × ImageFormat) :=
  [("png", .png), ("apng", .png), ("jpg", .jpeg), ("jpeg", .jpeg), ("jfif", .jpeg), ("gif", .gif),
    ("webp", .webp), ("tif", .tiff), ("tiff", .tiff), ("bmp", .bmp)]

/-- The kind of an extension. -/
def ofExtension? (ext : String) : Option ImageFormat := extensionTable.lookup ext

/-- The extensions of further kinds, which are neither read nor written. -/
def foreignExtensions : List String :=
  ["avif", "dds", "exr", "ff", "hdr", "ico", "pam", "pbm", "pcx", "pgm", "pnm", "ppm", "qoi", "tga"]

end ImageFormat

/-- What a file is. -/
inductive MediaFormat where
  | webm
  | image (format : ImageFormat)
  | unknown
deriving DecidableEq, Repr

namespace MediaFormat

/-- The usual extension of what a file is. -/
def extension : MediaFormat → Option String
  | .webm => some "webm"
  | .image f => some f.extension
  | .unknown => none

/-- One byte of a signature; `none` stands for any byte. -/
abbrev Pattern := List (Option UInt8)

/-- Whether a byte string starts with a signature. -/
def starts : Pattern → Bytes → Bool
  | [], _ => true
  | _, [] => false
  | none :: p, _ :: s => starts p s
  | some x :: p, b :: s => x = b && starts p s

/-- A signature in which every byte is fixed. -/
def fixed (b : Bytes) : Pattern := b.map some

/-- The signatures, in the order in which they are tried. -/
def signatures : List (Pattern × MediaFormat) :=
  [(fixed [0x1a, 0x45, 0xdf, 0xa3], .webm),
    (fixed [0x89, 0x50, 0x4e, 0x47, 0x0d, 0x0a, 0x1a, 0x0a], .image .png),
    (fixed [0xff, 0xd8, 0xff], .image .jpeg),
    (fixed [0x47, 0x49, 0x46, 0x38, 0x39, 0x61], .image .gif),
    (fixed [0x47, 0x49, 0x46, 0x38, 0x37, 0x61], .image .gif),
    (fixed [0x52, 0x49, 0x46, 0x46] ++ List.replicate 4 none ++ fixed [0x57, 0x45, 0x42, 0x50],
      .image .webp),
    (fixed [0x4d, 0x4d, 0x00, 0x2a], .image .tiff),
    (fixed [0x49, 0x49, 0x2a, 0x00], .image .tiff),
    (fixed [0x42, 0x4d], .image .bmp)]

/-- What a file is by its first bytes. -/
def sniff (head : Bytes) : MediaFormat :=
  match signatures.find? fun (p, _) => starts p head with
  | some (_, f) => f
  | none => .unknown

/-- How many bytes are looked at to tell what a file is; no signature is longer. -/
def sniffLength : Nat := 16

end MediaFormat

end PicBoard
