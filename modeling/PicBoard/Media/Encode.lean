import PicBoard.Media.Bitmap
import PicBoard.Media.Format
import PicBoard.Media.Gif
import PicBoard.Media.Jpeg
import PicBoard.Media.Png
import PicBoard.Media.Tiff
import PicBoard.Media.WebP

/-!
# Writing pictures

A picture can be written in every kind that is told apart.
-/

namespace PicBoard.ImageFormat

/-- Writes a picture, unless it is too large for its kind. -/
def encode? : ImageFormat → Image → Option Bytes
  | .png => fun i => some (Png.encode i)
  | .jpeg => Jpeg.encode?
  | .gif => Gif.encode?
  | .webp => WebP.encode?
  | .tiff => fun i => some (Tiff.encode i)
  | .bmp => fun i => some (Bitmap.encode i)

end PicBoard.ImageFormat
