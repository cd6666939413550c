import WorldMap.Image.Encoding
import WorldMap.Image.PackedEncoding
import WorldMap.Image.Palette
import WorldMap.Image.PlainEncoding
/-!
# Image formats

The formats that a file's extension can stand for. Not all of them take images with an alpha channel,
and some take only images up to a size.
-/

namespace WorldMap

inductive ImageFormat
  | avif
  | bmp
  | dds
  | farbfeld
  | gif
  | hdr
  | ico
  | jpeg
  | openExr
  | png
  | pnm
  | qoi
  | tga
  | tiff
  | webP
  deriving DecidableEq, Repr

inductive FormatProblem
  | unsupported
  | alphaChannel
  | iconWidth (width : Nat)
  | iconHeight (height : Nat)
  | badSize
  | tgaWidth (width : Nat)
  | tgaHeight (height : Nat)
  | webPSize
  deriving DecidableEq, Repr

namespace ImageFormat

def name : ImageFormat → String
  | avif => "Avif"
  | bmp => "Bmp"
  | dds => "Dds"
  | farbfeld => "Farbfeld"
  | gif => "Gif"
  | hdr => "Hdr"
  | ico => "Ico"
  | jpeg => "Jpeg"
  | openExr => "OpenExr"
  | png => "Png"
  | pnm => "Pnm"
  | qoi => "Qoi"
  | tga => "Tga"
  | tiff => "Tiff"
  | webP => "WebP"

def extensions : ImageFormat → List String
  | avif => ["avif"]
  | bmp => ["bmp"]
  | dds => ["dds"]
  | farbfeld => ["ff"]
  | gif => ["gif"]
  | hdr => ["hdr"]
  | ico => ["ico"]
  | jpeg => ["jpg", "jpeg", "jfif"]
  | openExr => ["exr"]
  | png => ["png", "apng"]
  | pnm => ["pbm", "pam", "ppm", "pgm", "pnm"]
  | qoi => ["qoi"]
  | tga => ["tga"]
  | tiff => ["tif", "tiff"]
  | webP => ["webp"]

def all : List ImageFormat :=
  [avif, bmp, dds, farbfeld, gif, hdr, ico, jpeg, openExr, png, pnm, qoi, tga, tiff, webP]

def ofExtension? (extension : String) : Option ImageFormat :=
  all.find? fun f => f.extensions.contains extension.toLower

/-- The longest side of an image, in the formats that have a number of 16 bits for it. -/
def maxShortSide : Nat := 65535

def problem? (f : ImageFormat) (i : Image) : Option FormatProblem :=
  match f with
  | dds => some .unsupported
  | farbfeld | hdr | jpeg | openExr => some .alphaChannel
  | gif => if maxShortSide < i.width ∨ maxShortSide < i.height then some .badSize else none
  | ico =>
    if 256 < i.width then some (.iconWidth i.width)
    else if 256 < i.height then some (.iconHeight i.height) else none
  | tga =>
    if maxShortSide < i.width then some (.tgaWidth i.width)
    else if maxShortSide < i.height then some (.tgaHeight i.height) else none
  | webP => if 16384 < i.width ∨ 16384 < i.height then some .webPSize else none
  | _ => none

/-- What a file of the format shows of an image. One format keeps colors only nearly, and nothing is
said of what it shows. -/
def shown? (f : ImageFormat) (i : Image) : Option Image :=
  match f with
  | avif => none
  | gif => some (Paletted.ofImage i).toImage
  | _ => some i

/-- The bytes of an image that has no problem with the format. The format that keeps colors only nearly
is not written here: its files are empty. -/
def encode (f : ImageFormat) (i : Image) : ByteArray :=
  match f with
  | bmp => Bmp.encode i
  | gif => Gif.encode (Paletted.ofImage i)
  | ico => Ico.encode i
  | png => Png.encode i
  | pnm => Pam.encode i
  | qoi => Qoi.encode i
  | tga => Tga.encode i
  | tiff => Tiff.encode i
  | webP => WebP.encode i
  | _ => ByteArray.empty

end ImageFormat

namespace FormatProblem

def text (f : ImageFormat) : FormatProblem → String
  | unsupported => s!"The image format `{f.name}` is not supported"
  | alphaChannel => s!"The encoder or decoder for {f.name} does not support the color type `Rgba8`"
  | iconWidth w =>
    s!"The parameter is malformed: the image width must be `1..=256`, instead width {w} was provided"
  | iconHeight h =>
    s!"The parameter is malformed: the image height must be `1..=256`, instead height {h} was provided"
  | badSize => "The Image's dimensions are either too small or too large"
  | tgaWidth w => s!"Format error encoding {f.name}:\nInvalid TGA width: {w}"
  | tgaHeight h => s!"Format error encoding {f.name}:\nInvalid TGA height: {h}"
  | webPSize => s!"Format error encoding {f.name}:\nInvalid dimensions"

end FormatProblem

end WorldMap
