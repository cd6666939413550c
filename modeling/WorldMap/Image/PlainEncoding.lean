import WorldMap.Image.Encoding
/-!
# Image files that keep pixels one by one

The bytes of an image in formats that are a header and the pixels. None of them is packed, and every
color stays as it is.
-/

namespace WorldMap

def withPixels (head : ByteArray) (i : Image) : ByteArray :=
  i.cells.foldl (fun bytes c => (((bytes.push c.r).push c.g).push c.b).push c.a) head

namespace Tga

def header (i : Image) : ByteArray :=
  ofBytes ([0, 0, 2, 0, 0, 0, 0, 0, 0, 0, 0, 0] ++ littleEndian16 i.width.toUInt16 ++
    littleEndian16 i.height.toUInt16 ++ [32, 0x28])

def encode (i : Image) : ByteArray :=
  i.cells.foldl (fun bytes c => (((bytes.push c.b).push c.g).push c.r).push c.a) (header i)

end Tga

namespace Pam

def header (i : Image) : String :=
  s!"P7\nWIDTH {i.width}\nHEIGHT {i.height}\nDEPTH 4\nMAXVAL 255\nTUPLTYPE RGB_ALPHA\nENDHDR\n"

def encode (i : Image) : ByteArray := withPixels (header i).toUTF8 i

end Pam

namespace Qoi

def header (i : Image) : ByteArray :=
  "qoif".toUTF8 ++ ofBytes (bigEndian i.width.toUInt32 ++ bigEndian i.height.toUInt32 ++ [4, 0])

/-- Each pixel stands after a byte that says that all its channels follow. -/
def encode (i : Image) : ByteArray :=
  i.cells.foldl (fun bytes c => ((((bytes.push 0xFF).push c.r).push c.g).push c.b).push c.a) (header i) ++
    ofBytes [0, 0, 0, 0, 0, 0, 0, 1]

end Qoi

namespace Tiff

def short (tag value : UInt16) : List UInt8 :=
  littleEndian16 tag ++ littleEndian16 3 ++ littleEndian 1 ++ littleEndian16 value ++ [0, 0]

def long (tag : UInt16) (value : UInt32) : List UInt8 :=
  littleEndian16 tag ++ littleEndian16 4 ++ littleEndian 1 ++ littleEndian value

/-- Where the bits of each channel stand: after the first eight bytes, the number of the ten fields, the
fields, and the end of the list of directories. -/
def bitsOffset : UInt32 := 8 + 2 + 10 * 12 + 4

def pixelsOffset : UInt32 := bitsOffset + 8

def header (i : Image) : ByteArray :=
  ofBytes ([0x49, 0x49, 42, 0] ++ littleEndian 8 ++ littleEndian16 10 ++
    long 256 i.width.toUInt32 ++ long 257 i.height.toUInt32 ++
    (littleEndian16 258 ++ littleEndian16 3 ++ littleEndian 4 ++ littleEndian bitsOffset) ++
    short 259 1 ++ short 262 2 ++ long 273 pixelsOffset ++ short 277 4 ++
    long 278 i.height.toUInt32 ++ long 279 (i.width * i.height * 4).toUInt32 ++ short 338 2 ++
    littleEndian 0 ++ (List.replicate 4 (littleEndian16 8)).flatten)

def encode (i : Image) : ByteArray := withPixels (header i) i

end Tiff

namespace Ico

/-- A side in one byte, in which 256 is zero. -/
def side (n : Nat) : UInt8 := n.toUInt8

/-- A directory of one picture, which is a file of its own. -/
def encode (i : Image) : ByteArray :=
  let picture := Png.encode i
  ofBytes ([0, 0, 1, 0, 1, 0, side i.width, side i.height, 0, 0, 0, 0, 32, 0] ++
    littleEndian picture.size.toUInt32 ++ littleEndian 22) ++ picture

end Ico

end WorldMap
