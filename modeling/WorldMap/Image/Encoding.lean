import WorldMap.Image.Checksum
import WorldMap.Image.Pixmap
/-!
# Image files

The bytes of an image in the two usual formats, both of which keep every color as it is. A PNG file is
a sequence of chunks; the rows stand in it one after the other, not compressed. A BMP file has its rows
from the bottom up and the channels of a pixel in reverse.
-/

namespace WorldMap

def bigEndian (n : UInt32) : List UInt8 :=
  [(n >>> 24).toUInt8, (n >>> 16).toUInt8, (n >>> 8).toUInt8, n.toUInt8]

def littleEndian (n : UInt32) : List UInt8 := (bigEndian n).reverse

def littleEndian16 (n : UInt16) : List UInt8 := [n.toUInt8, (n >>> 8).toUInt8]

def ofBytes (bytes : List UInt8) : ByteArray := ⟨bytes.toArray⟩

namespace Png

def signature : ByteArray := ofBytes [137, 80, 78, 71, 13, 10, 26, 10]

/-- A chunk: the size of its data, its type, the data, and the check of type and data. -/
def chunk (type : String) (data : ByteArray) : ByteArray :=
  let body := type.toUTF8 ++ data
  ofBytes (bigEndian data.size.toUInt32) ++ body ++ ofBytes (bigEndian (crc32 body))

/-- The rows of an image, each after a byte that says that it stands as it is. -/
def scanlines (i : Image) : ByteArray :=
  (List.range i.height).foldl (fun bytes y =>
    (i.row y).foldl (fun bytes c => (((bytes.push c.r).push c.g).push c.b).push c.a)
      (bytes.push 0)) ByteArray.empty

def blockSize : Nat := 65535

def blocks (data : ByteArray) (start : Nat) : Nat → ByteArray
  | 0 => block data start 1
  | n + 1 => block data start 0 ++ blocks data (start + blockSize) n
where
  block (data : ByteArray) (start : Nat) (last : UInt8) : ByteArray :=
    let part := data.extract start (start + blockSize)
    let size := part.size.toUInt16
    ofBytes (last :: (littleEndian16 size ++ littleEndian16 (65535 - size))) ++ part

/-- Data as a stream that is not compressed. -/
def stream (data : ByteArray) : ByteArray :=
  ofBytes [0x78, 0x01] ++ blocks data 0 ((data.size - 1) / blockSize) ++
    ofBytes (bigEndian (adler32 data))

def header (i : Image) : ByteArray :=
  ofBytes (bigEndian i.width.toUInt32 ++ bigEndian i.height.toUInt32 ++ [8, 6, 0, 0, 0])

def encode (i : Image) : ByteArray :=
  signature ++ chunk "IHDR" (header i) ++ chunk "IDAT" (stream (scanlines i)) ++
    chunk "IEND" ByteArray.empty

end Png

namespace Bmp

def headerSize : UInt32 := 122

def header (i : Image) : ByteArray :=
  let size := (i.width * i.height * 4).toUInt32
  ofBytes ([0x42, 0x4D] ++ littleEndian (headerSize + size) ++ littleEndian 0 ++
    littleEndian headerSize ++
    littleEndian 108 ++ littleEndian i.width.toUInt32 ++ littleEndian i.height.toUInt32 ++
    littleEndian16 1 ++ littleEndian16 32 ++ littleEndian 3 ++ littleEndian size ++
    littleEndian 0 ++ littleEndian 0 ++ littleEndian 0 ++ littleEndian 0 ++
    littleEndian 0x00FF0000 ++ littleEndian 0x0000FF00 ++ littleEndian 0x000000FF ++
    littleEndian 0xFF000000 ++ littleEndian 0x73524742 ++ List.replicate 48 0)

def encode (i : Image) : ByteArray :=
  (List.range i.height).foldl (fun bytes y =>
    (i.row (i.height - 1 - y)).foldl (fun bytes c =>
      (((bytes.push c.b).push c.g).push c.r).push c.a) bytes) (header i)

end Bmp

end WorldMap
