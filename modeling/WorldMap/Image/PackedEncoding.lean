import WorldMap.Image.Encoding
import WorldMap.Image.Palette
import WorldMap.Number.Rounding
/-!
# Image files of bits

Two formats whose pixels are a stream of codes of so many bits, the lowest bit of a byte first. Both are
meant for packing, but allow to write the codes without any: in nine bits each in the one format, and as
four codes of eight bits in the other.
-/

namespace WorldMap

/-- A stream of bits: its whole bytes, and the bits of the last one, which are less than eight. -/
structure BitStream where
  bytes : ByteArray
  held : Nat
  count : Nat

namespace BitStream

def empty : BitStream := ⟨ByteArray.empty, 0, 0⟩

def push (s : BitStream) (n value : Nat) : BitStream :=
  flush ⟨s.bytes, s.held + (value % twoPow n) * twoPow s.count, s.count + n⟩ (s.count + n)
where
  flush (s : BitStream) : Nat → BitStream
    | 0 => s
    | k + 1 =>
      if s.count < 8 then s
      else flush ⟨s.bytes.push s.held.toUInt8, s.held / 256, s.count - 8⟩ k

def toBytes (s : BitStream) : ByteArray := if s.count = 0 then s.bytes else s.bytes.push s.held.toUInt8

end BitStream

namespace Gif

def clearCode : Nat := 256
def endCode : Nat := 257

/-- The number of pixels after which a reader has to be told to start again, so that its codes stay
nine bits long. -/
def runLength : Nat := 250

def codes (p : Paletted) : BitStream :=
  let (stream, _) := p.indices.foldl (fun (state : BitStream × Nat) index =>
    let stream := if state.2 % runLength = 0 then state.1.push 9 clearCode else state.1
    (stream.push 9 index.toNat, state.2 + 1)) (BitStream.empty, 0)
  stream.push 9 endCode

/-- Data in blocks of at most 255 bytes, each after its size, and an empty one. -/
def blocks (data : ByteArray) : ByteArray :=
  (List.range ((data.size + 254) / 255)).foldl (fun bytes k =>
    let part := data.extract (k * 255) (k * 255 + 255)
    bytes.push part.size.toUInt8 ++ part) ByteArray.empty |>.push 0

def palette (p : Paletted) : List UInt8 :=
  (List.range 256).flatMap fun i =>
    let c := p.palette.getD i Color.black
    [c.r, c.g, c.b]

def transparency (p : Paletted) : List UInt8 :=
  match p.transparent with
  | none => []
  | some index => [0x21, 0xF9, 4, 1, 0, 0, index, 0]

def encode (p : Paletted) : ByteArray :=
  let size := littleEndian16 p.width.toUInt16 ++ littleEndian16 p.height.toUInt16
  "GIF89a".toUTF8 ++ ofBytes (size ++ [0xF7, 0, 0] ++ palette p ++ transparency p ++
    [0x2C, 0, 0, 0, 0] ++ size ++ [0, 8]) ++ (blocks (codes p).toBytes).push 0x3B

end Gif

namespace WebP

/-- A code in which each of the first 256 symbols has eight bits and no other symbol has any. The lengths
are told by a code of their own, in which the length eight is the only symbol. -/
def pushByteCode (s : BitStream) : BitStream :=
  let s := (s.push 1 0).push 4 8
  let s := (Nat.repeat (fun s => s.push 3 0) 11 s).push 3 1
  ((s.push 1 1).push 3 3).push 8 254

/-- The bits of a byte in the opposite order. A code goes into the stream with its highest bit first. -/
def reverseBits (b : UInt8) : Nat :=
  (List.range 8).foldl (fun n k => 2 * n + (b.toNat / twoPow k) % 2) 0

/-- Width, height, that alpha counts, the codes of the four channels and of distances, of which there are
none, and the pixels. -/
def codes (i : Image) : BitStream :=
  let s := ((BitStream.empty.push 8 0x2F).push 14 (i.width - 1)).push 14 (i.height - 1)
  let s := ((s.push 1 1).push 3 0).push 3 0
  let s := (Nat.repeat pushByteCode 4 s).push 4 1
  i.cells.foldl (fun s c =>
    (((s.push 8 (reverseBits c.g)).push 8 (reverseBits c.r)).push 8 (reverseBits c.b)).push 8
      (reverseBits c.a)) s

def encode (i : Image) : ByteArray :=
  let data := (codes i).toBytes
  let padding := ofBytes (List.replicate (data.size % 2) 0)
  "RIFF".toUTF8 ++ ofBytes (littleEndian (12 + data.size + data.size % 2).toUInt32) ++
    "WEBPVP8L".toUTF8 ++ ofBytes (littleEndian data.size.toUInt32) ++ data ++ padding

end WebP

end WorldMap
