/-!
# Checksums

The two sums that guard data in an image file. Both are taken byte by byte.
-/

namespace WorldMap

def crcBit (c : UInt32) : UInt32 := if c % 2 = 1 then (c >>> 1) ^^^ 0xEDB88320 else c >>> 1

def crcByte (c : UInt32) (b : UInt8) : UInt32 := Nat.repeat crcBit 8 (c ^^^ b.toUInt32)

/-- The cyclic redundancy check of 32 bits. -/
def crc32 (bytes : ByteArray) : UInt32 := bytes.foldl crcByte 0xFFFFFFFF ^^^ 0xFFFFFFFF

/-- The sum of the bytes, and the sum of the sums so far, each modulo a prime number. -/
def adlerByte (s : UInt32 × UInt32) (b : UInt8) : UInt32 × UInt32 :=
  let low := (s.1 + b.toUInt32) % 65521
  (low, (s.2 + low) % 65521)

def adler32 (bytes : ByteArray) : UInt32 :=
  let (low, high) := bytes.foldl adlerByte (1, 0)
  high * 65536 + low

end WorldMap
