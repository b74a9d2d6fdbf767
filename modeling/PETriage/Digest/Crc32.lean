import PETriage.Bytes

/-!
# CRC-32

The remainder of the bytes as a polynomial over two elements, low bit first, with the
state inverted before and after.
-/
namespace PETriage.Digest.Crc32

def polynomial : UInt32 := 0xEDB88320

def bitStep (crc : UInt32) : UInt32 :=
  if crc &&& 1 == 0 then crc >>> 1 else (crc >>> 1) ^^^ polynomial

def bitSteps : Nat → UInt32 → UInt32
  | 0, crc => crc
  | n + 1, crc => bitSteps n (bitStep crc)

def byteStep (crc : UInt32) (x : UInt8) : UInt32 := bitSteps 8 (crc ^^^ x.toUInt32)

def crc32 (b : ByteArray) : UInt32 := b.data.foldl byteStep 0xFFFFFFFF ^^^ 0xFFFFFFFF

end PETriage.Digest.Crc32
