/-!
The cyclic checksum of 32 bits that guards the files of an archive.
-/

namespace SpriteStage.Archive

/-- One bit of the division by the generator polynomial. -/
def crcStep (crc : UInt32) : UInt32 :=
  if crc &&& 1 = 1 then (crc >>> 1) ^^^ 0xEDB88320 else crc >>> 1

def crcSteps : Nat → UInt32 → UInt32
  | 0, crc => crc
  | n + 1, crc => crcSteps n (crcStep crc)

def crc32 (data : ByteArray) : UInt32 :=
  data.foldl (fun crc b => crcSteps 8 (crc ^^^ b.toUInt32)) 0xFFFFFFFF ^^^ 0xFFFFFFFF

end SpriteStage.Archive
