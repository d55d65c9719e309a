import SpriteStage.Archive.Directory
import SpriteStage.Archive.Inflate

/-!
Reading the files of an archive.

A file is first opened, which looks at how it is packed and finds its packed bytes; then it is
unpacked, and last the bytes are compared with the checksum in the directory.
-/

namespace SpriteStage.Archive

inductive ReadError where
  | badHeader
  | encrypted
  | ciphered
  | unknownMethod
  | damaged (damage : Damage)
  | badChecksum
  deriving DecidableEq, Repr

def Entry.dataStart? (data : ByteArray) (e : Entry) : Option Nat := do
  guard (hasSignature data 0x04034B50 e.start)
  let nameSize ← Bytes.word? data (e.start + 26) 2
  let extraSize ← Bytes.word? data (e.start + 28) 2
  return e.start + 30 + nameSize + extraSize

/-- The packed bytes of a file; fewer if the archive ends too early. -/
def Entry.packed (data : ByteArray) (e : Entry) : Except ReadError ByteArray := do
  if e.encrypted then throw .encrypted
  let some start := e.dataStart? data | throw .badHeader
  unless e.method = 0 ∨ e.method = 8 do throw .unknownMethod
  if e.ciphered then throw .ciphered
  return data.extract start (start + e.packedSize)

def Entry.unpack (e : Entry) (packed : ByteArray) : Except ReadError ByteArray :=
  if e.method = 0 then .ok packed else (inflate packed).mapError .damaged

def Entry.check (e : Entry) (bytes : ByteArray) : Except ReadError Unit :=
  if (crc32 bytes).toNat = e.checksum then .ok () else .error .badChecksum

/-- The bytes of a file that has been opened. -/
def Entry.read (e : Entry) (packed : ByteArray) : Except ReadError ByteArray := do
  let bytes ← e.unpack packed
  e.check bytes
  return bytes

end SpriteStage.Archive
