import SpriteStage.Bytes
import SpriteStage.Text.Utf8

/-!
The files of an archive, as its directory lists them.
-/

namespace SpriteStage.Archive

/-- A file of an archive, as the directory describes it. -/
structure Entry where
  name : String
  rawName : ByteArray
  comment : String
  encrypted : Bool
  /-- Is the file under a cipher that a further field describes? -/
  ciphered : Bool
  method : Nat
  checksum : Nat
  size : Nat
  packedSize : Nat
  /-- Where the file's own header begins. -/
  start : Nat

/-- The method that stands for a cipher; the true one is in a further field. -/
def cipherMethod : Nat :=
  99

/-- The number in a narrow field that sends the reader to a wide one. -/
def elsewhere : Nat :=
  0xFFFFFFFF

/-- The upper half of the old character set of archives. -/
def oldCharacters : List Char :=
  ("ÇüéâäàåçêëèïîìÄÅÉæÆôöòûùÿÖÜ¢£¥₧ƒáíóúñÑªº¿⌐¬½¼¡«»" ++
    "░▒▓│┤╡╢╖╕╣║╗╝╜╛┐└┴┬├─┼╞╟╚╔╩╦╠═╬╧╨╤╥╙╘╒╓╫╪┘┌█▄▌▐▀" ++
    "αßΓπΣσµτΦΘΩδ∞φε∩≡±≥≤⌠⌡÷≈°∙·√ⁿ²■\u00A0").toList

def oldText (data : ByteArray) : String :=
  String.ofList (data.toList.map fun b =>
    if b.toNat < 128 then Char.ofNat b.toNat else (oldCharacters[b.toNat - 128]?).getD ' ')

/-- A text of the directory: UTF-8 if the flags say so, else the old character set. -/
def entryText (flags : Nat) (data : ByteArray) : String :=
  if flags.testBit 11 then Text.lossyText data else oldText data

/-- The bytes of an entry of the directory that come before its name. -/
def entrySize : Nat :=
  46

/-- The entry of the directory at a place, its further fields, and where the next entry begins. -/
def entryAt? (data : ByteArray) (place : Nat) : Option (Entry × ByteArray × Nat) := do
  let signature ← Bytes.word? data place 4
  guard (signature = 0x02014B50)
  let flags ← Bytes.word? data (place + 8) 2
  let nameSize ← Bytes.word? data (place + 28) 2
  let extraSize ← Bytes.word? data (place + 30) 2
  let commentSize ← Bytes.word? data (place + 32) 2
  let name ← Bytes.slice? data (place + entrySize) nameSize
  let extra ← Bytes.slice? data (place + entrySize + nameSize) extraSize
  let comment ← Bytes.slice? data (place + entrySize + nameSize + extraSize) commentSize
  let entry : Entry := {
    name := entryText flags name
    rawName := name
    comment := entryText flags comment
    encrypted := flags.testBit 0
    ciphered := false
    method := ← Bytes.word? data (place + 10) 2
    checksum := ← Bytes.word? data (place + 16) 4
    size := ← Bytes.word? data (place + 24) 4
    packedSize := ← Bytes.word? data (place + 20) 4
    start := ← Bytes.word? data (place + 42) 4 }
  return (entry, extra, place + entrySize + nameSize + extraSize + commentSize)

end SpriteStage.Archive
