import SpriteStage.Bytes

/-!
The size of a bitmap, from its header.
-/

namespace SpriteStage.Media

def pngSignature : List UInt8 :=
  [0x89, 0x50, 0x4E, 0x47, 0x0D, 0x0A, 0x1A, 0x0A]

/-- Width and height of a bitmap in pixels. -/
def pngSize? (data : ByteArray) : Option (Float × Float) := do
  guard (Bytes.startsWith data pngSignature)
  let chunk ← Bytes.bigWord? data 12 4
  guard (chunk = 0x49484452)
  let width ← Bytes.bigWord? data 16 4
  let height ← Bytes.bigWord? data 20 4
  return (Float.ofNat width, Float.ofNat height)

end SpriteStage.Media
