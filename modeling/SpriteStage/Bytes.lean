/-!
Reading numbers and texts from bytes.
-/

namespace SpriteStage.Bytes

/-- The number that bytes make, the low one first. -/
def lowFirst (bytes : List UInt8) : Nat :=
  bytes.foldr (fun b high => b.toNat + 256 * high) 0

def highFirst (bytes : List UInt8) : Nat :=
  lowFirst bytes.reverse

/-- Some bytes from a place on, if they are all there. -/
def slice? (data : ByteArray) (start length : Nat) : Option ByteArray :=
  if start + length ≤ data.size then some (data.extract start (start + length)) else none

/-- A number of some bytes from a place on, the low one first. -/
def word? (data : ByteArray) (start width : Nat) : Option Nat :=
  (slice? data start width).map fun bytes => lowFirst bytes.toList

def bigWord? (data : ByteArray) (start width : Nat) : Option Nat :=
  (slice? data start width).map fun bytes => highFirst bytes.toList

def startsWith (data : ByteArray) (bytes : List UInt8) : Bool :=
  bytes.isPrefixOf (data.extract 0 bytes.length).toList

/-- The text of UTF-8 bytes. -/
def text? (data : ByteArray) : Option String :=
  String.fromUTF8? data

end SpriteStage.Bytes
