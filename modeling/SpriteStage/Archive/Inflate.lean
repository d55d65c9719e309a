import SpriteStage.Archive.PrefixCode

/-!
Inflating compressed data.

The data is a sequence of bits, the low bit of each byte first, cut into blocks: stored bytes, or
symbols in a fixed or a transmitted prefix code. A symbol is a byte, the end of the block, or a
length that, with a distance, repeats bytes already written.
-/

namespace SpriteStage.Archive

/-- The bits of a byte, low bit first. -/
def bitsOfByte (b : UInt8) : List Bool :=
  (List.range 8).map fun i => b.toNat.testBit i

def bitsOf (data : ByteArray) : List Bool :=
  data.toList.flatMap bitsOfByte

/-! ### Symbols -/

/-- The least length of each length symbol, and how many more bits add to it. -/
def lengthSteps : Array (Nat × Nat) :=
  #[(3, 0), (4, 0), (5, 0), (6, 0), (7, 0), (8, 0), (9, 0), (10, 0), (11, 1), (13, 1), (15, 1),
    (17, 1), (19, 2), (23, 2), (27, 2), (31, 2), (35, 3), (43, 3), (51, 3), (59, 3), (67, 4),
    (83, 4), (99, 4), (115, 4), (131, 5), (163, 5), (195, 5), (227, 5), (258, 0)]

/-- The least distance of each distance symbol, and how many more bits add to it. -/
def distanceSteps : Array (Nat × Nat) :=
  #[(1, 0), (2, 0), (3, 0), (4, 0), (5, 1), (7, 1), (9, 2), (13, 2), (17, 3), (25, 3), (33, 4),
    (49, 4), (65, 5), (97, 5), (129, 6), (193, 6), (257, 7), (385, 7), (513, 8), (769, 8),
    (1025, 9), (1537, 9), (2049, 10), (3073, 10), (4097, 11), (6145, 11), (8193, 12), (12289, 12),
    (16385, 13), (24577, 13)]

/-- A number given by a symbol and the bits that follow it. -/
def stepped (steps : Array (Nat × Nat)) (symbol : Nat) : BitReader Nat := do
  let some (least, more) := steps[symbol]? | throw .corrupt
  let extra ← BitReader.number more
  return least + extra

/-- Repeats bytes written `distance` before. What lies before the beginning are zeros. -/
def copyBack (distance : Nat) : Nat → ByteArray → ByteArray
  | 0, out => out
  | n + 1, out =>
    let b := if distance ≤ out.size then out[out.size - distance]?.getD 0 else 0
    copyBack distance n (out.push b)

/-- The symbols of a block up to its end, and what has been written then. -/
def readSymbols (literals distances : PrefixCode) : Nat → ByteArray → BitReader ByteArray
  | 0, _ => throw .cutOff
  | fuel + 1, out => do
    let symbol ← literals.read
    if symbol < 256 then readSymbols literals distances fuel (out.push (UInt8.ofNat symbol))
    else if symbol = 256 then return out
    else
      let length ← stepped lengthSteps (symbol - 257)
      let distance ← stepped distanceSteps (← distances.read)
      readSymbols literals distances fuel (copyBack distance length out)

/-! ### Codes -/

def fixedLiterals : List Nat :=
  List.replicate 144 8 ++ List.replicate 112 9 ++ List.replicate 24 7 ++ List.replicate 8 8

def fixedDistances : List Nat :=
  List.replicate 32 5

/-- The order in which the lengths of the code for code lengths are sent. -/
def lengthOrder : List Nat :=
  [16, 17, 18, 0, 8, 7, 9, 6, 10, 5, 11, 4, 12, 3, 13, 2, 14, 1, 15]

def readTriples : Nat → BitReader (List Nat)
  | 0 => return []
  | n + 1 => do
    let first ← BitReader.number 3
    let rest ← readTriples n
    return first :: rest

/-- Code lengths until there are `count` of them; the last one read stands first in `taken`. -/
def readLengths (code : PrefixCode) (count : Nat) : Nat → List Nat → BitReader (List Nat)
  | 0, _ => throw .cutOff
  | fuel + 1, taken => do
    if count < taken.length then throw .corrupt
    else if taken.length = count then return taken.reverse
    else
      let symbol ← code.read
      if symbol < 16 then readLengths code count fuel (symbol :: taken)
      else if symbol = 16 then
        let some last := taken.head? | throw .corrupt
        let extra ← BitReader.number 2
        readLengths code count fuel (List.replicate (3 + extra) last ++ taken)
      else if symbol = 17 then
        let extra ← BitReader.number 3
        readLengths code count fuel (List.replicate (3 + extra) 0 ++ taken)
      else
        let extra ← BitReader.number 7
        readLengths code count fuel (List.replicate (11 + extra) 0 ++ taken)

def codeOf (lengths : List Nat) : BitReader PrefixCode := do
  let some code := PrefixCode.ofLengths? lengths | throw .corrupt
  return code

/-- The code for code lengths, which must be full. -/
def lengthCodeOf (lengths : List Nat) : BitReader PrefixCode := do
  match ← codeOf lengths with
  | .full counts symbols => return .full counts symbols
  | _ => throw .corrupt

/-- The codes of literals and of distances at the head of a block that brings its own. -/
def readCodes : BitReader (PrefixCode × PrefixCode) := do
  let literalCount := (← BitReader.number 5) + 257
  let distanceCount := (← BitReader.number 5) + 1
  let tripleCount := (← BitReader.number 4) + 4
  if 286 < literalCount ∨ 30 < distanceCount then throw .corrupt
  let sent := lengthOrder.zip (← readTriples tripleCount)
  let code ← lengthCodeOf ((List.range 19).map fun symbol => (sent.lookup symbol).getD 0)
  let count := literalCount + distanceCount
  let lengths ← readLengths code count (count + 1) []
  let distances ← codeOf (lengths.drop literalCount)
  let literals ← codeOf (lengths.take literalCount)
  return (literals, distances)

/-! ### Blocks -/

def copyStored : Nat → ByteArray → BitReader ByteArray
  | 0, out => return out
  | n + 1, out => do copyStored n (out.push (UInt8.ofNat (← BitReader.number 8)))

/-- A block of stored bytes, which starts at a whole byte. -/
def readStored (out : ByteArray) : BitReader ByteArray := do
  modify fun bits => bits.drop (bits.length % 8)
  let length ← BitReader.number 16
  let check ← BitReader.number 16
  -- The length is sent a second time with all its bits turned round.
  if length + check = 65535 then copyStored length out else throw .corrupt

def readBlock (kind : Nat) (out : ByteArray) : BitReader ByteArray := do
  match kind with
  | 0 => readStored out
  | 1 =>
    let literals ← codeOf fixedLiterals
    let distances ← codeOf fixedDistances
    readSymbols literals distances ((← get).length + 1) out
  | 2 =>
    let (literals, distances) ← readCodes
    readSymbols literals distances ((← get).length + 1) out
  | _ => throw .corrupt

def readBlocks : Nat → ByteArray → BitReader ByteArray
  | 0, _ => throw .cutOff
  | fuel + 1, out => do
    let isLast ← BitReader.bit
    let out ← readBlock (← BitReader.number 2) out
    if isLast then return out else readBlocks fuel out

/-- The data that the compressed data stands for. Every block and every symbol takes a bit at least,
so the bounds on the recursion are never met. -/
def inflate (data : ByteArray) : Except Damage ByteArray :=
  let bits := bitsOf data
  (readBlocks (bits.length + 1) .empty).run' bits

end SpriteStage.Archive
