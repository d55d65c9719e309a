/-!
The message digest of 128 bits by which assets are named.
-/

namespace SpriteStage.Media

/-- The four words of the digest. -/
structure Digest where
  a : UInt32
  b : UInt32
  c : UInt32
  d : UInt32
  deriving DecidableEq, Repr

/-- The constant that each of the 64 steps adds: the fraction of a sine, 32 bits of it. -/
def stepConstants : Array UInt32 :=
  #[0xD76AA478, 0xE8C7B756, 0x242070DB, 0xC1BDCEEE, 0xF57C0FAF, 0x4787C62A,
    0xA8304613, 0xFD469501, 0x698098D8, 0x8B44F7AF, 0xFFFF5BB1, 0x895CD7BE,
    0x6B901122, 0xFD987193, 0xA679438E, 0x49B40821, 0xF61E2562, 0xC040B340,
    0x265E5A51, 0xE9B6C7AA, 0xD62F105D, 0x02441453, 0xD8A1E681, 0xE7D3FBC8,
    0x21E1CDE6, 0xC33707D6, 0xF4D50D87, 0x455A14ED, 0xA9E3E905, 0xFCEFA3F8,
    0x676F02D9, 0x8D2A4C8A, 0xFFFA3942, 0x8771F681, 0x6D9D6122, 0xFDE5380C,
    0xA4BEEA44, 0x4BDECFA9, 0xF6BB4B60, 0xBEBFBC70, 0x289B7EC6, 0xEAA127FA,
    0xD4EF3085, 0x04881D05, 0xD9D4D039, 0xE6DB99E5, 0x1FA27CF8, 0xC4AC5665,
    0xF4292244, 0x432AFF97, 0xAB9423A7, 0xFC93A039, 0x655B59C3, 0x8F0CCC92,
    0xFFEFF47D, 0x85845DD1, 0x6FA87E4F, 0xFE2CE6E0, 0xA3014314, 0x4E0811A1,
    0xF7537E82, 0xBD3AF235, 0x2AD7D2BB, 0xEB86D391]

/-- How far each step rotates, by its round and its place in a group of four. -/
def rotation (i : Nat) : UInt32 :=
  let amounts : List UInt32 :=
    match i / 16 with
    | 0 => [7, 12, 17, 22]
    | 1 => [5, 9, 14, 20]
    | 2 => [4, 11, 16, 23]
    | _ => [6, 10, 15, 21]
  amounts.getD (i % 4) 0

def rotateLeft (x n : UInt32) : UInt32 :=
  (x <<< n) ||| (x >>> (32 - n))

def Digest.step (words : Array UInt32) (h : Digest) (i : Nat) : Digest :=
  let (f, g) :=
    match i / 16 with
    | 0 => ((h.b &&& h.c) ||| (~~~h.b &&& h.d), i)
    | 1 => ((h.d &&& h.b) ||| (~~~h.d &&& h.c), (5 * i + 1) % 16)
    | 2 => (h.b ^^^ h.c ^^^ h.d, (3 * i + 5) % 16)
    | _ => (h.c ^^^ (h.b ||| ~~~h.d), 7 * i % 16)
  let sum := h.a + f + stepConstants.getD i 0 + words.getD g 0
  ⟨h.d, h.b + rotateLeft sum (rotation i), h.b, h.c⟩

def Digest.block (h : Digest) (words : Array UInt32) : Digest :=
  let r := (List.range 64).foldl (Digest.step words) h
  ⟨h.a + r.a, h.b + r.b, h.c + r.c, h.d + r.d⟩

/-- A number as `n` bytes, the low one first. -/
def lowBytes : Nat → Nat → List UInt8
  | 0, _ => []
  | n + 1, value => UInt8.ofNat value :: lowBytes n (value / 256)

/-- The data filled up to whole blocks of 64 bytes: a mark, zeros, and its length in bits. -/
def padded (data : ByteArray) : List UInt8 :=
  let size := data.size
  data.toList ++ 0x80 :: List.replicate ((119 - size % 64) % 64) 0 ++
    lowBytes 8 (8 * size % 18446744073709551616)

/-- Bytes by fours as words, the low byte first. -/
def wordsOf : List UInt8 → List UInt32
  | a :: b :: c :: d :: rest =>
    (a.toUInt32 ||| (b.toUInt32 <<< 8) ||| (c.toUInt32 <<< 16) ||| (d.toUInt32 <<< 24)) ::
      wordsOf rest
  | _ => []

def Digest.blocks : Nat → Digest → List UInt32 → Digest
  | 0, h, _ => h
  | n + 1, h, words => Digest.blocks n (h.block (words.take 16).toArray) (words.drop 16)

def digestText (data : ByteArray) : String :=
  let words := wordsOf (padded data)
  let start : Digest := ⟨0x67452301, 0xEFCDAB89, 0x98BADCFE, 0x10325476⟩
  let h := Digest.blocks (words.length / 16) start words
  let bytes := [h.a, h.b, h.c, h.d].flatMap fun w => lowBytes 4 w.toNat
  String.ofList (bytes.flatMap fun b =>
    [Nat.digitChar (b.toNat / 16), Nat.digitChar (b.toNat % 16)])

end SpriteStage.Media
