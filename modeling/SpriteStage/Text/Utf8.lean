/-!
Characters in UTF-8.

`firstChar` reads the character at the head of a list of bytes. `lossyText` reads a whole text and
puts the replacement character in the place of every longest run of bytes that begins a character
and does not complete it.
-/

namespace SpriteStage.Text

/-- The first byte of a character: its share of the code point, how many bytes follow, and the
bounds of the first of them. The bounds leave out code points that fewer bytes could hold,
surrogates, and what lies beyond the last code point. -/
structure LeadByte where
  share : Nat
  following : Nat
  low : Nat
  high : Nat
  deriving DecidableEq, Repr

/-- What a byte says as the first one of a character. -/
def leadByte? (b : Nat) : Option LeadByte :=
  if b < 0x80 then some ⟨b, 0, 0, 0⟩
  else if b < 0xC2 then none
  else if b < 0xE0 then some ⟨b - 0xC0, 1, 0x80, 0xBF⟩
  else if b < 0xF0 then
    some ⟨b - 0xE0, 2, if b = 0xE0 then 0xA0 else 0x80, if b = 0xED then 0x9F else 0xBF⟩
  else if b < 0xF5 then
    some ⟨b - 0xF0, 3, if b = 0xF0 then 0x90 else 0x80, if b = 0xF4 then 0x8F else 0xBF⟩
  else none

/-- The code point of `n` more bytes, and how many bytes fit. -/
def followingBytes (share low high : Nat) : Nat → List UInt8 → Option Nat × Nat
  | 0, _ => (some share, 0)
  | _ + 1, [] => (none, 0)
  | n + 1, b :: rest =>
    if low ≤ b.toNat ∧ b.toNat ≤ high then
      let (point, taken) := followingBytes (64 * share + (b.toNat - 0x80)) 0x80 0xBF n rest
      (point, taken + 1)
    else (none, 0)

/-- The character that begins with a byte, and how many bytes behind it belong to it. -/
def firstChar (b : UInt8) (rest : List UInt8) : Option Char × Nat :=
  match leadByte? b.toNat with
  | none => (none, 0)
  | some lead =>
    let (point, taken) := followingBytes lead.share lead.low lead.high lead.following rest
    (point.map Char.ofNat, taken)

/-- The characters of the bytes, with the replacement character for what is no character. -/
def lossyChars : List UInt8 → List Char
  | [] => []
  | b :: rest =>
    let (c, taken) := firstChar b rest
    c.getD '�' :: lossyChars (rest.drop taken)
termination_by bytes => bytes.length
decreasing_by
  simp only [List.length_drop, List.length_cons]
  omega

def lossyText (data : ByteArray) : String :=
  String.ofList (lossyChars data.toList)

end SpriteStage.Text
