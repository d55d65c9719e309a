/-!
Character classes of markup.

Which characters a document may hold depends on its version. The newer version allows control
characters, but only by reference or in comments, instructions and character data.
-/

namespace SpriteStage.Media.Markup

/-- Characters between the parts of a tag. -/
def isGap (c : Char) : Bool :=
  c == ' ' || c == '\n' || c == '\t' || c == '\r'

def isNameStart (c : Char) : Bool :=
  let n := c.toNat
  c == ':' || c == '_' || c.isAlpha || (0xC0 ≤ n && n ≤ 0xD6) || (0xD8 ≤ n && n ≤ 0xF6) ||
    (0xF8 ≤ n && n ≤ 0x2FF) || (0x370 ≤ n && n ≤ 0x37D) || (0x37F ≤ n && n ≤ 0x1FFF) ||
    (0x200C ≤ n && n ≤ 0x200D) || (0x2070 ≤ n && n ≤ 0x218F) || (0x2C00 ≤ n && n ≤ 0x2FEF) ||
    (0x3001 ≤ n && n ≤ 0xD7FF) || (0xF900 ≤ n && n ≤ 0xFDCF) || (0xFDF0 ≤ n && n ≤ 0xFFFD) ||
    (0x10000 ≤ n && n ≤ 0xEFFFF)

def isNameChar (c : Char) : Bool :=
  let n := c.toNat
  isNameStart c || c == '-' || c == '.' || c.isDigit || n == 0xB7 || (0x300 ≤ n && n ≤ 0x36F) ||
    (0x203F ≤ n && n ≤ 0x2040)

inductive Version where
  | older
  | newer
  deriving DecidableEq, Repr

/-- Is the code point one that no version gives to a character? -/
def isNonCharacter (c : Char) : Bool :=
  c.toNat == 0xFFFE || c.toNat == 0xFFFF

/-- Characters that may occur in a document in some way. -/
def Version.allows (v : Version) (c : Char) : Bool :=
  match v with
  | .older => isGap c || (0x20 ≤ c.toNat && !isNonCharacter c)
  | .newer => c.toNat != 0 && !isNonCharacter c

/-- Characters that may stand in text and in the values of attributes as they are. -/
def Version.allowsPlain (v : Version) (c : Char) : Bool :=
  v.allows c &&
    match v with
    | .older => true
    | .newer =>
      isGap c || c.toNat == 0x85 || (0x20 ≤ c.toNat && !(0x7F ≤ c.toNat && c.toNat ≤ 0x9F))

end SpriteStage.Media.Markup
