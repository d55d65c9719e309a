import SpriteStage.Text.CaseTable

/-!
Small letters.

`lower` writes a text in small letters by the full Unicode rules: most capitals have one small
form, the capital I with a dot becomes two characters, and a capital sigma that ends a word becomes
the final sigma. `equalFold` compares texts without regard to the case of the letters A to Z only.
-/

namespace SpriteStage.Text

/-- The code point of the small form, for the capitals that have one. -/
def lowerPoint (n : Nat) : Nat :=
  match lowerRuns.find? (·.covers n) with
  | some run => (Int.ofNat n + run.shift).toNat
  | none => n

/-- The small form of a character that stands alone. -/
def lowerChar (c : Char) : List Char :=
  if c.toNat < 0x80 then [c.toLower]
  else if c = 'İ' then ['i', '\u0307']
  else [Char.ofNat (lowerPoint c.toNat)]

/-- Is the next character, past those that do not end a word, a letter with case? -/
def meetsLetter (cs : List Char) : Bool :=
  match cs.dropWhile fun c => inRuns ignorableRuns c.toNat with
  | [] => false
  | c :: _ => inRuns casedRuns c.toNat

/-- A sigma ends a word if a letter stands before it and none behind it. -/
def lowerSigma (before after : List Char) : Char :=
  if meetsLetter before && !meetsLetter after then 'ς' else 'σ'

/-- The small form of the characters, where `before` holds those already passed, last one first. -/
def lowerFrom (before : List Char) : List Char → List Char
  | [] => []
  | c :: rest =>
    (if c = 'Σ' then [lowerSigma before rest] else lowerChar c) ++ lowerFrom (c :: before) rest

def lower (s : String) : String :=
  String.ofList (lowerFrom [] s.toList)

/-- Equality up to the case of the letters A to Z. -/
def equalFold (s t : String) : Bool :=
  s.toList.map Char.toLower == t.toList.map Char.toLower

end SpriteStage.Text
