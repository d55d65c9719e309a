import SpriteStage.Number.Layout
import SpriteStage.Text.Blank

/-!
Reading numbers from text.

`ofDecimal` gives the double nearest to a decimal. `readDouble` accepts digits with an optional
sign, point and exponent, and the words `inf`, `infinity` and `nan` in any case. `readNumber` is the
rule for the text of a script's value: blanks around it are ignored, `0x` starts a hexadecimal
integer of 64 bits, and what is not a number has no value.
-/

namespace SpriteStage.Number

def digitValue (c : Char) : Nat :=
  c.toNat - '0'.toNat

def digitsValue (cs : List Char) : Nat :=
  cs.foldl (fun n c => 10 * n + digitValue c) 0

/-- The double nearest to `mantissa * 10 ^ exponent`. Exponents far outside the range of doubles are
settled first, so that no huge power is formed. -/
def ofDecimal (negative : Bool) (mantissa : Nat) (exponent : Int) : Float :=
  let size : Float :=
    if mantissa = 0 then 0
    else if 400 < exponent then 1 / 0
    else if exponent < -400 - mantissa.log2 then 0
    else Float.ofScientific mantissa (exponent < 0) exponent.natAbs
  if negative then -size else size

def takeSign : List Char → Bool × List Char
  | '-' :: rest => (true, rest)
  | '+' :: rest => (false, rest)
  | cs => (false, cs)

/-- The exponent after the digits; nothing else may follow. -/
def readExponent : List Char → Option Int
  | [] => some 0
  | c :: rest =>
    if c = 'e' ∨ c = 'E' then
      let (negative, digits) := takeSign rest
      if digits.isEmpty || !digits.all Char.isDigit then none
      else some (if negative then -(digitsValue digits : Int) else digitsValue digits)
    else none

/-- The exponent behind a point and its places; nothing else may follow. -/
def readUnsigned (negative : Bool) (cs : List Char) : Option Float :=
  let whole := cs.takeWhile Char.isDigit
  let (places, rest) :=
    match cs.dropWhile Char.isDigit with
    | '.' :: rest => (rest.takeWhile Char.isDigit, rest.dropWhile Char.isDigit)
    | rest => ([], rest)
  if whole.isEmpty && places.isEmpty then none
  else
    (readExponent rest).map fun exponent =>
      ofDecimal negative (digitsValue (whole ++ places)) (exponent - places.length)

def readDouble (cs : List Char) : Option Float :=
  let (negative, body) := takeSign cs
  let word := String.ofList (body.map Char.toLower)
  if word = "inf" ∨ word = "infinity" then some (if negative then -1 / 0 else 1 / 0)
  else if word = "nan" then some (0 / 0)
  else readUnsigned negative body

def hexValue? (c : Char) : Option Nat :=
  if '0' ≤ c ∧ c ≤ '9' then some (c.toNat - '0'.toNat)
  else if 'a' ≤ c ∧ c ≤ 'f' then some (c.toNat - 'a'.toNat + 10)
  else if 'A' ≤ c ∧ c ≤ 'F' then some (c.toNat - 'A'.toNat + 10)
  else none

/-- The number written by hexadecimal digits, at least one. -/
def readHexDigits (cs : List Char) : Option Nat :=
  if cs.isEmpty then none
  else cs.foldlM (fun n c => (hexValue? c).map (16 * n + ·)) 0

/-- A signed hexadecimal integer of 64 bits. -/
def readHex (cs : List Char) : Option Int :=
  let (negative, body) := takeSign cs
  (readHexDigits body).bind fun n =>
    let value : Int := if negative then -n else n
    if -9223372036854775808 ≤ value ∧ value < 9223372036854775808 then some value else none

def readNumber (s : String) : Option Float :=
  match Text.trimmed s.toList with
  | '0' :: 'x' :: hex => (readHex hex).map Float.ofInt
  | cs => (readDouble cs).filter (!·.isNaN)

end SpriteStage.Number
