import SpriteStage.Number.Shortest

/-!
Numbers as text.

Three layouts of a double: `plain` never uses an exponent, `exponential` is positional from
`10 ^ -5` to below `10 ^ 16` and scientific outside, and `rounded` is what scripts see: whole
numbers without a point, others with at most ten places.
-/

namespace SpriteStage.Number

def digitsOf (n : Nat) : List Char :=
  Nat.toDigits 10 n

/-- The digits with zeros in front up to the given width. -/
def padded (width : Nat) (n : Nat) : List Char :=
  let digits := digitsOf n
  List.replicate (width - digits.length) '0' ++ digits

/-- Positional digits of `d`; `point` asks for at least one place behind the point. -/
def positional (d : Decimal) (point : Bool) : List Char :=
  let digits := digitsOf d.digits
  match d.exponent with
  | .ofNat e => digits ++ List.replicate e '0' ++ if point then ['.', '0'] else []
  | .negSucc e =>
    let places := e + 1
    let all := List.replicate (places + 1 - digits.length) '0' ++ digits
    all.take (all.length - places) ++ '.' :: all.drop (all.length - places)

/-- Scientific digits of `d`: one digit, the others behind a point, and a signed exponent. -/
def scientific (d : Decimal) : List Char :=
  match digitsOf d.digits with
  | [] => []
  | first :: rest =>
    let exponent := d.exponent + rest.length
    first :: (if rest.isEmpty then [] else '.' :: rest) ++
      'e' :: (if exponent < 0 then '-' else '+') :: digitsOf exponent.natAbs

def signOf (x : Float) : List Char :=
  if isNegative x then ['-'] else []

/-- The shortest digits that read back, without an exponent. -/
def plain (x : Float) : String :=
  if x.isNaN then "NaN"
  else if x.isInf then (if x < 0 then "-inf" else "inf")
  else
    String.ofList (signOf x ++
      if x == 0 then ['0'] else positional (shortest (magnitude x)) false)

/-- The shortest digits that read back, as finite numbers are written in JSON. -/
def exponential (x : Float) : String :=
  let body :=
    if x == 0 then ['0', '.', '0']
    else
      let d := shortest (magnitude x)
      let lead := d.exponent + ((digitsOf d.digits).length - 1 : Nat)
      if -5 ≤ lead ∧ lead ≤ 15 then positional d true else scientific d
  String.ofList (signOf x ++ body)

/-- Ten places of the exact value, a half going to the even digit, without the zeros at the end. -/
def tenPlaces (x : Float) : List Char :=
  let units := (magnitude x).scaled (tenTo 10)
  let whole := digitsOf (units / tenTo 10)
  let places := ((padded 10 (units % tenTo 10)).reverse.dropWhile (· == '0')).reverse
  signOf x ++ whole ++ if places.isEmpty then [] else '.' :: places

/-- A number as scripts and players see it. -/
def rounded (x : Float) : String :=
  if x.isInf then (if x > 0 then "Infinity" else "-Infinity")
  else if (x - x.round).abs < 1e-9 && x.abs < 1e15 then toString x.round.toInt64.toInt
  else if x.isNaN then "NaN"
  else String.ofList (tenPlaces x)

end SpriteStage.Number
