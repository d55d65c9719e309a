/-!
Doubles as exact numbers.

The size of a finite double is `mantissa * 2 ^ exponent`. `magnitude` reads it off the bits,
`nearest` goes back and rounds to the nearest double, a half to the even one. Remainders are
computed on the exact sizes, so each is rounded at most once. The length of a vector is computed in
doubles and may be off by one in the last place.
-/

namespace SpriteStage.Number

def twoTo (n : Nat) : Nat :=
  Nat.pow 2 n

def tenTo (n : Nat) : Nat :=
  Nat.pow 10 n

/-- The number `mantissa * 2 ^ exponent`. -/
structure Binary where
  mantissa : Nat
  exponent : Int
  deriving DecidableEq, Repr

/-- The sign bit, which also a zero has. -/
def isNegative (x : Float) : Bool :=
  twoTo 63 ≤ x.toBits.toNat

/-- A whole number that orders all doubles, negative zero below zero. -/
def orderKey (x : Float) : Int :=
  let bits := x.toBits.toNat
  if isNegative x then -1 - Int.ofNat (bits - twoTo 63) else Int.ofNat bits

def magnitude (x : Float) : Binary :=
  let bits := x.toBits.toNat
  let field : Nat := bits / twoTo 52 % twoTo 11
  let fraction : Nat := bits % twoTo 52
  if field = 0 then ⟨fraction, -1074⟩ else ⟨twoTo 52 + fraction, (field : Int) - 1075⟩

/-- The quotient rounded to the nearest whole number, a half to the even one. -/
def roundDiv (num den : Nat) : Nat :=
  let q := num / den
  let r := num % den
  if 2 * r < den ∨ (2 * r = den ∧ q % 2 = 0) then q else q + 1

/-- Rounding never strays further than half the divisor. -/
theorem roundDiv_near (num : Nat) {den : Nat} (h : 0 < den) :
    2 * num ≤ 2 * (den * roundDiv num den) + den ∧
      2 * (den * roundDiv num den) ≤ 2 * num + den := by
  have hdm := Nat.div_add_mod num den
  have hlt := Nat.mod_lt num h
  unfold roundDiv
  simp only
  split
  · omega
  · rw [Nat.mul_add]
    omega

namespace Binary

/-- The nearest whole number to `k` times the size, a half going to the even one. -/
def scaled (b : Binary) (k : Nat) : Nat :=
  match b.exponent with
  | .ofNat e => b.mantissa * twoTo e * k
  | .negSucc e => roundDiv (b.mantissa * k) (twoTo (e + 1))

def isWhole (b : Binary) : Bool :=
  match b.exponent with
  | .ofNat _ => true
  | .negSucc e => b.mantissa % twoTo (e + 1) == 0

/-- The mantissa that the number has at a lower exponent. -/
def mantissaAt (b : Binary) (exponent : Int) : Nat :=
  b.mantissa * twoTo (b.exponent - exponent).toNat

/-- The double nearest to the size, a half going to the even one. -/
def nearest (b : Binary) (negative : Bool) : Float :=
  let sign := if negative then twoTo 63 else 0
  if b.mantissa = 0 then Float.ofBits (UInt64.ofNat sign)
  else
    let exponent := max (b.exponent + b.mantissa.log2 - 52) (-1074)
    let mantissa :=
      if b.exponent < exponent then
        roundDiv b.mantissa (twoTo (exponent - b.exponent).toNat)
      else b.mantissaAt exponent
    let bits := (exponent + 1074).toNat * twoTo 52 + mantissa
    Float.ofBits (UInt64.ofNat (sign + min bits 0x7FF0000000000000))

end Binary

def isWhole (x : Float) : Bool :=
  x.isFinite && (magnitude x).isWhole

/-- The double without its fractional part as a signed number of 64 bits, the nearest one if it is out
of their range. -/
def toInt64 (x : Float) : Int64 :=
  x.toModel.toInt64

/-- The double nearest to a signed number of 64 bits, a half going to the even one. -/
def ofInt64 (n : Int64) : Float :=
  .ofModel (.ofInt64 n)

/-- What is left of `a` after taking `b` away as often as it fits; it has the sign of `a`. -/
def remainder (a b : Float) : Float :=
  if a.isNaN || b.isNaN || a.isInf || b == 0 then 0 / 0
  else if b.isInf then a
  else
    let p := magnitude a
    let q := magnitude b
    let exponent := min p.exponent q.exponent
    Binary.nearest ⟨p.mantissaAt exponent % q.mantissaAt exponent, exponent⟩ (isNegative a)

/-- The remainder moved up to be non-negative. -/
def modulo (a b : Float) : Float :=
  let r := remainder a b
  if r < 0 then r + b.abs else r

/-- The root of `a * a + b * b` for `0 ≤ b ≤ a`, mended by one step of Newton's method. What the
squares miss is computed from the differences to the first root, so that little is lost. -/
def mendedRoot (a b : Float) : Float :=
  let root := Float.sqrt (a * a + b * b)
  let excess :=
    if root ≤ 2 * b then
      let d := root - b
      a * (2 * d - a) + (d - 2 * (a - b)) * d
    else
      let d := root - a
      2 * d * (a - 2 * b) + ((4 * d - b) * b + d * d)
  root - excess / (2 * root)

/-- A factor by which the squares of very long and of very short sides come into range: the power of
two with the exponent -600. -/
def rangeFactor : Float :=
  Float.ofBits 0x1A70000000000000

/-- A quarter of a unit in the last place of one: the power of two with the exponent -54. -/
def lastPlace : Float :=
  Float.ofBits 0x3C90000000000000

/-- The length of the vector with the sides `a` and `b`, for `0 ≤ b ≤ a`. A side that is too short
to matter is only added; sides beyond the powers of two with the exponents 511 and -459 are brought
into range. -/
def lengthOfSides (a b : Float) : Float :=
  if Float.ofBits 0x5FE0000000000000 < a then
    if b ≤ a * lastPlace then a + b
    else mendedRoot (a * rangeFactor) (b * rangeFactor) / rangeFactor
  else if b < Float.ofBits 0x2340000000000000 then
    if b / lastPlace ≤ a then a + b
    else mendedRoot (a / rangeFactor) (b / rangeFactor) * rangeFactor
  else if b ≤ a * lastPlace then a + b
  else mendedRoot a b

def hypot (x y : Float) : Float :=
  if x.isInf || y.isInf then 1 / 0
  else if x.isNaN || y.isNaN then 0 / 0
  else if x.abs < y.abs then lengthOfSides y.abs x.abs
  else lengthOfSides x.abs y.abs

end SpriteStage.Number
