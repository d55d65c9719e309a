import SpriteStage.Number.Reader

/-!
The doubles that decimals in JSON stand for.

A decimal is cut to a significand of 64 bits and a power of ten, and the one is scaled by the other
in double arithmetic. For up to fifteen digits and small powers the result is the nearest double;
beyond that it may differ in the last place.
-/

namespace SpriteStage.Json

/-- Appends digits to a significand as long as it fits 64 bits; the second part of the answer is how
many digits went in. -/
def appendDigits (significand : Nat) : List Char → Nat × Nat
  | [] => (significand, 0)
  | c :: rest =>
    let next := 10 * significand + Number.digitsValue [c]
    if next < 18446744073709551616 then
      let (result, count) := appendDigits next rest
      (result, count + 1)
    else (significand, 0)

/-- The largest power of ten that is scaled by at once. -/
def largestPower : Nat :=
  308

def powerOfTen (n : Nat) : Float :=
  Float.ofScientific 1 false n

def scaleDown (x : Float) (places : Nat) : Float :=
  if places ≤ largestPower then x / powerOfTen places
  else if x == 0 then x
  else scaleDown (x / powerOfTen largestPower) (places - largestPower)
termination_by places
decreasing_by
  simp only [largestPower] at *
  omega

/-- The double times a power of ten, unless it is too large. -/
def scaleUp (x : Float) (n : Nat) : Option Float :=
  if n ≤ largestPower then
    let y := x * powerOfTen n
    if y.isInf then none else some y
  else if x == 0 then some x
  else none

/-- The size of a decimal: its digits before and behind the point, and its power of ten. -/
def decimalSize? (whole places : List Char) (power : Int) : Option Float :=
  let (significand, count) := appendDigits 0 whole
  let (significand, more) := appendDigits significand places
  let exponent : Int := (whole.length - count : Nat) - more + power
  let x := Number.ofDecimal false significand 0
  if exponent < 0 then some (scaleDown x exponent.natAbs) else scaleUp x exponent.natAbs

def decimal? (negative : Bool) (whole places : List Char) (power : Int) : Option Float :=
  (decimalSize? whole places power).map fun x => if negative then -x else x

end SpriteStage.Json
