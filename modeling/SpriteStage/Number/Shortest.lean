import SpriteStage.Number.Binary

/-!
The fewest decimal digits that read back as the same double.

The numbers that round to a double form an interval around it, with its ends if the mantissa is
even. For one digit, two digits and so on the two neighbours of the double on that decimal grid are
tried; the first grid with a neighbour inside the interval gives the digits, the nearer one if both
are inside.
-/

namespace SpriteStage.Number

/-- The number `digits * 10 ^ exponent`. -/
structure Decimal where
  digits : Nat
  exponent : Int
  deriving DecidableEq, Repr

/-- The exponent of the leading decimal digit. -/
def leadingExponent (b : Binary) : Int :=
  let guess := (b.exponent + b.mantissa.log2) * 30103 / 100000
  let next := guess + 1
  let power := tenTo next.natAbs
  let reached :=
    if 0 ≤ b.exponent then
      if 0 ≤ next then decide (power ≤ b.mantissa * twoTo b.exponent.natAbs) else true
    else if 0 ≤ next then decide (power * twoTo b.exponent.natAbs ≤ b.mantissa)
    else decide (twoTo b.exponent.natAbs ≤ b.mantissa * power)
  if reached then next else guess

/-- A multiple of `10 ^ exponent` that rounds to the double, if the double's two neighbours among
those multiples hold one. -/
def neighbour (b : Binary) (exponent : Int) : Option Nat :=
  let scale := twoTo (b.exponent - 2).toNat * tenTo (-exponent).toNat
  let step := twoTo (2 - b.exponent).toNat * tenTo exponent.toNat
  let value := 4 * b.mantissa * scale
  let low := (4 * b.mantissa - if b.mantissa = twoTo 52 ∧ b.exponent ≠ -1074 then 1 else 2) * scale
  let high := (4 * b.mantissa + 2) * scale
  let inside (n : Nat) : Bool :=
    if b.mantissa % 2 = 0 then low ≤ n * step && n * step ≤ high
    else low < n * step && n * step < high
  let below := value / step
  let above := below + 1
  if inside below && inside above then
    some (if 2 * (value % step) ≤ step then below else above)
  else if inside below then some below
  else if inside above then some above
  else none

def Decimal.strip : Nat → Decimal → Decimal
  | 0, d => d
  | n + 1, d =>
    if d.digits ≠ 0 ∧ d.digits % 10 = 0 then strip n ⟨d.digits / 10, d.exponent + 1⟩ else d

/-- The shortest decimal that reads back as the double of this size; seventeen digits always do. -/
def shortest (b : Binary) : Decimal :=
  let lead := leadingExponent b
  let found := (List.range 17).findSome? fun (n : Nat) =>
    (neighbour b (lead - n)).map fun digits => Decimal.strip 17 ⟨digits, lead - n⟩
  found.getD ⟨0, 0⟩

end SpriteStage.Number
