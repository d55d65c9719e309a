import SpriteStage.Number.Binary

/-!
Lengths of time in whole nanoseconds.

Seconds given as a double are rounded to the nearest nanosecond, a half to the even one; negative
ones, and those from `2 ^ 64` seconds on, are refused. Clocks count milliseconds, so a wait ends at
the first whole millisecond that is not too early.
-/

namespace SpriteStage

structure Span where
  nanos : Nat
  deriving DecidableEq, Repr

namespace Span

def zero : Span :=
  ⟨0⟩

def longest : Span :=
  ⟨18446744073709551616 * 1000000000 - 1⟩

def ofMicros (n : Nat) : Span :=
  ⟨1000 * n⟩

def ofMillis (n : Nat) : Span :=
  ⟨1000000 * n⟩

/-- The span of a number of seconds. -/
def ofSeconds? (x : Float) : Option Span :=
  if x.isNaN || x < 0 || !(x < 18446744073709551616) then none
  else some ⟨(Number.magnitude x).scaled 1000000000⟩

def toSeconds (d : Span) : Float :=
  Float.ofNat (d.nanos / 1000000000) + Float.ofNat (d.nanos % 1000000000) / 1e9

/-- The least number of whole milliseconds that is not shorter. -/
def millisUp (d : Span) : Nat :=
  (d.nanos + 999999) / 1000000

end Span

end SpriteStage
