/-!
The random source: a 64-bit state moved on by a fixed step, and a mixing of it into each draw. Equal
seeds give equal draws.
-/

namespace SpriteStage

structure SplitMix where
  state : UInt64
  deriving DecidableEq, Repr

namespace SplitMix

/-- What the state moves by at each draw. -/
def step : UInt64 :=
  0x9E3779B97F4A7C15

/-- The source of a seed; the seed zero stands for another. -/
def ofSeed (seed : UInt64) : SplitMix :=
  ⟨if seed = 0 then step else seed⟩

/-- The draw of a state. -/
def mix (z : UInt64) : UInt64 :=
  let z := (z ^^^ (z >>> 30)) * 0xBF58476D1CE4E5B9
  let z := (z ^^^ (z >>> 27)) * 0x94D049BB133111EB
  z ^^^ (z >>> 31)

def draw (r : SplitMix) : UInt64 × SplitMix :=
  let state := r.state + step
  (mix state, ⟨state⟩)

/-- Draws a number from zero up to, not including, one. -/
def drawUnit (r : SplitMix) : Float × SplitMix :=
  let (bits, r) := r.draw
  ((bits >>> 11).toFloat * (1 / 9007199254740992), r)

/-- Draws a whole number between two bounds, both included. -/
def drawBetween (r : SplitMix) (low high : Int64) : Int64 × SplitMix :=
  let span := (high - low).toUInt64 + 1
  let (bits, r) := r.draw
  (low + (bits % span).toInt64, r)

end SplitMix

end SpriteStage
