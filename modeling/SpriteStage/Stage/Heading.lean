import SpriteStage.Number.Binary
import SpriteStage.Stage.Geometry

/-!
Directions and distances.

Directions are in degrees, 0 up and 90 to the right. Sines and cosines are rounded to ten places, so
that those of the right angles are exact.
-/

namespace SpriteStage.Stage

def pi : Float :=
  3.141592653589793

def toRadians (degrees : Float) : Float :=
  degrees * pi / 180

def toDegrees (radians : Float) : Float :=
  radians * 180 / pi

/-- The number rounded to ten places. -/
def snap (x : Float) : Float :=
  (x * 1e10).round / 1e10

def sine (degrees : Float) : Float :=
  snap (toRadians degrees).sin

def cosine (degrees : Float) : Float :=
  snap (toRadians degrees).cos

/-- The tangent of an angle in degrees, infinite where it has a pole. -/
def tangent (degrees : Float) : Float :=
  let turn := Number.modulo degrees 360
  if turn == 90 then 1 / 0
  else if turn == 270 then -1 / 0
  else snap (toRadians degrees).tan

/-- A direction between -180, not included, and 180. -/
def wrapDirection (degrees : Float) : Float :=
  let wrapped := Number.modulo (degrees + 180) 360 - 180
  if wrapped == -180 then 180 else wrapped

/-- The step of length one in a direction. -/
def heading (direction : Float) : Float × Float :=
  (sine direction, cosine direction)

def directionOf (dx dy : Float) : Float :=
  wrapDirection (toDegrees (Float.atan2 dx dy))

/-- The direction after bouncing off an edge: at least a fifth of the step leads away from it. -/
def reflect (edge : Edge) (direction : Float) : Float :=
  let (dx, dy) := heading direction
  match edge with
  | .left => directionOf (atLeast 0.2 dx.abs) dy
  | .right => directionOf (-atLeast 0.2 dx.abs) dy
  | .top => directionOf dx (-atLeast 0.2 dy.abs)
  | .bottom => directionOf dx (atLeast 0.2 dy.abs)

def distance (a b : Point Float) : Float :=
  Number.hypot (a.x - b.x) (a.y - b.y)

end SpriteStage.Stage
