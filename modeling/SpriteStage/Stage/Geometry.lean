/-!
Geometry of the stage.

Stage coordinates are centred, x to the right and y up, on a stage of 480 by 360; canvas
coordinates start in the top left corner with y going down. All of it is arithmetic and
comparisons, so it is written for any type of numbers that has them: doubles when scripts run,
rational numbers where exact statements are made.
-/

namespace SpriteStage.Stage

variable {α : Type} [Add α] [Sub α] [Neg α] [Mul α] [LT α] [LE α] [DecidableLT α] [DecidableLE α]
  [(n : Nat) → OfNat α n]

/-! ### Points and boxes -/

structure Point (α : Type) where
  x : α
  y : α
  deriving DecidableEq, Repr

structure CanvasPoint (α : Type) where
  x : α
  y : α
  deriving DecidableEq, Repr

/-- Half the width and half the height of a box. -/
structure HalfSize (α : Type) where
  w : α
  h : α
  deriving DecidableEq, Repr

def Point.toCanvas (p : Point α) : CanvasPoint α :=
  ⟨p.x + 240, 180 - p.y⟩

def CanvasPoint.toStage (p : CanvasPoint α) : Point α :=
  ⟨p.x - 240, 180 - p.y⟩

def clamp (low high x : α) : α :=
  let x := if x < low then low else x
  if high < x then high else x

/-- The number, or the bound if it is not above it. -/
def atLeast (low x : α) : α :=
  if low < x then x else low

/-- The distance from zero. -/
def size (x : α) : α :=
  if x < 0 then -x else x

/-- The lesser of two numbers; what is no number gives way to the other. -/
def lesser (x y : α) : α :=
  if x ≤ y then x else if y ≤ y then y else x

/-- Keeps a box from leaving the canvas further than by its half size. -/
def CanvasPoint.clamp (p : CanvasPoint α) (half : HalfSize α) : CanvasPoint α :=
  ⟨Stage.clamp (-half.w) (480 + half.w) p.x, Stage.clamp (-half.h) (360 + half.h) p.y⟩

def Point.clamp (p : Point α) (half : HalfSize α) : Point α :=
  (p.toCanvas.clamp half).toStage

def touchesEdge (center : Point α) (half : HalfSize α) : Bool :=
  center.x - half.w ≤ -240 || (240 : α) ≤ center.x + half.w ||
    center.y - half.h ≤ -180 || (180 : α) ≤ center.y + half.h

def boxesOverlap (a : Point α) (aHalf : HalfSize α) (b : Point α) (bHalf : HalfSize α) : Bool :=
  size (a.x - b.x) < aHalf.w + bHalf.w && size (a.y - b.y) < aHalf.h + bHalf.h

def boxContains (center : Point α) (half : HalfSize α) (p : Point α) : Bool :=
  size (p.x - center.x) ≤ half.w && size (p.y - center.y) ≤ half.h

/-! ### Bouncing -/

inductive Edge where
  | left
  | right
  | top
  | bottom
  deriving DecidableEq, Repr

/-- How far a box stays away from each edge; negative where it passes it. -/
structure Gaps (α : Type) where
  left : α
  right : α
  top : α
  bottom : α
  deriving DecidableEq, Repr

def gaps (center : Point α) (half : HalfSize α) : Gaps α where
  left := center.x - half.w + 240
  right := 240 - (center.x + half.w)
  top := 180 - (center.y + half.h)
  bottom := center.y - half.h + 180

/-- The edge that the box reaches or passes furthest; of equal ones the first of left, right, top
and bottom. -/
def Gaps.edge? (g : Gaps α) : Option Edge :=
  let nearest := lesser (lesser (lesser g.left g.right) g.top) g.bottom
  let is (gap : α) : Bool := nearest ≤ gap && gap ≤ nearest
  if 0 < nearest then none
  else if is g.left then some .left
  else if is g.right then some .right
  else if is g.top then some .top
  else some .bottom

/-- The middle of a box pulled back onto the stage, as far as its size allows. -/
def pullBack (center : Point α) (half : HalfSize α) : Point α :=
  let maxX := atLeast 0 (240 - half.w)
  let maxY := atLeast 0 (180 - half.h)
  ⟨clamp (-maxX) maxX center.x, clamp (-maxY) maxY center.y⟩

/-! ### Gliding -/

/-- A straight way between two points of the canvas. -/
structure Glide (α : Type) where
  start : CanvasPoint α
  finish : CanvasPoint α
  deriving DecidableEq, Repr

/-- The way of a box from where it is to a point of the stage, which is kept within its reach. -/
def Glide.plan (center : Point α) (half : HalfSize α) (target : Point α) : Glide α :=
  ⟨center.toCanvas, (target.clamp half).toCanvas⟩

/-- The point of the way at a share of it; from one on it is the finish itself. -/
def Glide.point (g : Glide α) (share : α) : Point α :=
  let t := clamp 0 1 share
  if (1 : α) ≤ t then g.finish.toStage
  else
    CanvasPoint.toStage
      ⟨g.start.x + (g.finish.x - g.start.x) * t, g.start.y + (g.finish.y - g.start.y) * t⟩

end SpriteStage.Stage
