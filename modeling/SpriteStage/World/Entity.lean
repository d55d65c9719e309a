import SpriteStage.Host.Event
import SpriteStage.Stage.Heading
import SpriteStage.World.Spec

/-!
Entities as they stand on the stage.

Stage coordinates are what counts; the position on the canvas follows from them. An entity with
costumes wears one of them.
-/

namespace SpriteStage

open Stage (Point CanvasPoint HalfSize)

/-- A sprite or the background on the stage. -/
structure Entity where
  name : String
  kind : EntityKind
  x : Float
  y : Float
  rotation : Float
  /-- One is the costume's own size. -/
  scale : Float
  visible : Bool
  costumes : List Costume
  currentCostume : Nat
  sounds : List Sound
  vars : Dict Variable
  /-- Counts the changes of the speech bubble, so that a timed bubble takes only itself away. -/
  speechSeq : Nat
  deriving DecidableEq

namespace Entity

def isBackground (e : Entity) : Bool :=
  e.kind == .background

/-- The entity that a description sets up. The variables of a background belong to the whole
world and not to it. -/
def ofSpec (s : EntitySpec) : Entity where
  name := s.name
  kind := s.kind
  x := s.x
  y := s.y
  rotation := s.direction
  scale := Stage.atLeast 0 (s.size / 100)
  visible := s.visible
  costumes := s.costumes
  currentCostume := min s.currentCostume (s.costumes.length - 1)
  sounds := s.sounds
  vars := if s.kind = .background then .empty else s.vars
  speechSeq := 0

theorem currentCostume_ofSpec_lt {s : EntitySpec} (h : s.costumes ≠ []) :
    (ofSpec s).currentCostume < (ofSpec s).costumes.length := by
  have : 0 < s.costumes.length := List.length_pos_iff.mpr h
  simp only [ofSpec]
  omega

def position (e : Entity) : Point Float :=
  ⟨e.x, e.y⟩

def canvas (e : Entity) : CanvasPoint Float :=
  e.position.toCanvas

def costume? (e : Entity) : Option Costume :=
  e.costumes[e.currentCostume]?

def costumeName (e : Entity) : String :=
  (e.costume?.map (·.name)).getD ""

/-- Half the size of its costume at its scale. -/
def halfSize (e : Entity) : HalfSize Float :=
  match e.costume? with
  | some c => ⟨Stage.atLeast 0 (c.width * e.scale / 2), Stage.atLeast 0 (c.height * e.scale / 2)⟩
  | none => ⟨0, 0⟩

def moved (e : Entity) (p : Point Float) : Entity :=
  { e with x := p.x, y := p.y }

end Entity

/-! ### Patches -/

namespace EntityPatch

/-- A new position, on the stage and on the canvas. -/
def position (p : Point Float) : EntityPatch :=
  { empty with
    x := some p.x
    y := some p.y
    canvasX := some p.toCanvas.x
    canvasY := some p.toCanvas.y }

def full (e : Entity) : EntityPatch :=
  { position e.position with
    rotation := some e.rotation
    scale := some e.scale
    visible := some e.visible
    costume := some e.currentCostume }

end EntityPatch

end SpriteStage
