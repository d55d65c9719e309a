import SpriteStage.Proofs.Machine.Reading
import SpriteStage.Proofs.World.Edits

/-!
What an action can do, said once (`Action.meets_run`). It edits the world as scripts may, and its
sequel is one of those that its kind can have, or it is refused, but never for want of an entity
that exists.
-/

namespace SpriteStage

open Eval

namespace Action

open World

/-- Does the action show a speech bubble? -/
def speaks : Action → Bool
  | .speech .. => true
  | _ => false

/-- The sequels that an action can have. -/
inductive LeadsTo : Action → Sequel → Prop where
  | proceed {a : Action} (h : a.suspends = false) : LeadsTo a .proceed
  | wait (secs : Expr) (span : Span) : LeadsTo (.wait secs) (.sleep span)
  | yield : LeadsTo .yield (.sleep .zero)
  | sound (sound : Expr) (span : Span) : LeadsTo (.playSound sound true) (.sleep span)
  | glide (secs x y : Expr) (way : Stage.Glide Float) (time : Float) :
      LeadsTo (.glide secs x y) (.glide way time)
  /-- There was no time to glide. -/
  | land (secs x y : Expr) : LeadsTo (.glide secs x y) (.sleep .zero)
  | unsay (kind : SpeechKind) (text secs : Expr) (seq : Nat) (span : Span) :
      LeadsTo (.speech kind text (some secs)) (.unsay kind seq span)
  | broadcast (message : Expr) (name : String) :
      LeadsTo (.broadcast message) (.broadcast name none)
  | broadcastAndWait (message secs : Expr) (name : String) (span : Span) :
      LeadsTo (.broadcastAndWait message secs) (.broadcast name (some span))
  | askMouse : LeadsTo .syncMouse .askMouse
  | stop (scope : StopScope) : LeadsTo (.stop scope) (.stop scope)

/-- What an action does to the world, and what its script may do next. -/
structure Outcome (w : World) (a : Action) (result : World × Sequel) : Prop where
  edited : w.Edited a.speaks false result.1
  leadsTo : a.LeadsTo result.2

theorem Outcome.proceeds {w w' : World} {a : Action} (h : w.Edited a.speaks false w')
    (hq : a.suspends = false) : Outcome w a (w', .proceed) :=
  ⟨h, .proceed hq⟩

theorem meets_proceed {w : World} {id : EntityId} {a : Action} {x : Except ScriptError World}
    (hx : w.Changes id x) (hq : a.suspends = false) :
    (proceed x).Meets (Outcome w a) (w.Refuses id) :=
  (meets_ofExcept hx).bind fun _ hw => meets_pure (.proceeds (hw.imp nofun nofun) hq)

theorem meets_run (w : World) (id : EntityId) (a : Action) :
    (a.run w id).Meets (Outcome w a) (w.Refuses id) := by
  have value := Expr.meets_eval w id
  have number := Expr.meets_evalNumber w id
  cases a with
  -- Statements that change an entity at once, after no, one or two arguments.
  | bounceOnEdge => exact meets_proceed (w.changes_bounceOnEdge id) rfl
  | appear | vanish => exact meets_proceed (w.changes_setVisible id _) rfl
  | nextCostume => exact meets_proceed (w.changes_nextCostume id) rfl
  | nextBackground => exact meets_proceed (w.changes_nextBackground id) rfl
  | moveSteps => exact (number _ _).bind fun _ _ => meets_proceed (w.changes_moveSteps id _) rfl
  | rotate => exact (number _ _).bind fun _ _ => meets_proceed (w.changes_rotate id _) rfl
  | pointInDirection =>
    exact (number _ _).bind fun _ _ => meets_proceed (w.changes_pointInDirection id _) rfl
  | setSize => exact (number _ _).bind fun _ _ => meets_proceed (w.changes_setSize id _) rfl
  | changeSize => exact (number _ _).bind fun _ _ => meets_proceed (w.changes_changeSize id _) rfl
  | moveTo =>
    refine (number _ _).bind fun _ _ => (number _ _).bind fun _ _ => ?_
    exact meets_proceed (w.changes_moveTo id _) rfl
  | moveBy =>
    refine (number _ _).bind fun _ _ => (number _ _).bind fun _ _ => ?_
    exact meets_proceed (w.changes_moveBy id _ _) rfl
  | switchCostume =>
    refine (value _).bind fun choice _ => (w.meets_switchCostume id choice).bind fun _ hw => ?_
    exact meets_pure (.proceeds hw rfl)
  | switchBackground =>
    refine (value _).bind fun choice _ => (w.meets_switchBackground id choice).bind fun _ hw => ?_
    exact meets_pure (.proceeds hw rfl)
  | setVar => exact (value _).bind fun _ _ => meets_pure (.proceeds (edited_setVar ..) rfl)
  | changeVar => exact (number _ _).bind fun _ _ => meets_pure (.proceeds (edited_setVar ..) rfl)
  | showVariable | hideVariable => exact meets_pure (.proceeds (edited_changeVariable ..) rfl)
  | stopAllSounds => exact meets_pure (.proceeds (.notify w rfl rfl rfl) rfl)
  | resetTimer => exact meets_pure (.proceeds (.timer w w.clock) rfl)
  -- Statements that change something and may then wait.
  | glide secs x y =>
    refine (number _ _).bind fun _ _ => (number _ _).bind fun _ _ => (number _ _).bind fun _ _ => ?_
    refine (meets_ofExcept (w.meets_planGlide id _)).bind fun way _ => ?_
    split
    · exact meets_pure ⟨.refl w, .glide secs x y way _⟩
    · refine (meets_ofExcept (w.changes_glideTo id way 1)).bind fun _ hw => ?_
      exact meets_pure ⟨hw, .land secs x y⟩
  | speech kind text secs =>
    cases secs with
    | none =>
      refine (value _).bind fun _ _ => (meets_ofExcept (w.meets_say id ..)).bind fun _ hw => ?_
      exact meets_pure (.proceeds hw rfl)
    | some secs =>
      refine (value _).bind fun _ _ => (number _ _).bind fun _ _ => ?_
      refine (meets_ofExcept (w.meets_say id ..)).bind fun _ hw => ?_
      exact meets_pure ⟨hw, .unsay kind text secs _ _⟩
  | playSound sound untilDone =>
    refine (value _).bind fun _ _ => (meets_ofExcept (w.meets_startSound id _)).bind fun _ hw => ?_
    refine meets_pure ⟨hw, ?_⟩
    cases untilDone with
    | false => exact .proceed rfl
    | true => exact .sound sound _
  -- The rest leaves the world to what comes next.
  | wait secs => exact (number _ _).bind fun _ _ => meets_pure ⟨.refl w, .wait secs _⟩
  | broadcast message =>
    exact (value _).bind fun _ _ => meets_pure ⟨.refl w, .broadcast message _⟩
  | broadcastAndWait message secs =>
    refine (value _).bind fun _ _ => (number _ _).bind fun _ _ => ?_
    exact meets_pure ⟨.refl w, .broadcastAndWait message secs _ _⟩
  | syncMouse => exact meets_pure ⟨.refl w, .askMouse⟩
  | yield => exact meets_pure ⟨.refl w, .yield⟩
  | stop scope => exact meets_pure ⟨.refl w, .stop scope⟩

theorem outcome {w w' : World} {id : EntityId} {a : Action} {sequel : Sequel} {r r' : SplitMix}
    (h : (a.run w id).run.run r = (.ok (w', sequel), r')) : Outcome w a (w', sequel) :=
  (meets_run w id a).ensures r _ r' h

end Action

end SpriteStage
