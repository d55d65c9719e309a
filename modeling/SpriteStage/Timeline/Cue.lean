import SpriteStage.Host.Event
import SpriteStage.Number.Layout
import SpriteStage.Span

/-!
Cues: what a host does at which time of a run.
-/

namespace SpriteStage.Timeline

inductive Input where
  | keyDown (key : String)
  | keyUp (key : String)
  | click (entity : EntityId)
  /-- Where the mouse is from now on, in stage coordinates. -/
  | mouse (x y : Float)
  | stop
  deriving DecidableEq, Repr

/-- An input with its time and the line that it stands on, counted from one. -/
structure Cue where
  time : Span
  input : Input
  line : Nat
  deriving DecidableEq, Repr

inductive LineError where
  | noTime (found : String)
  | outOfRange (secs : Float)
  | unknownSprite (name : String)
  | unknownAction (action : String)
  deriving DecidableEq, Repr

structure Error where
  line : Nat
  cause : LineError
  deriving DecidableEq, Repr

def Error.message (e : Error) : String :=
  let place := "at line " ++ toString e.line
  match e.cause with
  | .noTime found => "Expected 'at <seconds> <action>' " ++ place ++ ", found '" ++ found ++ "'."
  | .outOfRange secs => "Time " ++ Number.plain secs ++ " is out of range " ++ place ++ "."
  | .unknownSprite name => "Unknown sprite '" ++ name ++ "' " ++ place ++ "."
  | .unknownAction action => "Unknown timeline action '" ++ action ++ "' " ++ place ++ "."

end SpriteStage.Timeline
