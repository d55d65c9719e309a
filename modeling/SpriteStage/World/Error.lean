import SpriteStage.Host.Event
import SpriteStage.SplitMix

/-!
Why a script fails. A failure ends its own task only, and what was drawn from the random source
before it stays drawn.
-/

namespace SpriteStage

/-- Why a script fails. -/
inductive ScriptError where
  /-- An argument is a text that is no number. -/
  | invalidNumber (argument value : String)
  | nonFinite (what : String)
  | unknownCostume (name : String)
  | unknownBackdrop (name : String)
  | unknownSound (name : String)
  | unknownEntity (id : EntityId)
  | noBackground
  deriving DecidableEq, Repr

def ScriptError.message : ScriptError → String
  | .invalidNumber argument value =>
    "argument " ++ argument ++ " expects a number, got '" ++ value ++ "'"
  | .nonFinite what => what ++ " must be a finite number"
  | .unknownCostume name => "unknown costume '" ++ name ++ "'"
  | .unknownBackdrop name => "unknown backdrop '" ++ name ++ "'"
  | .unknownSound name => "unknown sound '" ++ name ++ "'"
  | .unknownEntity id => "entity " ++ id.text ++ " does not exist"
  | .noBackground => "there is no background to switch"

/-- A computation that may draw random numbers and may fail; what was drawn before a failure stays
drawn. -/
abbrev Eval (α : Type) := ExceptT ScriptError (StateM SplitMix) α

namespace Eval

def draw {α : Type} (f : SplitMix → α × SplitMix) : Eval α :=
  ExceptT.lift f

def ofExcept {α : Type} (x : Except ScriptError α) : Eval α :=
  ExceptT.mk (pure x)

end Eval

end SpriteStage
