import SpriteStage.CommandLine.Arguments
import SpriteStage.CommandLine.Report
import SpriteStage.CommandLine.Session
import SpriteStage.Compile.Program
import SpriteStage.Json.Printer
import SpriteStage.Project.Load
import SpriteStage.Timeline.Reader

/-!
From the arguments to a session that is ready to run: the project is loaded and compiled, the
program written if that is asked for, and the timeline read.

How files are reached is left open, so that the same steps work on a disk and on a folder in memory.
-/

namespace SpriteStage.CommandLine

/-- What a command needs of its surroundings. -/
structure Surroundings (m : Type → Type) where
  say : String → m Unit
  /-- The absolute path of a file, if there is a file at a path. -/
  locate : String → m (Option String)
  read : String → m (Option ByteArray)
  /-- Writes a file, and tells whether that worked. -/
  write : String → String → m Bool

def runLength (secs : Float) : Except Failure Span :=
  if !secs.isFinite || secs < 0 then .error .negativeRun
  else
    match Span.ofSeconds? secs with
    | some span => .ok span
    | none => .error (.longRun secs)

def Arguments.options (a : Arguments) : Options :=
  { Options.standard with
    seed := (a.seed.map UInt64.ofNat).getD Options.standard.seed
    historyCapacity := a.historyCap.getD Options.standard.historyCapacity }

/-- How many steps there are to tell of. -/
def Arguments.stepCount (a : Arguments) : Nat :=
  3 + (if a.programPath.isSome then 1 else 0) + (if a.check then 0 else 1)

variable {m : Type → Type} [Monad m]

def loadProject (s : Surroundings m) (absolute : String) : ExceptT Failure m Project := do
  let data ← s.read absolute
  match Project.load absolute data with
  | .ok p => return p
  | .error e => throw (.load e)

def writeProgram (s : Surroundings m) (path : String) (program : Program) :
    ExceptT Failure m Unit := do
  let written ← s.write path program.toJson.pretty
  if !written then throw (.unwritable path)

def readTimeline (s : Surroundings m) (p : Project) (path : String) :
    ExceptT Failure m (List Timeline.Cue) := do
  let data ← s.read path
  let some source := data.bind Bytes.text? | throw (.unreadableTimeline path)
  match Timeline.read p source with
  | .ok cues => return cues
  | .error _ => throw (.badTimeline path)

/-- Prepares a session, or only checks the project. -/
def prepare (s : Surroundings m) (a : Arguments) : ExceptT Failure m (Option Session) := do
  let runFor ←
    match runLength a.runFor with
    | .ok span => pure span
    | .error e => throw e
  let total := a.stepCount
  s.say (progressLine 1 total "Resolving input path")
  let some absolute ← s.locate a.input | throw (.load (.notFound a.input))
  s.say (progressLine 2 total "Loading project")
  let project ← loadProject s absolute
  s.say (progressLine 3 total "Compiling scripts")
  let (program, warnings) := project.compile
  for w in warnings do
    s.say ("warning: " ++ w.text)
  if let some path := a.programPath then
    s.say (progressLine 4 total "Writing IR")
    writeProgram s path program
  if a.check then return none
  s.say (progressLine total total "Running")
  let cues ←
    match a.timeline with
    | some path => readTimeline s project path
    | none => pure []
  return some (.new project program cues a.options runFor)

end SpriteStage.CommandLine
