import SpriteStage.Number.Reader

/-!
The arguments of the command line.

An option's value stands behind `=` or is the next argument; a value behind `=` may be anything,
while a next argument that begins with a hyphen is an option itself. After `--` all arguments are
positional. An option is looked at when the next one begins, so of two faults the one found first
is not always the one that stands first.
-/

namespace SpriteStage.CommandLine

structure Arguments where
  input : String
  /-- How many seconds to run. -/
  runFor : Float
  /-- The path of a timeline with host input. -/
  timeline : Option String
  /-- Where the compiled program is written to. -/
  programPath : Option String
  /-- How many messages are remembered. -/
  historyCap : Option Nat
  seed : Option Nat
  logLevel : String
  /-- Only compile. -/
  check : Bool
  deriving DecidableEq, Repr

inductive UsageError where
  | missingRequiredArgument
  | unknownArgument
  /-- A value is missing. -/
  | invalidValue
  /-- A value does not stand for what it should. -/
  | valueValidation
  /-- An option is given twice. -/
  | argumentConflict
  /-- A value is given to what takes none. -/
  | tooManyValues
  | displayHelp
  deriving DecidableEq, Repr

/-- What takes a value. -/
inductive Slot where
  | input
  | runFor
  | timeline
  | programPath
  | historyCap
  | seed
  | logLevel
  deriving DecidableEq, Repr

/-- An option by its name: one that takes a value, or one that takes none. -/
inductive Named where
  | value (slot : Slot)
  | check
  | help
  deriving DecidableEq, Repr

def Named.ofName? : String → Option Named
  | "run-for" => some (.value .runFor)
  | "timeline" => some (.value .timeline)
  | "emit-ir" => some (.value .programPath)
  | "history-cap" => some (.value .historyCap)
  | "seed" => some (.value .seed)
  | "log-level" => some (.value .logLevel)
  | "check" => some .check
  | "help" => some .help
  | _ => none

/-! ### Values -/

/-- What has been given so far. -/
structure Draft where
  input : Option String
  runFor : Option Float
  timeline : Option String
  programPath : Option String
  historyCap : Option Nat
  seed : Option Nat
  logLevel : Option String
  check : Bool

def Draft.empty : Draft :=
  ⟨none, none, none, none, none, none, none, false⟩

/-- A path, which is not empty. -/
def readPath (s : String) : Except UsageError String :=
  if s.isEmpty then .error .invalidValue else .ok s

/-- A whole number below `2 ^ 64`, perhaps with a plus sign. -/
def readCount (s : String) : Except UsageError Nat :=
  let digits :=
    match s.toList with
    | '+' :: rest => rest
    | cs => cs
  if digits.isEmpty || !digits.all Char.isDigit then .error .valueValidation
  else
    let n := Number.digitsValue digits
    if n < 18446744073709551616 then .ok n else .error .valueValidation

def readReal (s : String) : Except UsageError Float :=
  match Number.readDouble s.toList with
  | some x => .ok x
  | none => .error .valueValidation

/-- Takes over a value; none may be given twice. -/
def fill {α : Type} (old : Option α) (value : Except UsageError α) :
    Except UsageError (Option α) :=
  match old with
  | some _ => .error .argumentConflict
  | none => value.map some

def Draft.set (d : Draft) (slot : Slot) (s : String) : Except UsageError Draft :=
  match slot with
  | .input => return { d with input := ← fill d.input (readPath s) }
  | .runFor => return { d with runFor := ← fill d.runFor (readReal s) }
  | .timeline => return { d with timeline := ← fill d.timeline (readPath s) }
  | .programPath => return { d with programPath := ← fill d.programPath (readPath s) }
  | .historyCap => return { d with historyCap := ← fill d.historyCap (readCount s) }
  | .seed => return { d with seed := ← fill d.seed (readCount s) }
  | .logLevel => return { d with logLevel := ← fill d.logLevel (.ok s) }

/-! ### One argument after the other -/

/-- How far the arguments have been read. -/
structure State where
  draft : Draft
  /-- The slot that has been seen last, with its value if that has been seen too. -/
  pending : Option (Slot × Option String)
  /-- Has the positional argument been seen? -/
  placed : Bool

/-- Takes over what has been seen last. -/
def State.settle (s : State) : Except UsageError Draft :=
  match s.pending with
  | none => .ok s.draft
  | some (_, none) => .error .invalidValue
  | some (slot, some value) => s.draft.set slot value

def State.place (s : State) (value : String) : Except UsageError State :=
  if s.placed then .error .unknownArgument
  else return ⟨← s.settle, some (.input, some value), true⟩

/-- Takes an option with the text behind its `=`. -/
def State.option (s : State) (name : String) (attached : Option String) :
    Except UsageError State :=
  match Named.ofName? name, attached with
  | none, _ => .error .unknownArgument
  | some (.value slot), some value => do
    let draft ← s.settle
    return ⟨← draft.set slot value, none, s.placed⟩
  | some (.value slot), none => return ⟨← s.settle, some (slot, none), s.placed⟩
  | some _, some _ => .error .tooManyValues
  | some .check, none => do
    let draft ← s.settle
    if draft.check then throw .argumentConflict
    return ⟨{ draft with check := true }, none, s.placed⟩
  | some .help, none => do
    let _ ← s.settle
    throw .displayHelp

/-- Takes an argument that does not begin with a hyphen: a value that is waited for, or else a
positional one. -/
def State.plain (s : State) (value : String) : Except UsageError State :=
  match s.pending with
  | some (slot, none) => .ok { s with pending := some (slot, some value) }
  | _ => s.place value

/-- Takes an argument before a `--`. -/
def State.take (s : State) (argument : String) : Except UsageError State :=
  match argument.toList with
  | '-' :: '-' :: rest =>
    match rest.dropWhile (· != '=') with
    | '=' :: value =>
      s.option (String.ofList (rest.takeWhile (· != '='))) (some (String.ofList value))
    | _ => s.option (String.ofList rest) none
  | '-' :: 'h' :: _ => s.option "help" none
  | '-' :: _ :: _ => .error .unknownArgument
  | _ => s.plain argument

/-- Reads the arguments; with `escaped` all of them are positional. -/
def State.takeAll (s : State) (escaped : Bool) : List String → Except UsageError State
  | [] => .ok s
  | argument :: rest =>
    if escaped then do (← s.place argument).takeAll true rest
    else if argument = "--" then s.takeAll true rest
    else do (← s.take argument).takeAll false rest

def defaultRunFor : Float :=
  5

def Arguments.read (words : List String) : Except UsageError Arguments := do
  let s ← State.takeAll ⟨.empty, none, false⟩ false words
  let d ← s.settle
  let some input := d.input | throw .missingRequiredArgument
  return {
    input
    runFor := d.runFor.getD defaultRunFor
    timeline := d.timeline
    programPath := d.programPath
    historyCap := d.historyCap
    seed := d.seed
    logLevel := d.logLevel.getD "warn"
    check := d.check }

end SpriteStage.CommandLine
