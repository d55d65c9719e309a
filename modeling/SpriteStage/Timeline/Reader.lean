import SpriteStage.Name
import SpriteStage.Project.Document
import SpriteStage.Timeline.Cue

/-!
Reading a timeline: one cue a line, `at <seconds> <action>`.

A `#` outside of double quotes starts a comment, and lines that are blank without it hold no cue.
Each line is read on its own; the cues come in the order of their times, those of equal times in the
order of their lines.
-/

namespace SpriteStage.Timeline

/-- The line up to its comment; `quoted` tells whether a quote is open. -/
def withoutComment (quoted : Bool) : List Char → List Char
  | [] => []
  | c :: rest =>
    if c = '#' && !quoted then [] else c :: withoutComment (quoted != (c == '"')) rest

/-- Digits, perhaps with a point and places behind it, and what follows them. -/
def takeDecimal (cs : List Char) : Option (List Char × List Char) :=
  let whole := cs.takeWhile Char.isDigit
  if whole.isEmpty then none
  else
    match cs.dropWhile Char.isDigit with
    | '.' :: rest =>
      let places := rest.takeWhile Char.isDigit
      if places.isEmpty then some (whole, '.' :: rest)
      else some (whole ++ '.' :: places, rest.dropWhile Char.isDigit)
    | rest => some (whole, rest)

def takeSigned : List Char → Option (List Char × List Char)
  | '-' :: rest => (takeDecimal rest).map fun (digits, rest) => ('-' :: digits, rest)
  | cs => takeDecimal cs

/-- The action behind a time: at least one blank, and then the rest without the blanks at its end.
If there are only blanks, at least two, the action is the last of them. -/
def takeAction (cs : List Char) : Option (List Char) :=
  let blanks := cs.takeWhile Text.isBlank
  match cs.dropWhile Text.isBlank with
  | [] => if 2 ≤ blanks.length then some (blanks.drop (blanks.length - 1)) else none
  | rest => if blanks.isEmpty then none else some (Text.dropEndBlanks rest)

def splitLine (cs : List Char) : Option (List Char × List Char) := do
  let cs ← Text.after? "at" (Text.dropBlanks cs)
  let cs ← Text.afterBlanks? cs
  let (secs, cs) ← takeDecimal cs
  return (secs, ← takeAction cs)

/-! ### Actions -/

/-- The key, and whether it goes down. -/
def keyAction? (cs : List Char) : Option (Bool × String) := do
  let cs ← Text.afterBlanks? (← Text.after? "key" cs)
  let (down, cs) ←
    ((Text.after? "down" cs).map (true, ·)).or ((Text.after? "up" cs).map (false, ·))
  let key ← Text.afterBlanks? cs
  if key.isEmpty then none
  else return (down, Name.key (String.ofList (Text.trimmed key)))

def isQuoted : List Char → Bool
  | '"' :: rest => 2 ≤ rest.length && rest.getLast? == some '"' && !rest.dropLast.contains '"'
  | _ => false

/-- The name of the entity that is clicked: in quotes, or without any blank. -/
def clickAction? (cs : List Char) : Option String := do
  let name ← Text.afterBlanks? (← Text.after? "click" cs)
  if isQuoted name || (!name.isEmpty && !name.any Text.isBlank) then
    return String.ofList (Text.stripBoth (· == '"') name)
  else none

def mouseAction? (cs : List Char) : Option (Float × Float) := do
  let cs ← Text.afterBlanks? (← Text.after? "mouse" cs)
  let (x, cs) ← takeSigned cs
  let (y, cs) ← takeSigned (← Text.afterBlanks? cs)
  if cs.isEmpty then return (← Number.readDouble x, ← Number.readDouble y) else none

def readInput (p : Project) (action : List Char) : Except LineError Input :=
  match keyAction? action with
  | some (true, key) => .ok (.keyDown key)
  | some (false, key) => .ok (.keyUp key)
  | none =>
    match clickAction? action with
    | some name =>
      match p.entityIndex? name with
      | some id => .ok (.click id)
      | none => .error (.unknownSprite name)
    | none =>
      match mouseAction? action with
      | some (x, y) => .ok (.mouse x y)
      | none =>
        if action = "stop".toList then .ok .stop
        else .error (.unknownAction (String.ofList action))

/-! ### Lines -/

def readTime (secs : List Char) : Except LineError Span :=
  let x := (Number.readDouble secs).getD 0
  match Span.ofSeconds? x with
  | some span => .ok span
  | none => .error (.outOfRange x)

/-- The time and the input of a line without its comment. -/
def readCue (p : Project) (cs : List Char) : Except LineError (Span × Input) :=
  match splitLine cs with
  | none => .error (.noTime (String.ofList (Text.trimmed cs)))
  | some (secs, action) => do
    let time ← readTime secs
    let input ← readInput p action
    return (time, input)

/-- The cue of a line, if it holds one. -/
def readLine (p : Project) (line : Nat) (raw : List Char) : Except Error (Option Cue) :=
  let cs := withoutComment false raw
  if cs.all Text.isBlank then .ok none
  else
    match readCue p cs with
    | .ok (time, input) => .ok (some ⟨time, input, line⟩)
    | .error cause => .error ⟨line, cause⟩

def readLines (p : Project) (line : Nat) : List (List Char) → Except Error (List Cue)
  | [] => .ok []
  | raw :: rest => do
    let cue ← readLine p line raw
    let cues ← readLines p (line + 1) rest
    return cue.toList ++ cues

/-- The cues of a timeline in the order of their times. -/
def read (p : Project) (source : String) : Except Error (List Cue) := do
  let cues ← readLines p 1 (Text.lines source.toList)
  return cues.mergeSort fun a b => a.time.nanos ≤ b.time.nanos

end SpriteStage.Timeline
