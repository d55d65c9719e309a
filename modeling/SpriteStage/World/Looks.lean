import SpriteStage.World.Motion

/-!
Sizes, visibility, speech bubbles, costumes, backdrops and sounds: what comes of changing them in a
world, as a whole.

A costume is chosen by its name, by one of two keywords, or by its number, which counts from one and
goes round at both ends.
-/

namespace SpriteStage.World

/-! ### Size and visibility -/

def setSize (w : World) (id : EntityId) (percent : Float) : Except ScriptError World := do
  checkFinite percent "size"
  let scale := Stage.atLeast 0 percent / 100
  let e ← w.entity id
  return w.update id { e with scale } { EntityPatch.empty with scale := some scale }

/-- Changes the size of an entity by percents of its costume's size. -/
def changeSize (w : World) (id : EntityId) (percent : Float) : Except ScriptError World := do
  let e ← w.entity id
  w.setSize id (e.scale * 100 + percent)

def setVisible (w : World) (id : EntityId) (visible : Bool) : Except ScriptError World := do
  let e ← w.entity id
  return w.update id { e with visible } { EntityPatch.empty with visible := some visible }

/-! ### Speech -/

def wholeMillis (secs : Float) : Nat :=
  (Stage.atLeast 0 secs * 1000).round.toUInt64.toNat

/-- Shows a bubble and gives the number by which it can be taken away. -/
def say (w : World) (id : EntityId) (kind : SpeechKind) (text : String) (secs : Option Float) :
    Except ScriptError (Nat × World) := do
  let e ← w.entity id
  let seq := e.speechSeq + 1
  return (seq, (w.setEntity id { e with speechSeq := seq }).notify
    (.speechBubble id text kind (secs.map wholeMillis)))

/-- Takes a bubble away, unless another change came after it. -/
def clearSpeech (w : World) (id : EntityId) (kind : SpeechKind) (seq : Nat) :
    Except ScriptError World := do
  let e ← w.entity id
  if e.speechSeq = seq then
    return (w.setEntity id { e with speechSeq := seq + 1 }).notify (.speechBubble id "" kind none)
  else return w

/-! ### Costumes -/

/-- The place in a list of this length of a number that counts from one and goes round. -/
def wrapIndex (position : Float) (length : Nat) : Nat :=
  min (Number.modulo (position.round - 1) (Float.ofNat length)).toUInt64.toNat (length - 1)

theorem wrapIndex_lt (position : Float) {length : Nat} (h : 0 < length) :
    wrapIndex position length < length := by
  unfold wrapIndex
  omega

/-- The keywords that choose the next and the previous costume. -/
structure Keywords where
  next : String
  previous : String

def costumeIndex? (costumes : List Costume) (current : Nat) (choice : Value) (words : Keywords) :
    Option Nat :=
  let length := costumes.length
  let byNumber (x : Float) : Option Nat := if x.isFinite then some (wrapIndex x length) else none
  if length = 0 then none
  else
    match choice with
    | .number x => byNumber x
    | .bool _ => none
    | .text name =>
      let small := Text.lower (Text.trim name)
      match costumes.findIdx? (·.name = name) with
      | some index => some index
      | none =>
        if small = words.next then some ((current + 1) % length)
        else if small = words.previous then some ((current + length - 1) % length)
        else (Number.readNumber name).bind byNumber

/-- Puts a costume on. The host hears of a new backdrop by its name too. -/
def applyCostume (w : World) (id : EntityId) (index : Nat) : Except ScriptError World := do
  let e ← w.entity id
  let e := { e with currentCostume := index }
  let w := w.update id e { EntityPatch.empty with costume := some index }
  return if e.isBackground then w.notify (.switchBackground id e.costumeName) else w

def nextCostume (w : World) (id : EntityId) : Except ScriptError World := do
  let e ← w.entity id
  if e.costumes.isEmpty then return w
  else w.applyCostume id ((e.currentCostume + 1) % e.costumes.length)

/-! ### Backdrops -/

/-- The first background, which must exist. -/
def background (w : World) : Except ScriptError EntityId :=
  match w.background? with
  | some id => .ok id
  | none => .error .noBackground

/-- Does the value ask for any other backdrop? -/
def asksForRandom (choice : Value) : Bool :=
  Text.equalFold (Text.trim choice.toText) "random backdrop"

/-- Draws a costume other than the one that is worn, if there is another. -/
def drawOther (current length : Nat) : Eval Nat :=
  if length = 1 then return 0
  else do
    let offset ← Eval.draw (·.drawBetween 1 (Int64.ofNat (length - 1)))
    return (current + offset.toNatClampNeg) % length

def switchBackground (w : World) (choice : Value) : Eval World := do
  let id ← Eval.ofExcept w.background
  let e ← Eval.ofExcept (w.entity id)
  if asksForRandom choice && !e.costumes.isEmpty then
    let index ← drawOther e.currentCostume e.costumes.length
    Eval.ofExcept (w.applyCostume id index)
  else
    match costumeIndex? e.costumes e.currentCostume choice
        ⟨"next backdrop", "previous backdrop"⟩ with
    | some index => Eval.ofExcept (w.applyCostume id index)
    | none => throw (.unknownBackdrop choice.toText)

def nextBackground (w : World) : Except ScriptError World := do
  w.nextCostume (← w.background)

/-- Puts a costume on; for the background that is a backdrop. -/
def switchCostume (w : World) (id : EntityId) (choice : Value) : Eval World := do
  let e ← Eval.ofExcept (w.entity id)
  if e.isBackground then w.switchBackground choice
  else
    match costumeIndex? e.costumes e.currentCostume choice
        ⟨"next costume", "previous costume"⟩ with
    | some index => Eval.ofExcept (w.applyCostume id index)
    | none => throw (.unknownCostume choice.toText)

/-! ### Sounds -/

/-- The sound that a value chooses: by its name, by its name in other letters, or by its number. -/
def findSound? (sounds : List Sound) (choice : Value) : Option Sound :=
  let name := choice.toText
  (sounds.find? (·.name = name)).or <|
    (sounds.find? (Text.equalFold ·.name name)).or <|
      match choice.strictNumber? with
      | some x => if x.isFinite then sounds[wrapIndex x sounds.length]? else none
      | none => none

/-- Starts a sound and gives how many seconds it lasts. -/
def startSound (w : World) (id : EntityId) (choice : Value) :
    Except ScriptError (Float × World) := do
  let e ← w.entity id
  match findSound? e.sounds choice with
  | some sound => return (sound.durationSecs, w.notify (.soundStarted id sound.name))
  | none => throw (.unknownSound choice.toText)

def stopAllSounds (w : World) : World :=
  w.notify .soundsStopped

end SpriteStage.World
