import SpriteStage.Text.Blank
import SpriteStage.Text.Lower

/-!
Normal forms of the names by which scripts and the host address each other.

Message names do not depend on case and on blanks around them. Key names of the host (`ArrowUp`,
`KeyA`, a blank) become the names that blocks use (`up arrow`, `a`, `space`).
-/

namespace SpriteStage.Name

/-- The normal form of a message name. -/
def message (name : String) : String :=
  Text.lower (Text.trim name)

/-- The characters behind a beginning. -/
def behind? (start : List Char) (cs : List Char) : Option (List Char) :=
  if start.isPrefixOf cs then some (cs.drop start.length) else none

/-- The key named by `key` or `digit` and one character. -/
def singleKey (name : String) : String :=
  let cs := name.toList
  match (behind? ['k', 'e', 'y'] cs).or (behind? ['d', 'i', 'g', 'i', 't'] cs) with
  | some [c] => String.ofList [c]
  | _ => name

/-- The key that a small, trimmed name stands for. -/
def keyOfLower (name : String) : String :=
  if name = "arrowup" ∨ name = "up" then "up arrow"
  else if name = "arrowdown" ∨ name = "down" then "down arrow"
  else if name = "arrowleft" ∨ name = "left" then "left arrow"
  else if name = "arrowright" ∨ name = "right" then "right arrow"
  else if name = "spacebar" then "space"
  else if name = "return" then "enter"
  else singleKey name

def key (name : String) : String :=
  if name = " " then "space" else keyOfLower (Text.lower (Text.trim name))

end SpriteStage.Name
