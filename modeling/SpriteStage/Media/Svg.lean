import SpriteStage.Media.Markup

/-!
The size of a drawing: that of its view box, else its width and height.
-/

namespace SpriteStage.Media

def viewBoxSize? (text : String) : Option (Float × Float) := do
  let parts := (Text.splitBy (fun c => Text.isBlank c || c == ',') text.toList).filter (!·.isEmpty)
  match ← parts.mapM Number.readDouble with
  | [_, _, width, height] => if width ≤ 0 || height ≤ 0 then none else some (width, height)
  | _ => none

/-- A length: the number in front of its unit. -/
def svgLength? (text : String) : Option Float := do
  let digits := (Text.trimmed text.toList).takeWhile fun c =>
    c.isDigit || c == '.' || c == '+' || c == '-'
  let length ← Number.readDouble digits
  if length > 0 then some length else none

def svgSize? (attributes : Dict String) : Option (Float × Float) :=
  match (attributes.get? "viewBox").bind viewBoxSize? with
  | some size => some size
  | none => do
    let width ← (attributes.get? "width").bind svgLength?
    let height ← (attributes.get? "height").bind svgLength?
    return (width, height)

end SpriteStage.Media
