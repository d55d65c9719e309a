import SpriteStage.Media.Markup.Element

/-!
Well-formed markup.

`rootAttributes?` reads a whole document and gives the attributes of its first element. The document
must be well formed to its end. Entities used in text are read in place of their references, so a
use may be nested in another; there are bounds on how deep, and on how much may be left to read.
-/

namespace SpriteStage.Media.Markup

/-- How deep the uses of entities may be nested. -/
def nestingLimit : Nat :=
  10

/-- How many characters of entities may be left to read when another one is used. -/
def pendingLimit : Nat :=
  1000000

namespace State

def takeChar (s : State) (c : Char) : Option State := do
  let (lexer, tokens) ← s.lexer.take c
  tokens.foldlM take { s with lexer := lexer }

/-- The attributes of the first element, if the document may end here. -/
def finish (s : State) : Option (Dict String) :=
  if s.lexer.mode = .text ∧ s.phase = .content ∧ s.isOutside then s.root else none

/-- Reads the pending characters of entities that are in use, then the bytes of the document.
`depth` counts the uses of entities since the last character of the document itself. -/
def run (s : State) (depth : Nat) (pending : List Char) (bytes : List UInt8) :
    Option (Dict String) :=
  match pending with
  | c :: rest =>
    match s.takeChar c with
    | none => none
    | some next =>
      if next.inserted.isEmpty then run next depth rest bytes
      else if depth < nestingLimit ∧ rest.length ≤ pendingLimit then
        run { next with inserted := [] } (depth + 1) (next.inserted ++ rest) bytes
      else none
  | [] =>
    match h : s.encoding.head bytes with
    | .nothing => s.finish
    | .noCharacter => none
    | .char c rest =>
      match s.takeChar c with
      | none => none
      | some next =>
        have := Encoding.length_lt_of_head h
        if next.inserted.isEmpty then run next 0 [] rest
        else run { next with inserted := [] } 1 next.inserted rest
termination_by (bytes.length, nestingLimit - depth, pending.length)

end State

/-- The attributes of the first element of a well-formed document, by their local names. -/
def rootAttributes? (data : ByteArray) : Option (Dict String) :=
  let (encoding, bytes) := Encoding.ofMark data.toList
  (State.start encoding).run 0 [] bytes

end SpriteStage.Media.Markup
