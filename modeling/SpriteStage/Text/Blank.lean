/-!
White space and trimming.

A character is blank if it has the Unicode property White_Space: the zero-width space and the byte
order mark are not blank, the no-break space is.
-/

namespace SpriteStage.Text

/-- Has the character the property White_Space? -/
def isBlank (c : Char) : Bool :=
  let n := c.toNat
  (0x09 ≤ n && n ≤ 0x0D) || n == 0x20 || n == 0x85 || n == 0xA0 || n == 0x1680 ||
    (0x2000 ≤ n && n ≤ 0x200A) || n == 0x2028 || n == 0x2029 || n == 0x202F || n == 0x205F ||
    n == 0x3000

def dropBlanks (cs : List Char) : List Char :=
  cs.dropWhile isBlank

def dropEndBlanks (cs : List Char) : List Char :=
  (dropBlanks cs.reverse).reverse

def trimmed (cs : List Char) : List Char :=
  dropEndBlanks (dropBlanks cs)

def trim (s : String) : String :=
  String.ofList (trimmed s.toList)

def isBlankText (s : String) : Bool :=
  s.toList.all isBlank

/-- The pieces between the characters that satisfy `p`, empty pieces included. -/
def splitBy (p : Char → Bool) : List Char → List (List Char)
  | [] => [[]]
  | c :: rest =>
    match splitBy p rest with
    | [] => [[]]
    | piece :: more => if p c then [] :: piece :: more else (c :: piece) :: more

/-- The text with the given characters taken off both ends. -/
def stripBoth (p : Char → Bool) (cs : List Char) : List Char :=
  ((cs.dropWhile p).reverse.dropWhile p).reverse

/-- Does the text hold the part in one piece? -/
def hasPart (cs part : List Char) : Bool :=
  part.isPrefixOf cs ||
    match cs with
    | [] => false
    | _ :: rest => hasPart rest part

/-- What follows a word at the beginning. -/
def after? (word : String) (cs : List Char) : Option (List Char) :=
  if word.toList.isPrefixOf cs then some (cs.drop word.length) else none

/-- What follows one or more blanks at the beginning. -/
def afterBlanks? : List Char → Option (List Char)
  | [] => none
  | c :: rest => if isBlank c then some (dropBlanks rest) else none

def dropReturn (cs : List Char) : List Char :=
  if cs.getLast? = some '\r' then cs.dropLast else cs

/-- The lines of a text: a line feed ends a line, together with a carriage return before it. -/
def lines (cs : List Char) : List (List Char) :=
  let pieces := splitBy (· == '\n') cs
  pieces.dropLast.map dropReturn ++ (pieces.getLast?.filter (!·.isEmpty)).toList

end SpriteStage.Text
