import SpriteStage.Json.Basic

/-!
Writing JSON text, on one line or with two blanks of indentation a level. A double that is no number
or not finite is written as null.
-/

namespace SpriteStage.Json

def hexPair (n : Nat) : List Char :=
  [Nat.digitChar (n / 16 % 16), Nat.digitChar (n % 16)]

def writeChar (c : Char) : List Char :=
  match c with
  | '"' => ['\\', '"']
  | '\\' => ['\\', '\\']
  | '\x08' => ['\\', 'b']
  | '\x0c' => ['\\', 'f']
  | '\n' => ['\\', 'n']
  | '\r' => ['\\', 'r']
  | '\t' => ['\\', 't']
  | c => if c.toNat < 0x20 then ['\\', 'u', '0', '0'] ++ hexPair c.toNat else [c]

def quoted (s : String) : String :=
  String.ofList ('"' :: s.toList.flatMap writeChar ++ ['"'])

def writeFloat (x : Float) : String :=
  if x.isFinite then Number.exponential x else "null"

mutual
def compact : Json → String
  | .null => "null"
  | .bool b => if b then "true" else "false"
  | .int n => toString n
  | .float x => writeFloat x
  | .str s => quoted s
  | .arr items => "[" ++ ",".intercalate (compactItems items) ++ "]"
  | .obj fields => "\x7b" ++ ",".intercalate (compactFields fields) ++ "\x7d"

def compactItems : List Json → List String
  | [] => []
  | item :: rest => item.compact :: compactItems rest

def compactFields : List (String × Json) → List String
  | [] => []
  | (name, value) :: rest => (quoted name ++ ":" ++ value.compact) :: compactFields rest
end

def newLine (level : Nat) : String :=
  "\n" ++ String.ofList (List.replicate (2 * level) ' ')

/-- Parts between two brackets, each on a line of its own. -/
def bracketed (opening closing : String) (level : Nat) (parts : List String) : String :=
  if parts.isEmpty then opening ++ closing
  else
    opening ++ newLine (level + 1) ++ ("," ++ newLine (level + 1)).intercalate parts ++
      newLine level ++ closing

mutual
/-- The value over several lines, at a level of indentation. -/
def prettyAt (level : Nat) : Json → String
  | .arr items => bracketed "[" "]" level (prettyItems (level + 1) items)
  | .obj fields => bracketed "\x7b" "\x7d" level (prettyFields (level + 1) fields)
  | .null => "null"
  | .bool b => if b then "true" else "false"
  | .int n => toString n
  | .float x => writeFloat x
  | .str s => quoted s

def prettyItems (level : Nat) : List Json → List String
  | [] => []
  | item :: rest => item.prettyAt level :: prettyItems level rest

def prettyFields (level : Nat) : List (String × Json) → List String
  | [] => []
  | (name, value) :: rest =>
    (quoted name ++ ": " ++ value.prettyAt level) :: prettyFields level rest
end

def pretty (j : Json) : String :=
  j.prettyAt 0

end SpriteStage.Json
