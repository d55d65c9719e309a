import SpriteStage.Json.Basic
import SpriteStage.Json.Decimal

/-!
Reading JSON text.

The grammar is the strict one: no comments, no commas at the end, no leading zeros, no control
characters in strings, surrogate escapes only in pairs. A number without fraction and exponent that
fits 64 bits is a whole number, except `-0`; others are doubles, and one too large for a double is
refused. Nesting deeper than a given limit is refused. Of fields with one name the last counts.
-/

namespace SpriteStage.Json

def isGap (c : Char) : Bool :=
  c == ' ' || c == '\n' || c == '\t' || c == '\r'

def skipGap (cs : List Char) : List Char :=
  cs.dropWhile isGap

/-- The code unit of a four-digit escape. -/
def escapeUnit : List Char → Option (Nat × List Char)
  | a :: b :: c :: d :: rest => (Number.readHexDigits [a, b, c, d]).map (·, rest)
  | _ => none

/-- The character of an escape with four digits, or of a pair of them. -/
def escapedChar (cs : List Char) : Option (Char × List Char) :=
  (escapeUnit cs).bind fun (unit, rest) =>
    if 0xD800 ≤ unit ∧ unit ≤ 0xDBFF then
      match rest with
      | '\\' :: 'u' :: rest =>
        (escapeUnit rest).bind fun (low, rest) =>
          if 0xDC00 ≤ low ∧ low ≤ 0xDFFF then
            some (Char.ofNat (0x10000 + (unit - 0xD800) * 0x400 + (low - 0xDC00)), rest)
          else none
      | _ => none
    else if 0xDC00 ≤ unit ∧ unit ≤ 0xDFFF then none
    else some (Char.ofNat unit, rest)

def simpleEscape : Char → Option Char
  | '"' => some '"'
  | '\\' => some '\\'
  | '/' => some '/'
  | 'b' => some '\x08'
  | 'f' => some '\x0c'
  | 'n' => some '\n'
  | 'r' => some '\r'
  | 't' => some '\t'
  | _ => none

/-- The rest of a string behind its opening quote; `taken` holds its characters so far, last one
first. -/
def readString : Nat → List Char → List Char → Option (String × List Char)
  | 0, _, _ => none
  | _ + 1, _, [] => none
  | _ + 1, taken, '"' :: rest => some (String.ofList taken.reverse, rest)
  | n + 1, taken, '\\' :: 'u' :: rest =>
    (escapedChar rest).bind fun (c, rest) => readString n (c :: taken) rest
  | n + 1, taken, '\\' :: c :: rest =>
    (simpleEscape c).bind fun c => readString n (c :: taken) rest
  | _ + 1, _, ['\\'] => none
  | n + 1, taken, c :: rest => if c.toNat < 0x20 then none else readString n (c :: taken) rest

/-- The digits behind the mark of an exponent, with their sign. -/
def readPower (cs : List Char) : Option (Int × List Char) :=
  let (negative, rest) := Number.takeSign cs
  let digits := rest.takeWhile Char.isDigit
  if digits.isEmpty then none
  else
    let n := Number.digitsValue digits
    some (if negative then -n else n, rest.dropWhile Char.isDigit)

/-- A whole number of 64 bits, or else a double. -/
def wholeNumber (negative : Bool) (digits : List Char) : Option Json :=
  let n := Number.digitsValue digits
  if negative && (n = 0 || 9223372036854775808 < n && n < 18446744073709551616) then
    some (.float (Number.ofDecimal true n 0))
  else if n < 18446744073709551616 then some (.int (if negative then -n else n))
  else (decimal? negative digits [] 0).map .float

/-- The part of a number behind its whole digits. -/
def readFraction (negative : Bool) (whole rest : List Char) : Option (Json × List Char) :=
  let value (places : List Char) (power : Int) : Option Json :=
    (decimal? negative whole places power).map .float
  match rest with
  | '.' :: rest =>
    let places := rest.takeWhile Char.isDigit
    if places.isEmpty then none
    else
      match rest.dropWhile Char.isDigit with
      | c :: rest' =>
        if c = 'e' ∨ c = 'E' then
          (readPower rest').bind fun (power, rest) => (value places power).map (·, rest)
        else (value places 0).map (·, c :: rest')
      | [] => (value places 0).map (·, [])
  | c :: rest' =>
    if c = 'e' ∨ c = 'E' then
      (readPower rest').bind fun (power, rest) => (value [] power).map (·, rest)
    else (wholeNumber negative whole).map (·, rest)
  | [] => (wholeNumber negative whole).map (·, [])

def readNumber (cs : List Char) : Option (Json × List Char) :=
  let (negative, body) :=
    match cs with
    | '-' :: rest => (true, rest)
    | _ => (false, cs)
  match body with
  | '0' :: rest =>
    match rest with
    | c :: _ => if c.isDigit then none else readFraction negative ['0'] rest
    | [] => readFraction negative ['0'] []
  | _ =>
    let whole := body.takeWhile Char.isDigit
    if whole.isEmpty then none else readFraction negative whole (body.dropWhile Char.isDigit)

mutual
/-- A value; `depth` is how many arrays and objects may still be opened. -/
def readValue : Nat → Nat → List Char → Option (Json × List Char)
  | 0, _, _ => none
  | fuel + 1, depth, cs =>
    match skipGap cs with
    | 'n' :: 'u' :: 'l' :: 'l' :: rest => some (.null, rest)
    | 't' :: 'r' :: 'u' :: 'e' :: rest => some (.bool true, rest)
    | 'f' :: 'a' :: 'l' :: 's' :: 'e' :: rest => some (.bool false, rest)
    | '"' :: rest => (readString fuel [] rest).map fun (s, rest) => (.str s, rest)
    | '[' :: rest =>
      if depth = 0 then none
      else
        match skipGap rest with
        | ']' :: rest => some (.arr [], rest)
        | rest => (readItems fuel (depth - 1) rest).map fun (items, rest) => (.arr items, rest)
    | '\x7b' :: rest =>
      if depth = 0 then none
      else
        match skipGap rest with
        | '\x7d' :: rest => some (.obj [], rest)
        | rest =>
          (readFields fuel (depth - 1) rest).map fun (fields, rest) =>
            (.obj (Dict.ofList fields).entries, rest)
    | rest => readNumber rest

def readItems : Nat → Nat → List Char → Option (List Json × List Char)
  | 0, _, _ => none
  | fuel + 1, depth, cs =>
    (readValue fuel depth cs).bind fun (item, rest) =>
      match skipGap rest with
      | ',' :: rest => (readItems fuel depth rest).map fun (items, rest) => (item :: items, rest)
      | ']' :: rest => some ([item], rest)
      | _ => none

def readFields : Nat → Nat → List Char → Option (List (String × Json) × List Char)
  | 0, _, _ => none
  | fuel + 1, depth, cs =>
    match skipGap cs with
    | '"' :: rest =>
      (readString fuel [] rest).bind fun (name, rest) =>
        match skipGap rest with
        | ':' :: rest =>
          (readValue fuel depth rest).bind fun (value, rest) =>
            match skipGap rest with
            | ',' :: rest =>
              (readFields fuel depth rest).map fun (fields, rest) => ((name, value) :: fields, rest)
            | '\x7d' :: rest => some ([(name, value)], rest)
            | _ => none
        | _ => none
    | _ => none
end

/-- How many arrays and objects may be open at once in a document. -/
def documentDepth : Nat :=
  127

/-- The value of a whole text. No path through the grammar is longer than twice the text, so the
bound on the recursion is never met. -/
def parse? (s : String) (depth : Nat) : Option Json :=
  let cs := s.toList
  match readValue (2 * cs.length + 2) depth cs with
  | some (value, rest) => if (skipGap rest).isEmpty then some value else none
  | none => none

end SpriteStage.Json
