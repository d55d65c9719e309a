import SpriteStage.Dict
import SpriteStage.Media.Markup.Encoding
import SpriteStage.Media.Markup.Token
import SpriteStage.Number.Reader

/-!
Where the reading of a document stands, and the steps that several parts of a document share: names,
quoted values and references. A step takes a token and answers `none` if the document is not well
formed.
-/

namespace SpriteStage.Media.Markup

/-! ### Phases -/

/-- The clauses of the declaration at the head of a document, in the order in which they come. -/
inductive Clause where
  | version
  | encoding
  | standalone
  deriving DecidableEq, Repr

inductive HeadPhase where
  | before (clause : Clause)
  | name (clause : Clause)
  | afterName (clause : Clause)
  | value (clause : Clause)
  | afterValue (clause : Clause)
  deriving DecidableEq, Repr

inductive TypePhase where
  | between
  | quoted
  | comment
  /-- The word behind `<!`. -/
  | word
  /-- The rest of a declaration, which does not matter. -/
  | ignored
  | beforeEntity
  | entity
  | beforeParameter
  | parameter
  | beforeValue
  | value
  /-- A parameter entity used between declarations. -/
  | inclusion
  /-- A parameter entity used in the value of another entity. -/
  | valueInclusion
  /-- Behind an ampersand in the value of an entity. -/
  | ampersand
  | number
  deriving DecidableEq, Repr

/-- Where the reading of a document stands. -/
inductive Phase where
  | start
  | content
  | reference
  | comment
  | data
  | instructionName
  | instructionData
  | head (phase : HeadPhase)
  | doctype (phase : TypePhase)
  | tagName
  | tag
  | attributeName
  | afterAttributeName
  | attributeValue
  | afterAttributeValue
  | endTagName
  | afterEndTagName
  deriving DecidableEq, Repr

/-- The furthest part of a document that has been met; the parts can only come in this order. -/
inductive Progress where
  | nothing
  | gap
  | head
  | comment
  | doctype
  | element
  deriving DecidableEq, Repr

def Progress.rank : Progress → Nat
  | .nothing => 0
  | .gap => 1
  | .head => 2
  | .comment => 3
  | .doctype => 4
  | .element => 5

/-! ### Names -/

/-- A name as its space and local part; there is at most one colon, and neither part is empty. -/
def splitName (name : String) : Option (String × String) :=
  match (Text.splitBy (· == ':') name.toList).map String.ofList with
  | [localName] => if localName.isEmpty then none else some ("", localName)
  | [space, localName] =>
    if space.isEmpty || localName.isEmpty then none else some (space, localName)
  | _ => none

/-! ### State -/

/-- An element whose end has not come yet, and the spaces bound inside it. -/
structure OpenElement where
  name : String
  bound : List String

/-- Where the reading of a document stands, and what has been read. -/
structure State where
  lexer : Lexer
  encoding : Encoding
  phase : Phase
  /-- The phase behind the reference that is being read. -/
  resumed : Phase
  /-- The name or value that is being read, its last character first. -/
  taken : List Char
  /-- Has a colon been taken into the name that is being read? The answer is set back at the first
  byte of a name only, so behind a longer character it may be that for the name before. -/
  colon : Bool
  /-- The name in the reference that is being read, its last character first. -/
  reference : List Char
  /-- The name of the entity that is being declared, its last character first. -/
  entity : List Char
  quote : Option Quote
  progress : Progress
  version : Version
  /-- The label of the encoding in the head declaration. -/
  label : Option String
  /-- The entities and their values, as far as declared. -/
  entities : List (String × List Char)
  tagName : String
  attributeName : String
  attributes : List (String × String)
  /-- The spaces that the attributes of the tag bind. -/
  bindings : List String
  elements : List OpenElement
  /-- The attributes of the first element. -/
  root : Option (Dict String)
  /-- The value of an entity that has to be read in place of its reference. -/
  inserted : List Char

namespace State

def start (encoding : Encoding) : State where
  lexer := .start
  encoding := encoding
  phase := .start
  resumed := .content
  taken := []
  colon := false
  reference := []
  entity := []
  quote := none
  progress := .nothing
  version := .older
  label := none
  entities := []
  tagName := ""
  attributeName := ""
  attributes := []
  bindings := []
  elements := []
  root := none
  inserted := []

def goto (s : State) (phase : Phase) : State :=
  { s with phase := phase }

def meet (s : State) (progress : Progress) : State :=
  if s.progress.rank < progress.rank then { s with progress := progress } else s

/-- Adds characters to the name or value that is being read. -/
def push (s : State) (chars : List Char) : State :=
  { s with taken := chars.reverse ++ s.taken }

def takenText (s : State) : String :=
  String.ofList s.taken.reverse

def isOutside (s : State) : Bool :=
  s.elements.isEmpty

/-! ### Shared steps -/

/-- A token of a name with at most one colon. At a gap, or at a token that may end the name, it goes
on with the name. -/
def takeName (s : State) (ends : List Token) (t : Token) (next : State → String → Option State) :
    Option State :=
  let s := { s with colon := s.colon && 1 < s.takenText.utf8ByteSize }
  let finish (_ : Unit) : Option State :=
    if (splitName s.takenText).isSome then next { s with taken := [] } s.takenText else none
  match t with
  | .char c =>
    if c = ':' then
      if s.taken.isEmpty || s.colon then none else some { s.push [c] with colon := true }
    else if (if s.taken.isEmpty then isNameStart c else isNameChar c) then some (s.push [c])
    else if isGap c then finish ()
    else none
  | t => if ends.contains t then finish () else none

/-- A token of a quoted value. At the closing quote it goes on with the value. -/
def takeValue (s : State) (t : Token) (next : State → String → Option State) : Option State :=
  match s.quote, t with
  | none, .char c => if isGap c then some s else none
  | none, .quote q => some { s with quote := some q }
  | none, _ => none
  | some q, .quote r =>
    if r = q then next { s with quote := none, taken := [] } s.takenText
    else some (s.push (Token.chars t))
  | some _, .ampersand => some { s with phase := .reference, resumed := s.phase, reference := [] }
  | some _, .tagOpen => none
  | some _, .char c => if s.version.allowsPlain c then some (s.push [c]) else none
  | some _, t => some (s.push t.chars)

/-- The number that digits stand for, with a plus sign allowed in front. -/
def number? (cs : List Char) : Option Nat :=
  let unsigned (cs : List Char) : List Char :=
    match cs with
    | '+' :: rest => rest
    | cs => cs
  match cs with
  | 'x' :: hex => Number.readHexDigits (unsigned hex)
  | digits =>
    let digits := unsigned digits
    if digits.isEmpty || !digits.all Char.isDigit then none else some (Number.digitsValue digits)

def numbered? (version : Version) (cs : List Char) : Option Char := do
  let n ← number? cs
  if h : n.isValidChar then
    let c := Char.ofNatAux n h
    if version.allows c then some c else none
  else none

/-- The character that a reference stands for in every document. -/
def standing? (version : Version) (name : List Char) : Option Char :=
  match name with
  | ['l', 't'] => some '<'
  | ['g', 't'] => some '>'
  | ['a', 'm', 'p'] => some '&'
  | ['a', 'p', 'o', 's'] => some '\''
  | ['q', 'u', 'o', 't'] => some '"'
  | '#' :: digits => numbered? version digits
  | _ => none

/-- The value of an entity; the first declaration counts. -/
def entity? (s : State) (name : List Char) : Option (List Char) :=
  s.entities.lookup (String.ofList name)

/-- A token of a reference. In the text of a document the value of an entity is read as if it stood
there; in a value of an attribute it is taken as it is. -/
def takeReference (s : State) (t : Token) : Option State :=
  match t with
  | .char c =>
    if (if s.reference.isEmpty then isNameStart c || c == '#' else isNameChar c) then
      some { s with reference := c :: s.reference }
    else none
  | .semicolon =>
    let name := s.reference.reverse
    let s := { s with reference := [], phase := s.resumed }
    match standing? s.version name with
    | some c => some (if s.phase = .content then s else s.push [c])
    | none => do
      guard (name.head? != some '#')
      let value ← s.entity? name
      return if s.phase = .content then { s with inserted := value } else s.push value
  | _ => none

end State

end SpriteStage.Media.Markup
