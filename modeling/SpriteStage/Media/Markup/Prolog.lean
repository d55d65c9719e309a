import SpriteStage.Media.Markup.State

/-!
What comes before the first element: instructions, the head declaration and the document type.

The head declaration names the version and, if it likes, the encoding and whether the document
stands alone, in this order. Of the document type only the entities count: their values may hold
references by number and parameter entities, which are put in at once, and references to other
entities, which are left as they are.
-/

namespace SpriteStage.Media.Markup.State

/-! ### Instructions -/

/-- Is it a spelling of the name that is kept for the head declaration? -/
def isKeptName (name : List Char) : Bool :=
  name.map Char.toLower == ['x', 'm', 'l']

/-- A token of the name of an instruction. The name may be missing if a gap follows. -/
def takeInstructionName (s : State) (t : Token) : Option State :=
  let name := s.taken.reverse
  match t with
  | .char c =>
    if (if name.isEmpty then isNameStart c else isNameChar c) then some (s.push [c])
    else if !isGap c then none
    else if name = ['x', 'm', 'l'] ∧ s.progress = .nothing then
      some { s with taken := [], phase := .head (.before .version) }
    else if isKeptName name ∧ s.progress ≠ .nothing then none
    else some { s with taken := [], phase := .instructionData }
  | .instructionClose =>
    if name.isEmpty || isKeptName name then none
    else some ({ s with taken := [], phase := .content }.meet .comment)
  | _ => none

def takeInstructionData (s : State) (t : Token) : Option State :=
  match t with
  | .instructionClose => some ((s.goto .content).meet .comment)
  | .char c => if s.version.allows c then some s else none
  | _ => some s

/-! ### The head declaration -/

/-- The name of a clause without its first letter. -/
def clauseTail : Clause → String
  | .version => "ersion"
  | .encoding => "ncoding"
  | .standalone => "tandalone"

/-- Ends the head declaration. From here on the document is in the encoding that it names. -/
def endHead (s : State) : Option State := do
  let encoding ←
    match s.label with
    | none => some s.encoding
    | some label => (EncodingName.ofLabel? label).bind s.encoding.declared?
  return { s with encoding := encoding, progress := .head, phase := .content }

def endClause (s : State) (clause : Clause) (value : String) : Option State := do
  let s ←
    match clause with
    | .version =>
      if value = "1.0" then some { s with version := .older }
      else if value = "1.1" then some { s with version := .newer }
      else none
    | .encoding => some { s with label := some value }
    | .standalone => if value = "yes" ∨ value = "no" then some s else none
  return s.goto (.head (.afterValue clause))

/-- The clause that a letter begins, among those that may still come. -/
def clauseOf? (allowed : Clause) (c : Char) : Option Clause :=
  match allowed, c with
  | .version, 'v' => some .version
  | .encoding, 'e' => some .encoding
  | .encoding, 's' => some .standalone
  | .standalone, 's' => some .standalone
  | _, _ => none

def takeHead (s : State) (phase : HeadPhase) (t : Token) : Option State :=
  match phase, t with
  | .before clause, .char c =>
    match clauseOf? clause c with
    | some found => some (s.goto (.head (.name found)))
    | none => if isGap c then some s else none
  | .before clause, .instructionClose => if clause = .version then none else s.endHead
  | .before _, _ => none
  | .name clause, t =>
    s.takeName [.equals] t fun s name =>
      if (splitName name).map Prod.snd = some (clauseTail clause) then
        some (s.goto (.head (if t = .equals then .value clause else .afterName clause)))
      else none
  | .afterName clause, .equals => some (s.goto (.head (.value clause)))
  | .afterName _, .char c => if isGap c then some s else none
  | .afterName _, _ => none
  | .value clause, t => s.takeValue t fun s value => s.endClause clause value
  | .afterValue clause, .char c =>
    if !isGap c then none
    else
      match clause with
      | .version => some (s.goto (.head (.before .encoding)))
      | .encoding => some (s.goto (.head (.before .standalone)))
      | .standalone => some s
  | .afterValue _, .instructionClose => s.endHead
  | .afterValue _, _ => none

/-! ### The document type -/

def gotoType (s : State) (phase : TypePhase) : Option State :=
  some (s.goto (.doctype phase))

/-- Declares an entity, unless it has been declared. -/
def declare (s : State) (value : List Char) : State :=
  let name := String.ofList s.entity.reverse
  if (s.entities.lookup name).isSome then { s with entity := [] }
  else { s with entity := [], entities := (name, value) :: s.entities }

def endWord (s : State) : Option State :=
  let word := s.takenText
  let s := { s with taken := [] }
  if word = "ENTITY" then s.gotoType .beforeEntity
  else if ["NOTATION", "ELEMENT", "ATTLIST"].contains word then s.gotoType .ignored
  else none

def takeBetween (s : State) (t : Token) : Option State :=
  match t with
  | .tagClose => some (s.goto .content)
  | .declarationOpen => { s with taken := [] }.gotoType .word
  | .char '%' => { s with reference := ['%'] }.gotoType .inclusion
  | .commentOpen => s.gotoType .comment
  | .quote q => { s with quote := some q }.gotoType .quoted
  | .dataOpen => none
  | .dataClose => none
  | _ => some s

/-- A token of the name of a parameter entity; at its end `next` goes on with the value. -/
def takeInclusion (s : State) (t : Token) (next : State → List Char → Option State) :
    Option State :=
  let finish (_ : Unit) : Option State := do
    let value ← s.entity? s.reference.reverse
    next { s with reference := [] } value
  match t with
  | .semicolon => finish ()
  | .char c =>
    if isNameChar c then some { s with reference := c :: s.reference }
    else if c = ';' then finish ()
    else none
  | _ => none

/-- A token in front of the value of an entity. The value of an entity that stands elsewhere is
taken to be empty. -/
def takeBeforeValue (s : State) (t : Token) : Option State :=
  let s := { s with taken := [] }
  match t with
  | .quote q => { s with quote := some q }.gotoType .value
  | .char c =>
    if isGap c then some s
    else if c = 'S' ∨ c = 'P' then (s.declare []).gotoType .ignored
    else none
  | _ => none

def takeEntityValue (s : State) (t : Token) : Option State :=
  match t with
  | .quote q =>
    if s.quote = some q then
      ({ s with quote := none, taken := [] }.declare s.taken.reverse).gotoType .ignored
    else some (s.push t.chars)
  | .ampersand => { s with reference := [] }.gotoType .ampersand
  | .char c =>
    if c = '&' then { s with reference := [] }.gotoType .ampersand
    else if c = '%' then { s with reference := ['%'] }.gotoType .valueInclusion
    else if s.version.allows c then some (s.push [c])
    else none
  | _ => none

/-- A token of a reference by number in the value of an entity. -/
def takeNumber (s : State) (t : Token) : Option State :=
  let finish (_ : Unit) : Option State := do
    let c ← numbered? s.version s.reference.reverse
    ({ s with reference := [] }.push [c]).gotoType .value
  match t with
  | .semicolon => finish ()
  | .char c =>
    if c = ';' then finish ()
    else if s.version.allows c then some { s with reference := c :: s.reference }
    else none
  | _ => none

/-- A token of the name of an entity; `after` is the phase behind the name. -/
def takeEntityName (s : State) (t : Token) (after : TypePhase) : Option State :=
  match t with
  | .char c =>
    if isGap c then s.gotoType after
    else if isNameChar c then some { s with entity := c :: s.entity }
    else none
  | _ => none

def takeDoctype (s : State) (phase : TypePhase) (t : Token) : Option State :=
  match phase with
  | .between => s.takeBetween t
  | .quoted =>
    match t with
    | .quote q =>
      if s.quote = some q then { s with quote := none }.gotoType .between else some s
    | _ => some s
  | .comment => if t = .commentClose then s.gotoType .between else some s
  | .word =>
    match t with
    | .char c =>
      if 'A' ≤ c ∧ c ≤ 'Z' then some (s.push [c]) else if isGap c then s.endWord else none
    | _ => none
  | .ignored => if t = .tagClose then s.gotoType .between else some s
  | .beforeEntity =>
    match t with
    | .char c =>
      if isGap c then some { s with entity := [] }
      else if c = '%' then { s with entity := ['%'] }.gotoType .beforeParameter
      else if isNameStart c then { s with entity := [c] }.gotoType .entity
      else none
    | _ => none
  | .entity => s.takeEntityName t .beforeValue
  | .beforeParameter =>
    match t with
    | .char c =>
      if isGap c then some s
      else if isNameStart c then { s with entity := c :: s.entity }.gotoType .parameter
      else none
    | _ => none
  | .parameter => s.takeEntityName t .beforeValue
  | .beforeValue => s.takeBeforeValue t
  | .value => s.takeEntityValue t
  | .inclusion =>
    s.takeInclusion t fun s value => { s with inserted := value }.gotoType .between
  | .valueInclusion => s.takeInclusion t fun s value => (s.push value).gotoType .value
  | .ampersand =>
    match t with
    | .char c =>
      if c = '#' then s.gotoType .number
      else if s.version.allows c then (s.push ['&', c]).gotoType .value
      else none
    | _ => none
  | .number => s.takeNumber t

end SpriteStage.Media.Markup.State
