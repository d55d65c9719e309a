import SpriteStage.Media.Markup.Prolog

/-!
Elements and their content.

Tags close in order, attributes are quoted and occur once, and the space of a name is bound by an
attribute of the element or of one around it.
-/

namespace SpriteStage.Media.Markup.State

/-! ### Tags -/

/-- The space to which names of the language itself belong. -/
def ownSpace : String :=
  "http://www.w3.org/XML/1998/namespace"

/-- The space of the attributes that bind spaces. -/
def bindingSpace : String :=
  "http://www.w3.org/2000/xmlns/"

/-- The spaces bound around the present place. -/
def bound (s : State) : List String :=
  match s.elements with
  | [] => ["xml", "xmlns"]
  | e :: _ => e.bound

/-- Is the name made of a bound space and a local part, or of the latter only? -/
def isBound (spaces : List String) (name : String) : Bool :=
  match splitName name with
  | some (space, _) => space.isEmpty || spaces.contains space
  | none => false

/-- The attributes by their local names; the last one counts. -/
def localAttributes (attributes : List (String × String)) : Dict String :=
  .ofList (attributes.filterMap fun (name, value) =>
    (splitName name).map fun (_, localName) => (localName, value))

def beginTag (s : State) : State :=
  { s with phase := .tagName, taken := [], attributes := [], bindings := [] }.meet .element

/-- Ends a tag, and enters the element unless it is empty. -/
def endTag (s : State) (isEmpty : Bool) : Option State :=
  let spaces := s.bindings ++ s.bound
  if isBound spaces s.tagName && s.attributes.all fun (name, _) => isBound spaces name then
    some { s with
      phase := .content
      root := s.root.or (some (localAttributes s.attributes))
      elements := if isEmpty then s.elements else ⟨s.tagName, spaces⟩ :: s.elements }
  else none

/-- Is the space of the name one that no element may have? -/
def isReserved (name : String) : Bool :=
  match splitName name with
  | some (space, _) => space == "xml" || space == "xmlns"
  | none => false

/-- A token that ends a tag or, as a gap, goes on in it. -/
def takeTagEnd (s : State) (t : Token) : Option State :=
  match t with
  | .tagClose => s.endTag false
  | .emptyTagClose => s.endTag true
  | .char c => if isGap c then some (s.goto .tag) else none
  | _ => none

/-- Takes an attribute of a tag, which may bind a space. -/
def endAttribute (s : State) (value : String) : Option State :=
  let s := s.goto .afterAttributeValue
  match splitName s.attributeName with
  | some ("xmlns", space) =>
    if space = "xmlns" ∨ (space = "xml" ∧ value ≠ ownSpace) ∨ value.isEmpty then none
    else some { s with bindings := space :: s.bindings }
  | some ("", "xmlns") =>
    if ["xml", "xmlns", ownSpace, bindingSpace].contains value then none else some s
  | _ => some { s with attributes := s.attributes ++ [(s.attributeName, value)] }

def takeTag (s : State) (t : Token) : Option State :=
  match s.phase with
  | .tagName =>
    s.takeName [.tagClose, .emptyTagClose] t fun s name =>
      if isReserved name then none else { s with tagName := name }.takeTagEnd t
  | .tag =>
    match t with
    | .char c =>
      if isGap c then some s
      else if isNameStart c then some ((s.push [c]).goto .attributeName)
      else none
    | t => s.takeTagEnd t
  | .attributeName =>
    s.takeName [.equals] t fun s name =>
      if s.attributes.any (·.1 == name) then none
      else
        some { s with
          attributeName := name
          phase := if t = .equals then .attributeValue else .afterAttributeName }
  | .afterAttributeName =>
    match t with
    | .char c => if isGap c then some s else none
    | .equals => some (s.goto .attributeValue)
    | _ => none
  | .attributeValue => s.takeValue t endAttribute
  | .afterAttributeValue => s.takeTagEnd t
  | _ => none

def leave (s : State) : Option State :=
  match s.elements with
  | e :: elements =>
    if e.name = s.tagName then some { s with elements := elements, phase := .content } else none
  | [] => none

def takeEndTag (s : State) (t : Token) : Option State :=
  match s.phase with
  | .endTagName =>
    s.takeName [.tagClose] t fun s name =>
      let s := { s with tagName := name }
      if t = .tagClose then s.leave else some (s.goto .afterEndTagName)
  | _ =>
    match t with
    | .tagClose => s.leave
    | .char c => if isGap c then some s else none
    | _ => none

/-! ### Content -/

/-- A token between tags. -/
def takeContent (s : State) (t : Token) : Option State :=
  match t with
  | .char c =>
    if isGap c || (!s.isOutside && s.version.allowsPlain c) then some s else none
  | .commentClose | .tagClose | .equals | .quote _ | .instructionClose | .emptyTagClose
  | .semicolon => if s.isOutside then none else some s
  | .ampersand =>
    if s.isOutside then none
    else some { s with phase := .reference, resumed := .content, reference := [] }
  | .tagOpen => some s.beginTag
  | .endTagOpen => if s.isOutside then none else some { s with phase := .endTagName, taken := [] }
  | .commentOpen => some ((s.goto .comment).meet .comment)
  | .doctypeOpen =>
    if s.progress.rank < Progress.doctype.rank then
      some ((s.goto (.doctype .between)).meet .doctype)
    else none
  | .instructionOpen => some { s with phase := .instructionName, taken := [] }
  | .dataOpen => if s.isOutside then none else some (s.goto .data)
  | .dataClose | .declarationOpen => none

def takeStart (s : State) (t : Token) : Option State :=
  match t with
  | .char c => if isGap c then some ((s.goto .content).meet .gap) else none
  | .commentOpen | .tagOpen | .doctypeOpen | .instructionOpen => s.takeContent t
  | _ => none

def take (s : State) (t : Token) : Option State :=
  match s.phase with
  | .start => s.takeStart t
  | .content => s.takeContent t
  | .reference => s.takeReference t
  | .comment =>
    match t with
    | .commentClose => some (s.goto .content)
    | .char c => if s.version.allows c then some s else none
    | _ => some s
  | .data =>
    match t with
    | .dataClose => some (s.goto .content)
    | .char c => if s.version.allows c then some s else none
    | _ => some s
  | .instructionName => s.takeInstructionName t
  | .instructionData => s.takeInstructionData t
  | .head phase => s.takeHead phase t
  | .doctype phase => s.takeDoctype phase t
  | .endTagName | .afterEndTagName => s.takeEndTag t
  | _ => s.takeTag t

end SpriteStage.Media.Markup.State
