import SpriteStage.Media.Markup.Character

/-!
Tokens of markup, and the lexer that finds them.

The lexer takes one character at a time and answers with the tokens that this character completes.
What a character means depends on where the lexer is: in text and tags, in the document type, in a
comment, in character data or in an instruction. After each of the latter it goes back to its home,
which is the text or, until the document type ends, the document type.
-/

namespace SpriteStage.Media.Markup

inductive Quote where
  | single
  | double
  deriving DecidableEq, Repr

/-- The pieces that a document is made of. -/
inductive Token where
  | char (c : Char)
  | quote (q : Quote)
  | equals
  | ampersand
  | semicolon
  /-- The sign `<` before a name or a gap. -/
  | tagOpen
  /-- The opening `</` of an end tag. -/
  | endTagOpen
  /-- The end `>` of a tag. -/
  | tagClose
  /-- The end `/>` of an empty tag. -/
  | emptyTagClose
  | instructionOpen
  | instructionClose
  | commentOpen
  | commentClose
  | dataOpen
  | dataClose
  | doctypeOpen
  /-- The opening `<!` of a declaration in the document type. -/
  | declarationOpen
  deriving DecidableEq, Repr

def Token.chars : Token → List Char
  | .char c => [c]
  | .quote .single => ['\'']
  | .quote .double => ['"']
  | .equals => ['=']
  | .ampersand => ['&']
  | .semicolon => [';']
  | .tagOpen => ['<']
  | .endTagOpen => ['<', '/']
  | .tagClose => ['>']
  | .emptyTagClose => ['/', '>']
  | .instructionOpen => ['<', '?']
  | .instructionClose => ['?', '>']
  | .commentOpen => ['<', '!', '-', '-']
  | .commentClose => ['-', '-', '>']
  | .dataOpen => "<![CDATA[".toList
  | .dataClose => [']', ']', '>']
  | .doctypeOpen => "<!DOCTYPE".toList
  | .declarationOpen => ['<', '!']

/-- Where the lexer is. The modes that follow another hold back characters whose meaning depends on
the next one. -/
inductive Mode where
  | text
  /-- In text, behind `/`. -/
  | slash
  /-- In text, behind `]`. -/
  | bracket
  /-- In text, behind `]]`. -/
  | brackets
  /-- Between the parts of the document type. -/
  | doctype
  /-- Behind `<`. -/
  | opened
  /-- Behind `<!`. -/
  | bang
  /-- Behind `<!-`. -/
  | bangDash
  /-- Within the opening of character data; these characters must follow. -/
  | dataOpening (awaited : List Char)
  /-- Within the opening of the document type; these characters must follow. -/
  | doctypeOpening (awaited : List Char)
  | comment
  | commentDash
  | commentDashes
  | data
  | dataBracket
  | dataBrackets
  | instruction
  /-- In an instruction, behind `?`. -/
  | instructionMark
  /-- In a declaration of the document type. -/
  | declaration
  /-- In a quoted part of such a declaration. -/
  | quoted (q : Quote)
  deriving DecidableEq, Repr

/-- A lexer: where it is, and whether the document type has not ended yet. -/
structure Lexer where
  mode : Mode
  inDoctype : Bool
  deriving DecidableEq, Repr

namespace Lexer

def start : Lexer :=
  ⟨.text, false⟩

/-- Where the lexer goes back to. -/
def home (l : Lexer) : Lexer :=
  { l with mode := if l.inDoctype then .doctype else .text }

/-- The token of a character that is one by itself everywhere but in quotes and comments. -/
def plainToken (c : Char) : Token :=
  match c with
  | '"' => .quote .double
  | '\'' => .quote .single
  | '&' => .ampersand
  | ';' => .semicolon
  | c => .char c

def takeText (l : Lexer) (c : Char) : Lexer × List Token :=
  let l := { l with mode := .text }
  match c with
  | '<' => ({ l with mode := .opened }, [])
  | '/' => ({ l with mode := .slash }, [])
  | ']' => ({ l with mode := .bracket }, [])
  | '>' => (l, [.tagClose])
  | '=' => (l, [.equals])
  | c => (l, [plainToken c])

def takeDoctype (l : Lexer) (c : Char) : Lexer × List Token :=
  match c with
  | '<' => ({ l with mode := .opened }, [])
  | '>' => (⟨.text, false⟩, [.tagClose])
  | c => ({ l with mode := .doctype }, [plainToken c])

def takeHome (l : Lexer) (c : Char) : Lexer × List Token :=
  if l.inDoctype then l.takeDoctype c else l.takeText c

def takeInstruction (l : Lexer) (c : Char) : Lexer × List Token :=
  let l := { l with mode := .instruction }
  match c with
  | '?' => ({ l with mode := .instructionMark }, [])
  | '<' => (l, [.tagOpen])
  | '>' => (l, [.tagClose])
  | '/' => (l, [.endTagOpen])
  | '=' => (l, [.equals])
  | c => (l, [plainToken c])

def takeDeclaration (l : Lexer) (c : Char) : Option (Lexer × List Token) :=
  let l := { l with mode := .declaration }
  match c with
  | '<' => none
  | '>' => some (l.home, [.tagClose])
  | '"' => some ({ l with mode := .quoted .double }, [.quote .double])
  | '\'' => some ({ l with mode := .quoted .single }, [.quote .single])
  | c => some (l, [plainToken c])

def behind (tokens : List Token) (answer : Lexer × List Token) : Lexer × List Token :=
  (answer.1, tokens ++ answer.2)

def takeOpened (l : Lexer) (c : Char) : Option (Lexer × List Token) :=
  if c = '?' then some ({ l with mode := .instruction }, [.instructionOpen])
  else if c = '/' then some (l.home, [.endTagOpen])
  else if c = '!' then some ({ l with mode := .bang }, [])
  else if isGap c || isNameChar c then some (behind [.tagOpen] (l.takeHome c))
  else none

def takeBang (l : Lexer) (c : Char) : Option (Lexer × List Token) :=
  match c with
  | '-' => some ({ l with mode := .bangDash }, [])
  | '[' => some ({ l with mode := .dataOpening "CDATA[".toList }, [])
  | 'D' => some ({ l with mode := .doctypeOpening "OCTYPE".toList }, [])
  | c =>
    if l.inDoctype ∧ (c = 'E' ∨ c = 'A' ∨ c = 'N') then
      some ({ l with mode := .declaration }, [.declarationOpen, .char c])
    else none

/-- The lexer behind a character, and the tokens that the character completes. -/
def take (l : Lexer) (c : Char) : Option (Lexer × List Token) :=
  match l.mode with
  | .text => some (l.takeText c)
  | .slash =>
    if c = '>' then some (l.home, [.emptyTagClose]) else some (behind [.char '/'] (l.takeHome c))
  | .bracket =>
    if c = ']' then some ({ l with mode := .brackets }, [])
    else some (behind [.char ']'] (l.takeText c))
  | .brackets =>
    if c = '>' then some ({ l with mode := .text }, [.dataClose])
    else if c = ']' then some (l, [.char ']'])
    else some (behind [.char ']', .char ']'] (l.takeText c))
  | .doctype => some (l.takeDoctype c)
  | .opened => l.takeOpened c
  | .bang => l.takeBang c
  | .bangDash => if c = '-' then some ({ l with mode := .comment }, [.commentOpen]) else none
  | .dataOpening [d] => if c = d then some ({ l with mode := .data }, [.dataOpen]) else none
  | .dataOpening (d :: awaited) =>
    if c = d then some ({ l with mode := .dataOpening awaited }, []) else none
  | .dataOpening [] => none
  | .doctypeOpening [d] => if c = d then some (⟨.doctype, true⟩, [.doctypeOpen]) else none
  | .doctypeOpening (d :: awaited) =>
    if c = d then some ({ l with mode := .doctypeOpening awaited }, []) else none
  | .doctypeOpening [] => none
  | .comment => if c = '-' then some ({ l with mode := .commentDash }, []) else some (l, [.char c])
  | .commentDash =>
    if c = '-' then some ({ l with mode := .commentDashes }, [])
    else some ({ l with mode := .comment }, [.char '-', .char c])
  | .commentDashes => if c = '>' then some (l.home, [.commentClose]) else none
  | .data => if c = ']' then some ({ l with mode := .dataBracket }, []) else some (l, [.char c])
  | .dataBracket =>
    if c = ']' then some ({ l with mode := .dataBrackets }, [])
    else some ({ l with mode := .data }, [.char ']', .char c])
  | .dataBrackets =>
    if c = '>' then some ({ l with mode := .text }, [.dataClose])
    else if c = ']' then some (l, [.char ']'])
    else some ({ l with mode := .data }, [.char ']', .char ']', .char c])
  | .instruction => some (l.takeInstruction c)
  | .instructionMark =>
    if c = '>' then some (l.home, [.instructionClose])
    else some (behind [.char '?'] (l.takeInstruction c))
  | .declaration => l.takeDeclaration c
  | .quoted q =>
    if [c] = Token.chars (.quote q) then some ({ l with mode := .declaration }, [.quote q])
    else some (l, [.char c])

end Lexer

end SpriteStage.Media.Markup
