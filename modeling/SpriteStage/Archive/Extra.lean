import SpriteStage.Archive.Crc
import SpriteStage.Archive.Entry

/-!
The further fields of an entry of the directory.

Each field has a kind and a size. Some kinds change the entry: wide sizes, a cipher, a name or a
comment in UTF-8. Others are only checked or passed by. A field that ends too early ends the reading
quietly, and what the fields before it have changed stays; a field that is wrong in itself makes the
archive invalid.
-/

namespace SpriteStage.Archive

/-- Why the reading of fields ends. -/
inductive FieldFault where
  | cutOff
  | refused
  deriving DecidableEq, Repr

/-- An entry, and what is left of its fields. -/
structure FieldCursor where
  entry : Entry
  rest : List UInt8

/-- Reads fields; what has been changed stays changed when the reading fails. -/
abbrev FieldReader :=
  ExceptT FieldFault (StateM FieldCursor)

namespace FieldReader

def bytes (n : Nat) : FieldReader (List UInt8) := do
  let c ← get
  if c.rest.length < n then throw .cutOff
  else
    set { c with rest := c.rest.drop n }
    return c.rest.take n

def number (n : Nat) : FieldReader Nat :=
  Bytes.lowFirst <$> bytes n

def require (condition : Bool) : FieldReader Unit :=
  unless condition do throw .refused

def entry : FieldReader Entry :=
  FieldCursor.entry <$> get

def change (f : Entry → Entry) : FieldReader Unit :=
  modify fun c => { c with entry := f c.entry }

/-- Reads a wide number in the place of a narrow one, if all of them are there or the narrow one
says so; the answer is how many bytes it took. -/
def wide (size narrow : Nat) (store : Nat → Entry → Entry) : FieldReader Nat := do
  if 24 ≤ size ∨ narrow = elsewhere then
    let value ← number 8
    change (store value)
    return 8
  else return 0

def wideNumbers (size : Nat) : FieldReader Unit := do
  let first ← wide size (← entry).size fun value e => { e with size := value }
  let second ← wide size (← entry).packedSize fun value e => { e with packedSize := value }
  let third ← wide size (← entry).start fun value e => { e with start := value }
  let taken := first + second + third
  require (taken ≤ size)
  let _ ← bytes (size - taken)

def fineTimes (size : Nat) : FieldReader Unit := do
  require (size = 32)
  let _ ← bytes 4
  let tag ← number 2
  require (tag = 1)
  let length ← number 2
  require (length = 24)
  let _ ← bytes 24

def cipher (size : Nat) : FieldReader Unit := do
  require (size = 7)
  let version ← number 2
  let vendor ← number 2
  let strength ← number 1
  let method ← number 2
  require (vendor = 0x4541)
  require (version = 1 ∨ version = 2)
  require (1 ≤ strength ∧ strength ≤ 3)
  change fun e => { e with ciphered := true, method := method }

/-- Times in seconds; flags say which of them are there. -/
def times (size : Nat) : FieldReader Unit := do
  let flags ← number 1
  let flagged := ((List.range 8).filter flags.testBit).length
  require (size = 5 ∨ size = 1 + 4 * flagged)
  if flags.testBit 0 ∨ size = 5 then
    let _ ← bytes 4
  if flags.testBit 1 ∧ 5 < size then
    let _ ← bytes 4
  if flags.testBit 2 ∧ 5 < size then
    let _ ← bytes 4

/-- A text in UTF-8, which holds only if the checksum is that of the text it stands for. -/
def modernText (size : Nat) (old : Entry → ByteArray) : FieldReader (ByteArray × String) := do
  let _ ← bytes 1
  let checksum ← number 4
  require (5 ≤ size)
  let content : ByteArray := ⟨(← bytes (size - 5)).toArray⟩
  require ((crc32 (old (← entry))).toNat = checksum)
  let some text := Bytes.text? content | throw .refused
  return (content, text)

def field (kind size : Nat) : FieldReader Unit := do
  match kind with
  | 0x0001 => wideNumbers size
  | 0x000A => fineTimes size
  | 0x9901 => cipher size
  | 0x5455 => times size
  | 0x6375 =>
    let (_, text) ← modernText size (·.comment.toUTF8)
    change fun e => { e with comment := text }
  | 0x7075 =>
    let (content, text) ← modernText size (·.rawName)
    change fun e => { e with name := text, rawName := content }
  | _ =>
    let _ ← bytes size

/-- Fields up to the end, at most as many as the first argument says. -/
def fields : Nat → FieldReader Unit
  | 0 => return ()
  | n + 1 => do
    unless (← get).rest.isEmpty do
      let kind ← number 2
      let size ← number 2
      field kind size
      fields n

end FieldReader

/-- The entry as its further fields change it. A field takes four bytes at least, so the bound on
the number of fields is never met. -/
def Entry.amended? (e : Entry) (extra : ByteArray) : Option Entry :=
  let (outcome, cursor) := (FieldReader.fields extra.size).run.run ⟨e, extra.toList⟩
  let isRefused := match outcome with
    | .error .refused => true
    | _ => false
  if isRefused || (cursor.entry.method = cipherMethod && !cursor.entry.ciphered) then none
  else some cursor.entry

end SpriteStage.Archive
