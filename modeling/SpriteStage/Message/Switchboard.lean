import SpriteStage.Host.Event
import SpriteStage.Name

/-!
The switchboard: which scripts listen to which messages, keys and clicks, and which messages have
been sent.

Listeners of one name stand in the order of their registration. Names are kept in their normal form,
so names that differ only in spelling share a slot.
-/

namespace SpriteStage

/-- A script of an entity that waits for something. -/
structure Listener where
  entity : EntityId
  script : Script

/-- A message that was sent, and who received it. -/
structure MessageRecord where
  name : String
  sender : EntityId
  timestampMs : Nat
  receivedBy : List EntityId
  deriving DecidableEq, Repr

def MessageRecord.toJson (r : MessageRecord) : Json :=
  .obj [
    ("name", .str r.name),
    ("sender", .nat r.sender),
    ("timestamp_ms", .nat r.timestampMs),
    ("received_by", .list .nat r.receivedBy)]

def MessageRecord.ofJson? (j : Json) : Option MessageRecord := do
  let f ← j.fields? ["name", "sender", "timestamp_ms", "received_by"]
  return ⟨← f.get "name" Json.str?, ← f.get "sender" Json.nat?, ← f.get "timestamp_ms" Json.nat?,
    ← f.get "received_by" (Json.list? Json.nat?)⟩

/-! ### Slots -/

/-- Listeners by name; a name has one slot at most. -/
abbrev Slots := List (String × List Listener)

namespace Slots

def get (slots : Slots) (name : String) : List Listener :=
  match slots with
  | [] => []
  | (other, listeners) :: rest => if other = name then listeners else get rest name

/-- Adds listeners behind those of a name. -/
def extend (name : String) (listeners : List Listener) : Slots → Slots
  | [] => [(name, listeners)]
  | (other, present) :: rest =>
    if other = name then (other, present ++ listeners) :: rest
    else (other, present) :: extend name listeners rest

theorem get_extend (name other : String) (listeners : List Listener) (slots : Slots) :
    (extend name listeners slots).get other =
      slots.get other ++ if name = other then listeners else [] := by
  induction slots with
  | nil => by_cases h : name = other <;> simp [extend, get, h]
  | cons slot rest ih =>
    obtain ⟨key, present⟩ := slot
    by_cases hkey : key = name
    · subst hkey
      by_cases h : key = other <;> simp [extend, get, h]
    · by_cases h : key = other
      · subst h
        simp [extend, get, hkey, Ne.symm hkey]
      · simp [extend, get, hkey, h, ih]

def clear (slots : Slots) (entity : EntityId) : Slots :=
  (slots.map fun (name, listeners) => (name, listeners.filter (·.entity != entity))).filter
    fun (_, listeners) => !listeners.isEmpty

/-- Adds the scripts of an entity, each name in its normal form. -/
def register (slots : Slots) (normal : String → String) (entity : EntityId)
    (scripts : Dict (List Script)) : Slots :=
  scripts.entries.foldl (fun slots (name, scripts) =>
    extend (normal name) (scripts.map fun s => ⟨entity, s⟩) slots) slots

end Slots

/-! ### The switchboard -/

/-- The key name under which listeners of every key are registered. -/
def anyKey : String :=
  "any"

/-- Listeners, and the messages sent of late. -/
structure Switchboard where
  messages : Slots
  keys : Slots
  clicks : List (EntityId × List Listener)
  history : List MessageRecord
  /-- How many messages are remembered. -/
  capacity : Nat

namespace Switchboard

def empty (capacity : Nat) : Switchboard :=
  ⟨[], [], [], [], capacity⟩

def clearEntity (b : Switchboard) (entity : EntityId) : Switchboard :=
  { b with
    messages := b.messages.clear entity
    keys := b.keys.clear entity
    clicks := b.clicks.filter (·.1 != entity) }

def clearListeners (b : Switchboard) : Switchboard :=
  { b with messages := [], keys := [], clicks := [] }

/-- Puts the scripts of a program in place of all listeners of an entity. -/
def register (b : Switchboard) (entity : EntityId) (p : EntityProgram) : Switchboard :=
  let b := b.clearEntity entity
  { b with
    keys := b.keys.register Name.key entity p.onKey
    clicks :=
      if p.onClick.isEmpty then b.clicks
      else (entity, p.onClick.map fun s => ⟨entity, s⟩) :: b.clicks
    messages := b.messages.register Name.message entity p.onMessage }

def messageListeners (b : Switchboard) (name : String) : List Listener :=
  b.messages.get (Name.message name)

/-- The listeners to a key, then those to every key. -/
def keyListeners (b : Switchboard) (key : String) : List Listener :=
  let key := Name.key key
  if key = anyKey then b.keys.get key else b.keys.get key ++ b.keys.get anyKey

def clickListeners (b : Switchboard) (entity : EntityId) : List Listener :=
  (b.clicks.lookup entity).getD []

/-- Remembers a message, forgetting the oldest ones beyond the capacity. -/
def record (b : Switchboard) (r : MessageRecord) : Switchboard :=
  let all := b.history ++ [r]
  { b with history := all.drop (all.length - b.capacity) }

end Switchboard

end SpriteStage
