import SpriteStage.Json.Basic

/-!
Records.

A record is written as an object; it may also be given as the list of its fields in their order. A
record of several kinds has a tag, a field of the object or the first item of the list. Unknown
fields are ignored. A decoder answers `none` if the value is not of its type.

How freely tags and choices may be written depends on where a value stands: by itself, or inside a
tagged record. Decoders for which this makes a difference take the standing as an argument.
-/

namespace SpriteStage.Json

/-- A record of the kind that the tag says. -/
def record (tag kind : String) (fields : List (String × Json)) : Json :=
  .obj ((tag, .str kind) :: fields)

/-- The fields of a record on their way to being decoded. -/
inductive Fields where
  /-- Named fields: one that is missing counts as null where null is allowed. -/
  | named (fields : List (String × Json))
  /-- Fields by position: a missing one is missing. -/
  | listed (fields : List (String × Json))

/-- The fields of a record whose fields have these names, in this order. -/
def fields? (names : List String) : Json → Option Fields
  | .obj fields => some (.named fields)
  | .arr items =>
    if items.length ≤ names.length then some (.listed (names.zip items)) else none
  | _ => none

namespace Fields

def find? (name : String) : Fields → Option Json
  | .named fields => Dict.lookupIn name fields
  | .listed fields => Dict.lookupIn name fields

def get {α : Type} (fields : Fields) (name : String) (decode : Json → Option α) : Option α :=
  (fields.find? name).bind decode

/-- A field that has a value or null. -/
def getOption {α : Type} (fields : Fields) (name : String) (decode : Json → Option α) :
    Option (Option α) :=
  match fields.find? name with
  | some .null => some none
  | some j => (decode j).map some
  | none =>
    match fields with
    | .named _ => some none
    | .listed _ => none

def getD {α : Type} (fields : Fields) (name : String) (decode : Json → Option α) (default : α) :
    Option α :=
  match fields.find? name with
  | some j => decode j
  | none => some default

/-- A field with a value or null, which may be missing in both forms. -/
def getOptionD {α : Type} (fields : Fields) (name : String) (decode : Json → Option α) :
    Option (Option α) :=
  match fields.find? name with
  | some .null => some none
  | some j => (decode j).map some
  | none => some none

end Fields

/-- Where a value stands. The parts of a tagged record may be written more freely than a value by
itself: a tag may be the number of its kind, and a choice may carry an empty object. -/
inductive Standing where
  | alone
  | inside
  deriving DecidableEq, Repr

/-- The kind that a tag names, where `kinds` are the kinds in their order. -/
def kind? (standing : Standing) (kinds : List String) : Json → Option String
  | .str kind => some kind
  | .int n => if standing = .inside ∧ 0 ≤ n then kinds[n.toNat]? else none
  | _ => none

/-- The kind of a tagged record, and the record without its tag. -/
def tagged? (standing : Standing) (tag : String) (kinds : List String) :
    Json → Option (String × Json)
  | .obj fields => do
    let kind ← kind? standing kinds (← Dict.lookupIn tag fields)
    return (kind, .obj (fields.filter fun p => p.1 != tag))
  | .arr (first :: rest) => do
    let kind ← kind? standing kinds first
    return (kind, .arr rest)
  | _ => none

/-- The name of a choice without fields: a text, or an object whose one field is empty. -/
def word? (standing : Standing) : Json → Option String
  | .str s => some s
  | .obj [(s, .null)] => some s
  | .obj [(s, .obj [])] => if standing = .inside then some s else none
  | _ => none

def choice? {α : Type} (standing : Standing) (ofName? : String → Option α) (j : Json) : Option α :=
  (j.word? standing).bind ofName?

def list? {α : Type} (decode : Json → Option α) : Json → Option (List α)
  | .arr items => items.mapM decode
  | _ => none

def dict? {α : Type} (decode : Json → Option α) : Json → Option (Dict α)
  | .obj fields =>
    (fields.mapM fun p => (decode p.2).map fun value => (p.1, value)).map Dict.ofList
  | _ => none

def option? {α : Type} (decode : Json → Option α) : Json → Option (Option α)
  | .null => some none
  | j => (decode j).map some

def pair? : Json → Option (Float × Float)
  | .arr [x, y] => x.float?.bind fun x => y.float?.map fun y => (x, y)
  | _ => none

end SpriteStage.Json
