import SpriteStage.CommandLine.Prepare

/-!
A folder in memory as the surroundings of a command, together with the lines that the user has been
told.

The folder holds files and no further folders. Paths may lead out of it: the folders around it are
there, and files can be written to them.
-/

namespace SpriteStage.CommandLine

/-- Files by their places: a file's name, behind as many `../` as the file is folders outside. -/
structure Folder where
  /-- The absolute path of the folder. -/
  root : String
  files : Dict ByteArray
  /-- What the user has been told. -/
  lines : List String

namespace Folder

def isFileName (name : String) : Bool :=
  name.utf8ByteSize ≤ 255 && !name.toList.contains '\x00'

/-- The place of a file that names lead to, from a number of folders outside on. -/
def walk (out : Nat) : List String → Option String
  | [] => none
  | name :: rest =>
    if name = "" ∨ name = "." then walk out rest
    else if name = ".." then walk (out + 1) rest
    else if rest.isEmpty && isFileName name then
      some (String.join (List.replicate out "../") ++ name)
    else none

def names (path : List Char) : List String :=
  (Text.splitBy (· == '/') path).map String.ofList

/-- The place of a file that a path leads to. -/
def place? (root path : String) : Option String :=
  if (root ++ "/").toList.isPrefixOf path.toList then
    walk 0 (names (path.toList.drop (root.length + 1)))
  else if path.toList.head? = some '/' then none
  else walk 0 (names path.toList)

def read? (f : Folder) (path : String) : Option ByteArray :=
  (place? f.root path).bind f.files.get?

def write? (f : Folder) (path : String) (data : ByteArray) : Option Folder :=
  (place? f.root path).map fun place => { f with files := f.files.insert place data }

/-- The folder with the given files, if they can all be written. -/
def ofFiles? (root : String) (files : List (String × ByteArray)) : Option Folder :=
  files.foldlM (fun f (name, data) => f.write? (root ++ "/" ++ name) data) ⟨root, .empty, []⟩

/-- The absolute path of a file that is there. -/
def locate? (f : Folder) (path : String) : Option String :=
  (place? f.root path).bind fun place =>
    if f.files.contains place then some (f.root ++ "/" ++ place) else none

def surroundings : Surroundings (StateM Folder) where
  say line := modify fun f => { f with lines := f.lines ++ [line] }
  locate path := return (← get).locate? path
  read path := return (← get).read? path
  write path text := do
    match (← get).write? path text.toUTF8 with
    | some f =>
      set f
      return true
    | none => return false

end Folder

end SpriteStage.CommandLine
