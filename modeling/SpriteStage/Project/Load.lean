import SpriteStage.Json.Reader
import SpriteStage.Project.Reader

/-!
Loading a project from the bytes of a file: a document by itself, or an archive that holds one
together with its assets.
-/

namespace SpriteStage.Project

def readDocument (data : ByteArray) (entries : List Archive.Entry) : Except LoadError Json := do
  let some entry := entries.find? (·.name == "project.json") | throw .noDocument
  let .ok packed := entry.packed data | throw .noDocument
  let bytes ← (entry.unpack packed).mapError .badEntry
  let some text := Bytes.text? bytes | throw .badText
  (entry.check bytes).mapError .badEntry
  let some file := Json.parse? text Json.documentDepth | throw .badArchiveDocument
  return file

/-- Is it the name of an asset, and not of the document or of a directory? -/
def isAsset (name : String) : Bool :=
  name != "project.json" && name.toList.getLast? != some '/'

/-- The assets among the entries of an archive. Other entries are opened too, and not read. -/
def readAssets (data : ByteArray) (entries : List Archive.Entry) :
    Except Archive.ReadError Assets := do
  let read ← entries.mapM fun entry => do
    let packed ← entry.packed data
    if isAsset entry.name then return some (entry.name, ← entry.read packed) else return none
  return .ofList (read.filterMap id)

def readArchive (data : ByteArray) : Except LoadError (Json × Assets) := do
  let some entries := Archive.entries? data | throw .noArchive
  let file ← readDocument data entries
  let assets ← (readAssets data entries).mapError .badEntry
  return (file, assets)

/-- The name at the end of a path, which may be followed by slashes and names of the same folder. -/
def fileName (path : String) : List Char :=
  let names := (Text.splitBy (· == '/') path.toList).filter fun name => name != [] && name != ['.']
  names.getLast?.getD []

/-- The part of a file's name behind its last dot, if a name stands before it. -/
def extension? (path : String) : Option String :=
  let name := fileName path
  let pieces := Text.splitBy (· == '.') name
  match pieces.getLast? with
  | some last =>
    if name = ['.', '.'] || pieces.length < 2 || (pieces.length = 2 && pieces.head? = some []) then
      none
    else some (String.ofList last)
  | none => none

/-- Is it the name of a document and not of an archive? -/
def isDocument (path : String) : Bool :=
  match extension? path with
  | some extension => Text.equalFold extension "json"
  | none => false

/-- The project in a file with the given name; the data is missing if the file cannot be read. -/
def load (path : String) (data : Option ByteArray) : Except LoadError Project := do
  if isDocument path then
    let some text := data.bind Bytes.text? | throw (.unreadable path)
    let some file := Json.parse? text Json.documentDepth | throw (.badDocument path)
    read file .empty
  else
    let some data := data | throw (.unopenable path)
    match readArchive data with
    | .ok (file, assets) => read file assets
    | .error _ => throw (.badArchive path)

end SpriteStage.Project
