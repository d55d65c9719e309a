import SpriteStage.Archive.Zip

/-!
Why a project cannot be loaded.
-/

namespace SpriteStage.Project

/-- A cause of failure while loading a project. -/
inductive LoadError where
  | unreadable (path : String)
  | unopenable (path : String)
  | badDocument (path : String)
  | badArchive (path : String)
  | noArchive
  | noDocument
  | badText
  | badArchiveDocument
  | badEntry (cause : Archive.ReadError)
  | noTargets
  | noName
  | noStageFlag (target : String)
  | noBlocks (target : String)
  | badDrawing (fileName : String)
  | notFound (path : String)
  deriving DecidableEq, Repr

def LoadError.message : LoadError → String
  | .unreadable path => s!"Failed to read '{path}'."
  | .unopenable path => s!"Failed to open '{path}'."
  | .badDocument path => s!"Invalid project.json '{path}'."
  | .badArchive path => s!"Failed to read project archive '{path}'."
  | .noArchive => "Input is not a valid zip/.sb3 archive."
  | .noDocument => "project.json not found in archive."
  | .badText => "stream did not contain valid UTF-8"
  | .badArchiveDocument => "Invalid project.json inside archive."
  | .badEntry .badHeader => "invalid Zip archive: Invalid local file header"
  | .badEntry .encrypted => "unsupported Zip archive: Password required to decrypt file"
  | .badEntry .ciphered => "provided password is incorrect"
  | .badEntry .unknownMethod => "unsupported Zip archive: Compression method not supported"
  | .badEntry (.damaged .corrupt) => "corrupt deflate stream"
  | .badEntry (.damaged .cutOff) => "incomplete deflate stream"
  | .badEntry .badChecksum => "Invalid checksum"
  | .noTargets => "Invalid project.json: missing 'targets' array."
  | .noName => "Target missing 'name'."
  | .noStageFlag target => s!"Target '{target}' missing isStage."
  | .noBlocks target => s!"Target '{target}' missing blocks object."
  | .badDrawing fileName => s!"Invalid SVG costume '{fileName}'"
  | .notFound path => s!"Input file not found: '{path}'."

end SpriteStage.Project
