/-!
Warnings of compilation. Compilation never fails; what it cannot use it leaves out or replaces by a
default, and says so.
-/

namespace SpriteStage.Compile

inductive Complaint where
  | chainLoops
  | chainMissing
  | reporterLoops
  | inputMissing
  | hatInside
  | reporterAsStatement
  | statementAsValue
  | unsupportedStatement (opcode : String)
  | unsupportedReporter (opcode : String)
  | unknownFunction (label : String)
  | withoutVariable
  | withoutDefault (slot opcode : String)
  | extraStart
  | withoutKey
  | withoutMessage
  deriving DecidableEq, Repr

def Complaint.message : Complaint → String
  | .chainLoops => "block chain loops back on itself; cut here"
  | .chainMissing => "chain points at a missing block"
  | .reporterLoops => "reporter refers back to itself; default used"
  | .inputMissing => "input points at a missing block; default used"
  | .hatInside => "hat block inside a script ignored"
  | .reporterAsStatement => "reporter used as a statement ignored"
  | .statementAsValue => "statement block used as a value; default used"
  | .unsupportedStatement opcode => s!"unsupported opcode '{opcode}' skipped"
  | .unsupportedReporter opcode => s!"unsupported reporter '{opcode}'; default used"
  | .unknownFunction label => s!"unknown math function '{label}', value passed through"
  | .withoutVariable => "variable block without a variable"
  | .withoutDefault slot opcode => s!"no default for slot {slot} of {opcode}"
  | .extraStart => "additional start script ignored"
  | .withoutKey => "key hat without a key, using space"
  | .withoutMessage => "message hat without a message name"

/-- A complaint about a block of an entity. -/
structure Warning where
  entity : String
  block : String
  complaint : Complaint
  deriving DecidableEq, Repr

def Warning.text (w : Warning) : String :=
  s!"{w.entity} (block {w.block}): {w.complaint.message}"

end SpriteStage.Compile
