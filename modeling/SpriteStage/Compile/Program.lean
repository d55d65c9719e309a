import SpriteStage.Compile.Script
import SpriteStage.Project.Document

/-!
From block trees to programs: the scripts of an entity are filed by what starts them. Of several
start scripts the first counts.
-/

namespace SpriteStage.Compile

def addScript (d : Dict (List Script)) (key : String) (s : Script) : Dict (List Script) :=
  d.insert key ((d.get? key).getD [] ++ [s])

/-- Files a script under what starts it, and says what is wrong with its hat. -/
def file (p : EntityProgram) (hat : Block) (trigger : Trigger) (s : Script) :
    EntityProgram × List Complaint :=
  match trigger with
  | .start => if p.onStart.isNone then ({ p with onStart := some s }, []) else (p, [.extraStart])
  | .key =>
    match hat.fieldText? "KEY_OPTION" with
    | some key => ({ p with onKey := addScript p.onKey (Name.key key) s }, [])
    | none => ({ p with onKey := addScript p.onKey "space" s }, [.withoutKey])
  | .click => ({ p with onClick := p.onClick ++ [s] }, [])
  | .message =>
    match hat.fieldText? "BROADCAST_OPTION" with
    | some name => ({ p with onMessage := addScript p.onMessage name s }, [])
    | none => (p, [.withoutMessage])

def addHat (lookup : String → Option Block) (fuel : Nat)
    (state : EntityProgram × List (String × Complaint)) (hat : Block) :
    EntityProgram × List (String × Complaint) :=
  match hat.kind.trigger? with
  | none => state
  | some trigger =>
    let (stmts, complaints) := body lookup fuel hat
    let (program, own) := file state.1 hat trigger ⟨hat.id, stmts⟩
    (program, state.2 ++ complaints ++ own.map fun c => (hat.id, c))

/-- The program of hat blocks in a given order. -/
def hats (lookup : String → Option Block) (fuel : Nat) (blocks : List Block) :
    EntityProgram × List (String × Complaint) :=
  blocks.foldl (addHat lookup fuel) (.empty, [])

/-- The program of an entity's blocks, and what was wrong with them. -/
def tree (t : BlockTree) : EntityProgram × List (String × Complaint) :=
  hats t.get? (t.blocks.size + 1) t.hats

def entity (name : String) (t : BlockTree) : EntityProgram × List Warning :=
  let (program, complaints) := tree t
  (program, complaints.map fun (block, complaint) => ⟨name, block, complaint⟩)

end SpriteStage.Compile

namespace SpriteStage

/-- The program of a project with the warnings about it, in the order of the entities. -/
def Project.compile (p : Project) : Program × List Compile.Warning :=
  let compiled := p.entities.map fun e => Compile.entity e.name e.blocks
  (⟨compiled.map (·.1)⟩, compiled.flatMap (·.2))

end SpriteStage
