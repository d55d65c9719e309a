import SpriteStage.Host.Event
import SpriteStage.Message.Switchboard
import SpriteStage.Proofs.Project.RoundTrip
import SpriteStage.Proofs.Script.RoundTrip

/-!
Commands and events survive being written as JSON.

With the scripts that they carry and with projects, these are all the data that go between a host and
the stage. For every type of them the decoder gives back what was encoded, if the numbers in it are
finite.
-/

namespace SpriteStage

open Json

theorem MessageRecord.ofJson?_toJson (r : MessageRecord) : ofJson? r.toJson = some r :=
  build (list?_list fun n _ => nat?_nat n) rfl

/-! ### Patches -/

namespace EntityPatch

theorem lookupIn_present {α : Type} (key name : String) (encode : α → Json) (v : Option α) :
    Dict.lookupIn key (present name encode v) = if name = key then v.map encode else none := by
  cases v <;> simp [present, Dict.lookupIn]

theorem getD_map {α : Type} (encode : α → Json) (v : Option α) :
    (v.map encode).getD .null = option encode v := by
  cases v <;> rfl

def isFinite (p : EntityPatch) : Bool :=
  p.x.all Float.isFinite && p.y.all Float.isFinite && p.canvasX.all Float.isFinite &&
    p.canvasY.all Float.isFinite && p.rotation.all Float.isFinite && p.scale.all Float.isFinite

theorem ofJson?_toJson {p : EntityPatch} (h : p.isFinite = true) : ofJson? p.toJson = some p := by
  simp only [isFinite, Bool.and_eq_true, Option.all_eq_true] at h
  obtain ⟨⟨⟨⟨⟨hx, hy⟩, hcanvasX⟩, hcanvasY⟩, hrotation⟩, hscale⟩ := h
  have hnumber {name : String} {fields : Fields} {v : Option Float}
      (hv : ∀ x ∈ v, x.isFinite = true) (hfind : (fields.find? name).getD .null = option num v) :=
    Fields.getOptionD_option hfind rfl fun x h => float?_num (hv x h)
  refine build (hnumber hx ?_) (build (hnumber hy ?_) (build (hnumber hcanvasX ?_) (build
    (hnumber hcanvasY ?_) (build (hnumber hrotation ?_) (build (hnumber hscale ?_) (build
    (Fields.getOptionD_option ?_ rfl fun b _ => bool?_bool b) (build
    (Fields.getOptionD_option ?_ rfl fun n _ => nat?_nat n) rfl)))))))
  all_goals simp [Fields.find?, Dict.lookupIn_append, lookupIn_present, getD_map]

end EntityPatch

/-! ### Commands and events -/

namespace HostCommand

def isFinite : HostCommand → Bool
  | .loadProgram entities program => entities.all EntitySpec.isFinite && program.isFinite
  | .mousePosition x y => x.isFinite && y.isFinite
  | .updateCode _ program => program.isFinite
  | _ => true

theorem ofJson?_toJson {c : HostCommand} (h : c.isFinite = true) : ofJson? c.toJson = some c := by
  cases c with
  | start | stop | shutdown | keyDown | keyUp | clickEntity => rfl
  | loadProgram entities program =>
    rw [isFinite, Bool.and_eq_true, List.all_eq_true] at h
    have hentities := list?_list fun s hs => EntitySpec.read_toJson .inside (h.1 s hs)
    exact build hentities (build (Program.read_toJson .inside h.2) rfl)
  | mousePosition x y =>
    rw [isFinite, Bool.and_eq_true] at h
    exact build (float?_num h.1) (build (float?_num h.2) rfl)
  | updateCode => exact build (EntityProgram.read_toJson .inside h) rfl

end HostCommand

namespace HostEvent

def isFinite : HostEvent → Bool
  | .entityStateChanged _ patch => patch.isFinite
  | .variableVisibilityChanged _ _ value => value.isFinite
  | _ => true

theorem ofJson?_toJson {e : HostEvent} (h : e.isFinite = true) : ofJson? e.toJson = some e := by
  cases e with
  | executionStopped | switchBackground | messageBroadcastObserved | mousePositionRequest
  | soundStarted | soundsStopped => rfl
  | entityStateChanged => exact build (EntityPatch.ofJson?_toJson h) rfl
  | runtimeError => exact build (Fields.getOption_option rfl rfl fun n _ => nat?_nat n) rfl
  | speechBubble _ _ kind =>
    refine build kind.ofName?_name (build ?_ rfl)
    exact Fields.getOption_option rfl rfl fun n _ => nat?_nat n
  | variableVisibilityChanged => exact build (Value.ofJson?_toJson h) rfl

end HostEvent

/-! ### All data -/

/-- Every type of data, at any depth of nesting. The literal fields of blocks are values; scripts,
programs and descriptions of entities are read by themselves and inside of commands. -/
theorem data_survive_json :
    (∀ c : HostCommand, c.isFinite = true → HostCommand.ofJson? c.toJson = some c) ∧
    (∀ e : HostEvent, e.isFinite = true → HostEvent.ofJson? e.toJson = some e) ∧
    (∀ p : EntityPatch, p.isFinite = true → EntityPatch.ofJson? p.toJson = some p) ∧
    (∀ standing, ∀ p : Program, p.isFinite = true → Program.read standing p.toJson = some p) ∧
    (∀ standing, ∀ p : EntityProgram, p.isFinite = true →
      EntityProgram.read standing p.toJson = some p) ∧
    (∀ standing, ∀ s : Script, s.isFinite = true → Script.read standing s.toJson = some s) ∧
    (∀ standing, ∀ s : Stmt, s.isFinite = true → Stmt.read standing s.toJson = some s) ∧
    (∀ standing, ∀ e : Expr, e.isFinite = true → Expr.read standing e.toJson = some e) ∧
    (∀ v : Value, v.isFinite = true → Value.ofJson? v.toJson = some v) ∧
    (∀ b : Block, b.isFinite = true → Block.ofJson? b.toJson = some b) ∧
    (∀ t : BlockTree, t.isFinite = true → BlockTree.ofJson? t.toJson = some t) ∧
    (∀ standing, ∀ s : EntitySpec, s.isFinite = true → EntitySpec.read standing s.toJson = some s) ∧
    (∀ e : EntityDoc, e.isFinite = true → EntityDoc.ofJson? e.toJson = some e) ∧
    (∀ p : Project, p.isFinite = true → Project.ofJson? p.toJson = some p) ∧
    ∀ r : MessageRecord, MessageRecord.ofJson? r.toJson = some r :=
  ⟨fun _ => HostCommand.ofJson?_toJson, fun _ => HostEvent.ofJson?_toJson,
    fun _ => EntityPatch.ofJson?_toJson, fun standing _ => Program.read_toJson standing,
    fun standing _ => EntityProgram.read_toJson standing,
    fun standing _ => Script.read_toJson standing, fun standing _ => Stmt.read_toJson standing,
    fun standing _ => Expr.read_toJson standing, fun _ => Value.ofJson?_toJson,
    fun _ => Block.ofJson?_toJson, fun _ => BlockTree.ofJson?_toJson,
    fun standing _ => EntitySpec.read_toJson standing, fun _ => EntityDoc.ofJson?_toJson,
    fun _ => Project.ofJson?_toJson, MessageRecord.ofJson?_toJson⟩

/-- A command with a script of nested statements. -/
def sampleCommand : HostCommand :=
  .updateCode 2 ⟨some ⟨"hat", [.forever [.branch (.compare .lt (.var "n") (.literal (.number 2.5)))
    [.act (.speech .say (.var "n") (some (.literal (.number 0.5))))] [.act .yield]]]⟩, .empty, [],
    .empty⟩

/-- A project with one block. -/
def sampleProject : Project :=
  ⟨[⟨"Cat", .sprite, 0, -1.5, 90, 100, true, 0, [], [], [⟨"n", .number 3, true, some (1, 2)⟩],
    BlockTree.empty.insert (.ofOpcode "a" "event_whenflagclicked")⟩]⟩

theorem data_survive_json_sample :
    sampleCommand.isFinite = true ∧ HostCommand.ofJson? sampleCommand.toJson = some sampleCommand ∧
    sampleProject.isFinite = true ∧ Project.ofJson? sampleProject.toJson = some sampleProject := by
  have hcommand : sampleCommand.isFinite = true := by decide +kernel
  have hproject : sampleProject.isFinite = true := by decide +kernel
  obtain ⟨hcommands, -, -, -, -, -, -, -, -, -, -, -, -, hprojects, -⟩ := data_survive_json
  exact ⟨hcommand, hcommands _ hcommand, hproject, hprojects _ hproject⟩

end SpriteStage
