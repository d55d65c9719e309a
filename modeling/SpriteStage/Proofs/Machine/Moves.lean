import SpriteStage.Machine.Command
import SpriteStage.Machine.Schedule
import SpriteStage.Proofs.Machine.Tree
import SpriteStage.Proofs.Message.Listeners

/-!
The moves of a machine: what a host does with it, the turns of its tasks and the passing of time, in
any order. What every move keeps holds of every machine that can be reached, and so after any round,
turn, stretch of time or series of commands.
-/

namespace SpriteStage

/-- Something that happens to a machine between two turns of its tasks, or such a turn. -/
inductive Move where
  | command (command : HostCommand)
  | broadcast (name : String) (sender : EntityId)
  /-- The host asks for no more. -/
  | close
  | poll (id : TaskId)
  | resume
  | reach (time : Nat)

namespace Move

def isStart : Move → Bool
  | .command .start => true
  | _ => false

def isLoad : Move → Bool
  | .command (.loadProgram ..) => true
  | _ => false

def isStop : Move → Bool
  | .command .stop => true
  | _ => false

end Move

namespace Machine

def dequeue (m : Machine) (id : TaskId) : Machine :=
  { m with ready := m.ready.erase id }

/-- The machine after a move. Any task that is ready can have its turn, not only the next one. -/
def move (m : Machine) : Move → Machine
  | .command command => m.handle command
  | .broadcast name sender => m.broadcast name sender
  | .close => m.halt
  | .poll id => if id ∈ m.ready then (m.dequeue id).poll id else m
  | .resume => m.resumeYielded
  | .reach time => m.reach time

def moveTrace (m : Machine) : Move → List Moment
  | .poll id => if id ∈ m.ready then (m.dequeue id).pollTrace id else []
  | _ => []

/-- A statement is executed in the turn of a task that had not been stopped before. -/
theorem turn_of_mem_moveTrace {m : Machine} {move : Move} {k : Moment} (hk : k ∈ m.moveTrace move) :
    ∃ id t ks, move = .poll id ∧ m.task? id = some t ∧ m.isStopped t.token = false ∧
      Path ⟨id, t.entity⟩ ((m.dequeue id).setTask id ({ · with state := .running })) ks k.machine := by
  cases move with
  | poll id =>
    simp only [moveTrace] at hk
    split at hk
    · obtain ⟨t, ks, ht, hs, hp⟩ := (polled_poll (m.dequeue id) id).to_moment hk
      exact ⟨id, t, ks, rfl, ht, hs, hp⟩
    · cases hk
  | _ => cases hk

/-! ### What a move can do -/

/-- Only what the host and the scheduler keep for themselves differs, and perhaps the programs and
their listeners. -/
structure Aside (m n : Machine) : Prop where
  tree : n.tree = m.tree
  tasks : n.tasks = m.tasks
  stats : n.stats = m.stats
  statements : n.statements = m.statements
  entities : n.world.entities = m.world.entities
  globals : n.world.globals = m.world.globals
  history : n.world.switchboard.history = m.world.switchboard.history
  events : n.world.events = m.world.events
  reported : n.world.reported = m.world.reported
  programs : n.programs.length = m.programs.length
  listeners : ∀ l ∈ n.world.switchboard.listeners,
    l ∈ m.world.switchboard.listeners ∨ l.entity < m.programs.length

/-- The move executes nothing and is no stop command. -/
structure Plain (m : Machine) (move : Move) : Prop where
  stop : move.isStop = false
  trace : m.moveTrace move = []

inductive Moved (m : Machine) : Move → Machine → Prop where
  | aside {move : Move} {n : Machine} (hp : m.Plain move) (h : m.Aside n) : Moved m move n
  | spawn {move : Move} {n : Machine} (hp : m.Plain move) (h : m.Aside n)
      (hr : m.world.running = true) (ls : List Listener) : Moved m move (n.spawnAll ls)
  | broadcast (name : String) (sender : EntityId) (hr : m.world.running = true) :
      Moved m (.broadcast name sender) (m.broadcast name sender)
  | load (specs : List EntitySpec) (program : Program) :
      Moved m (.command (.loadProgram specs program)) (m.load specs program)
  | start : Moved m (.command .start) m.start
  | stop : Moved m (.command .stop) m.stopAll
  | close : Moved m .close m.halt
  | poll {id : TaskId} {n : Machine}
      (h : Polled (m.dequeue id) id (m.moveTrace (.poll id)) n) : Moved m (.poll id) n

theorem Aside.refl (m : Machine) : m.Aside m :=
  ⟨rfl, rfl, rfl, rfl, rfl, rfl, rfl, rfl, rfl, rfl, fun _ => .inl⟩

theorem Aside.wake {m n : Machine} (h : m.Aside n) (ended : List Wait) : m.Aside (n.wake ended) := by
  obtain ⟨waits, ready, requests, he⟩ := wake_shape n ended
  rw [he]
  exact ⟨h.tree, h.tasks, h.stats, h.statements, h.entities, h.globals, h.history, h.events,
    h.reported, h.programs, h.listeners⟩

theorem aside_updateCode (m : Machine) (id : EntityId) (program : EntityProgram) :
    m.Aside (m.updateCode id program) := by
  have hlength : (m.programs.set id program).length = m.programs.length := List.length_set
  unfold updateCode
  split
  next hid =>
    dsimp only
    split
    · refine ⟨rfl, rfl, rfl, rfl, rfl, rfl, rfl, rfl, rfl, hlength, fun l hl => ?_⟩
      refine (Switchboard.mem_listeners_register hl).imp_right fun he => ?_
      rw [he]
      exact hid
    · exact ⟨rfl, rfl, rfl, rfl, rfl, rfl, rfl, rfl, rfl, hlength, fun _ => .inl⟩
  · exact .refl m

theorem moved_handle (m : Machine) (command : HostCommand) :
    Moved m (.command command) (m.handle command) := by
  cases command with
  | loadProgram specs program => exact .load specs program
  | start => exact .start
  | stop => exact .stop
  | keyDown key =>
    have hkeys : ∀ keys, m.Aside { m with world := { m.world with keys } } :=
      fun _ => ⟨rfl, rfl, rfl, rfl, rfl, rfl, rfl, rfl, rfl, rfl, fun _ => .inl⟩
    simp only [handle, keyDown]
    split
    next hr => exact .spawn ⟨rfl, rfl⟩ (hkeys _) hr _
    · exact .aside ⟨rfl, rfl⟩ (hkeys _)
  | keyUp key =>
    exact .aside ⟨rfl, rfl⟩ ⟨rfl, rfl, rfl, rfl, rfl, rfl, rfl, rfl, rfl, rfl, fun _ => .inl⟩
  | clickEntity id =>
    simp only [handle, click]
    split
    next hr => exact .spawn ⟨rfl, rfl⟩ (.refl m) hr _
    · exact .aside ⟨rfl, rfl⟩ (.refl m)
  | mousePosition x y =>
    have hmouse : m.Aside { m with world := m.world.setMouse ⟨x, y⟩ } :=
      ⟨rfl, rfl, rfl, rfl, rfl, rfl, rfl, rfl, rfl, rfl, fun _ => .inl⟩
    exact .aside ⟨rfl, rfl⟩ (hmouse.wake _)
  | updateCode id program => exact .aside ⟨rfl, rfl⟩ (aside_updateCode m id program)
  | shutdown => exact .aside ⟨rfl, rfl⟩ (.refl m)

theorem moved_move (m : Machine) (move : Move) : Moved m move (m.move move) := by
  cases move with
  | command command => exact moved_handle m command
  | broadcast name sender =>
    cases hr : m.world.running with
    | true => exact .broadcast name sender hr
    | false =>
      rw [show m.move (.broadcast name sender) = m from if_neg (by simp [hr])]
      exact .aside ⟨rfl, rfl⟩ (.refl m)
  | close => exact .close
  | poll id =>
    by_cases hid : id ∈ m.ready
    · have htrace : m.moveTrace (.poll id) = (m.dequeue id).pollTrace id := if_pos hid
      rw [show m.move (.poll id) = (m.dequeue id).poll id from if_pos hid]
      exact .poll (htrace ▸ polled_poll (m.dequeue id) id)
    · rw [show m.move (.poll id) = m from if_neg hid]
      exact .aside ⟨rfl, if_neg hid⟩ (.refl m)
  | resume =>
    exact .aside ⟨rfl, rfl⟩ ⟨rfl, rfl, rfl, rfl, rfl, rfl, rfl, rfl, rfl, rfl, fun _ => .inl⟩
  | reach time =>
    have hclock : m.Aside { m with world := { m.world with clock := time } } :=
      ⟨rfl, rfl, rfl, rfl, rfl, rfl, rfl, rfl, rfl, rfl, fun _ => .inl⟩
    exact .aside ⟨rfl, rfl⟩ (hclock.wake _)

/-! ### Runs -/

def after (m : Machine) (moves : List Move) : Machine :=
  moves.foldl move m

theorem after_append (m : Machine) (moves more : List Move) :
    m.after (moves ++ more) = (m.after moves).after more :=
  List.foldl_append

/-- What the moves keep, one by one, holds after all of them. -/
theorem after_invariant {P : Machine → Prop} {moves : List Move} {m : Machine}
    (hstep : ∀ n, ∀ move ∈ moves, P n → P (n.move move)) (hm : P m) : P (m.after moves) := by
  induction moves generalizing m with
  | nil => exact hm
  | cons first rest ih =>
    have hfirst : P (m.move first) := hstep m first List.mem_cons_self hm
    exact ih (fun n move hmove => hstep n move (List.mem_cons_of_mem first hmove)) hfirst

/-! ### Reachable machines -/

/-- The machine comes from a new one by some moves. -/
def Reachable (m : Machine) : Prop :=
  ∃ options moves, m = (Machine.new options).after moves

namespace Reachable

variable {m : Machine}

theorem new (options : Options) : (Machine.new options).Reachable :=
  ⟨options, [], rfl⟩

theorem after (h : m.Reachable) (moves : List Move) : (m.after moves).Reachable := by
  obtain ⟨options, before, rfl⟩ := h
  exact ⟨options, before ++ moves, (after_append (.new options) before moves).symm⟩

theorem move (h : m.Reachable) (move : Move) : (m.move move).Reachable :=
  h.after [move]

theorem invariant {P : Machine → Prop} (h : m.Reachable) (hnew : ∀ options, P (.new options))
    (hstep : ∀ n move, P n → P (n.move move)) : P m := by
  obtain ⟨options, moves, rfl⟩ := h
  exact after_invariant (fun n move _ => hstep n move) (hnew options)

/-! ### The scheduler and the server make moves -/

theorem round (h : m.Reachable) (limit : Nat) : (m.round limit).Reachable := by
  induction limit generalizing m with
  | zero => exact h
  | succ limit ih =>
    rw [Machine.round]
    split
    · exact h
    next id rest hready =>
      refine ih ?_
      have hmove : m.move (.poll id) = { m with ready := rest }.poll id := by
        have hid : id ∈ m.ready := by simp [hready]
        have herase : m.ready.erase id = rest := by simp [hready]
        simp only [Machine.move, hid, if_true, dequeue, herase]
      rw [← hmove]
      exact h.move (.poll id)

theorem turn (h : m.Reachable) (limit : Nat) : (m.turn limit).Reachable :=
  (h.round limit).move .resume

theorem advanceTo (h : m.Reachable) (target roundLimit limit : Nat) :
    (m.advanceTo target roundLimit limit).Reachable := by
  induction limit generalizing m with
  | zero => exact h
  | succ limit ih =>
    have hround := h.round roundLimit
    have hreach := hround.move (.reach ((m.round roundLimit).nextTime target))
    simp only [Machine.advanceTo]
    split
    · split
      · exact hreach
      · exact ih hreach
    · exact ih (hround.move .resume)

theorem advance (h : m.Reachable) (millis roundLimit limit : Nat) :
    (m.advance millis roundLimit limit).Reachable :=
  h.advanceTo (m.world.clock + millis) roundLimit limit

theorem serve (h : m.Reachable) (commands : List HostCommand) : (m.serve commands).Reachable := by
  induction commands generalizing m with
  | nil => exact h.move .close
  | cons command rest ih =>
    have hcommand : (m.handle command).Reachable := h.move (.command command)
    cases command with
    | shutdown => exact h.move .close
    | _ => exact ih hcommand

end Reachable

/-! ### A small stage -/

namespace Sample

def cat : EntitySpec where
  name := "cat"
  kind := .sprite
  x := 0
  y := 0
  direction := 90
  size := 100
  visible := true
  currentCostume := 0
  costumes := []
  sounds := []
  vars := .empty

-- A click on the cat ends the run.
def catScripts : EntityProgram :=
  { EntityProgram.empty with
    onStart := some ⟨"a", [.act .vanish, .forever [.act .yield]]⟩
    onClick := [⟨"b", [.act .stopAllSounds, .act (.stop .all), .act .appear]⟩] }

-- A click on the dog stops its other script, and then the dog.
def dogScripts : EntityProgram :=
  { EntityProgram.empty with
    onStart := some ⟨"c", [.forever [.act .yield]]⟩
    onClick := [⟨"d", [.act (.stop .otherScriptsInSprite), .act (.stop .thisSprite)]⟩]
    onMessage := .ofList [("go", [⟨"e", [.act .vanish]⟩])] }

def moves : List Move :=
  [.command (.loadProgram [cat, { cat with name := "dog" }] ⟨[catScripts, dogScripts]⟩),
    .command .start, .poll 1, .poll 2, .command (.clickEntity 0), .command (.clickEntity 1)]

/-- Both have been clicked: their start scripts have yielded, and the others are ready. -/
def machine : Machine :=
  (Machine.new .standard).after moves

theorem reachable : machine.Reachable :=
  ⟨.standard, moves, rfl⟩

end Sample

end Machine

end SpriteStage
