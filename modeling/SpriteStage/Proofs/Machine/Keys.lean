import SpriteStage.CommandLine.Session
import SpriteStage.Proofs.Machine.Edits
import SpriteStage.Proofs.Machine.Listening
import SpriteStage.Proofs.Machine.Spawn
import SpriteStage.Proofs.Message.KeyHats

/-!
Keys in a run. A key that goes down starts the scripts whose hats name it, each of them once, and a
script that asks for a key learns what the host did with it last. Both go by normal forms, so it does
not matter how a key is spelled, and where.
-/

namespace SpriteStage

theorem Switchboard.mem_listeners_of_key {b : Switchboard} {key : String} {l : Listener}
    (h : l ∈ b.keyListeners key) : l ∈ b.listeners := by
  have hslot : ∃ name, l ∈ b.keys.get name := by
    unfold keyListeners at h
    dsimp only at h
    split at h
    · exact ⟨_, h⟩
    · exact (List.mem_append.1 h).elim (fun h => ⟨_, h⟩) fun h => ⟨_, h⟩
  obtain ⟨name, hl⟩ := hslot
  simp only [listeners, List.mem_append]
  exact .inl (.inr (Slots.mem_all_of_mem_get hl))

theorem Switchboard.keyListeners_key (b : Switchboard) (key : String) :
    b.keyListeners (Name.key key) = b.keyListeners key := by
  simp only [keyListeners, Name.key_key]

namespace Machine

variable {m n : Machine}

/-! ### Spellings -/

theorem keyDown_key (m : Machine) (key : String) : m.keyDown (Name.key key) = m.keyDown key := by
  simp only [keyDown, Name.key_key]

theorem keyUp_key (m : Machine) (key : String) : m.keyUp (Name.key key) = m.keyUp key := by
  simp only [keyUp, Name.key_key]

/-! ### Scripts that start -/

/-- Just these scripts start, each in a task of its own that nothing has stopped. -/
structure Starts (m : Machine) (ls : List Listener) (n : Machine) : Prop where
  tasks : n.tasks = m.tasks ++ (ls.zipIdx m.nextTask).map fun (l, id) => m.taskOf l id
  nextTask : n.nextTask = m.nextTask + ls.length
  ready : n.ready = m.ready ++ List.range' m.nextTask ls.length
  live : ∀ l id, (l, id) ∈ ls.zipIdx m.nextTask → n.isStopped (m.taskOf l id).token = false

def withKeys (m : Machine) (keys : List String) : Machine :=
  { m with world := { m.world with keys } }

theorem Sound.starts_keyDown (h : m.Sound) (hr : m.world.running = true) (key : String) :
    m.Starts (m.world.switchboard.keyListeners key) (m.keyDown key) := by
  have hlisteners : ∀ l ∈ m.world.switchboard.keyListeners key,
      l.entity < m.world.entities.length :=
    fun l hl => h.listeners l (Switchboard.mem_listeners_of_key hl)
  have hdown : m.keyDown key = (m.withKeys (m.world.keys.insert (Name.key key))).spawnAll
      (m.world.switchboard.keyListeners key) := by
    rw [← Switchboard.keyListeners_key]
    exact if_pos hr
  have hsound : (m.withKeys (m.world.keys.insert (Name.key key))).Sound :=
    ⟨h.tree, h.covered, h.programs, h.listeners⟩
  rw [hdown, hsound.spawnAll_eq hr hlisteners]
  refine ⟨rfl, rfl, rfl, fun l id hl => ?_⟩
  have hentity := hlisteners l (List.fst_mem_of_mem_zipIdx hl)
  exact h.isStopped_taskOf (h.covered hr l.entity hentity) (List.le_snd_of_mem_zipIdx hl)

/-- The scripts under key hats in the programs of the machine. -/
def keyHats (m : Machine) : List KeyHat :=
  Registry.keyHats ((List.range m.programs.length).zip m.programs)

theorem Served.perm_keyListeners (h : m.Served) (hr : m.world.running = true) (key : String) :
    (m.world.switchboard.keyListeners key).Perm
      ((m.keyHats.filter (·.hears key)).map (·.listener)) := by
  obtain ⟨r, hserves, hnodup, hmem⟩ := h hr
  have hzip : (((List.range m.programs.length).zip m.programs).map (·.1)).Nodup := by
    rw [List.map_fst_zip (by simp)]
    exact List.nodup_range
  have hr : r.Perm ((List.range m.programs.length).zip m.programs) := by
    refine (List.perm_ext_iff_of_nodup (.of_map _ hnodup) (.of_map _ hzip)).2 ?_
    rintro ⟨entity, p⟩
    rw [hmem, mem_zip_range]
  have hhats : r.keyHats.Perm m.keyHats := hr.flatMap_right _
  exact (hserves.perm_keyListeners key).trans ((hhats.filter _).map _)

/-! ### Keys that are down -/

end Machine

/-- What a move does to the key: pressed or released, if it is about this key. -/
def Move.pressOf? (key : String) : Move → Option Bool
  | .command (.keyDown other) => if Name.key other = key then some true else none
  | .command (.keyUp other) => if Name.key other = key then some false else none
  | _ => none

theorem Move.pressOf?_cases (move : Move) :
    (∃ other, move = .command (.keyDown other)) ∨ (∃ other, move = .command (.keyUp other)) ∨
      ∀ key, move.pressOf? key = none := by
  cases move with
  | command command =>
    cases command with
    | keyDown other => exact .inl ⟨other, rfl⟩
    | keyUp other => exact .inr (.inl ⟨other, rfl⟩)
    | _ => exact .inr (.inr fun _ => rfl)
  | _ => exact .inr (.inr fun _ => rfl)

/-- What was done to the key last, since the last load. -/
def lastPress (moves : List Move) (key : String) : Option Bool :=
  (moves.reverse.takeWhile (!·.isLoad)).findSome? (·.pressOf? key)

theorem lastPress_concat (moves : List Move) (move : Move) (key : String) :
    lastPress (moves ++ [move]) key =
      if move.isLoad then none else (move.pressOf? key).or (lastPress moves key) := by
  rw [lastPress, List.reverse_concat]
  cases hload : move.isLoad <;> simp [hload, lastPress, List.findSome?_cons]
  cases move.pressOf? key <;> rfl

namespace Machine

variable {m n : Machine}

theorem keys_finish (m : Machine) (t : Task) (ending : Ending ScriptError) :
    (m.finish t ending).world.keys = m.world.keys := by
  cases ending with
  | completed | cancelled => rfl
  | failed e =>
    simp only [finish, World.reportFailure]
    repeat' split
    all_goals rfl

theorem keys_wake (m : Machine) (ended : List Wait) : (m.wake ended).world.keys = m.world.keys := by
  obtain ⟨waits, ready, requests, he⟩ := wake_shape m ended
  rw [he]

theorem keys_stopAll (m : Machine) : m.stopAll.world.keys = m.world.keys := by
  rw [world_stopAll]
  rfl

theorem Polled.keys {id : TaskId} {ms : List Moment} (h : Polled m id ms n) :
    n.world.keys = m.world.keys := by
  cases h with
  | absent => rfl
  | stopped => exact keys_finish m _ _
  | @paused t _ n ht hs hp pause frames =>
    obtain ⟨tasks, yielded, waits, he⟩ := suspend_shape n id pause frames
    rw [he]
    exact hp.edited.keys
  | ended _ _ hp ending => rw [keys_finish, hp.edited.keys]; rfl
  | @stoppedAll t _ n _ _ hp =>
    rw [keys_finish, keys_stopAll]
    exact hp.edited.keys
  | @stoppedSprite t _ n _ _ hp =>
    have hstop : n.counted.world.Edited true true (n.counted.stopEntity t.entity).world :=
      edited_stopEntity n.counted t.entity
    rw [keys_finish, hstop.keys]
    exact hp.edited.keys

theorem keys_move {move : Move} (m : Machine) (hload : move.isLoad = false)
    (hpress : ∀ key, move.pressOf? key = none) : (m.move move).world.keys = m.world.keys := by
  cases move with
  | command command =>
    cases command with
    | loadProgram => cases hload
    | start =>
      simp only [move, handle, world_start]
      rfl
    | stop => exact keys_stopAll m
    | keyDown key =>
      have hsome := hpress (Name.key key)
      simp [Move.pressOf?] at hsome
    | keyUp key =>
      have hsome := hpress (Name.key key)
      simp [Move.pressOf?] at hsome
    | clickEntity id =>
      simp only [move, handle, click]
      split
      · rw [world_spawnAll]
      · rfl
    | mousePosition x y => exact keys_wake _ _
    | updateCode id program =>
      simp only [move, handle, updateCode]
      repeat' split
      all_goals rfl
    | shutdown => rfl
  | broadcast name sender =>
    have hsend : m.world.Edited true true (m.broadcast name sender).world :=
      edited_broadcast m name sender
    exact hsend.keys
  | close =>
    simp only [move, world_halt]
    rfl
  | poll id =>
    simp only [move]
    split
    · exact (polled_poll (m.dequeue id) id).keys
    · rfl
  | resume => rfl
  | reach time => exact keys_wake _ _

/-- The keys are those that were pressed last, each of them once. -/
structure Holding (m : Machine) (pressed : String → Option Bool) : Prop where
  unique : m.world.keys.Nodup
  held : ∀ key, key ∈ m.world.keys ↔ pressed key = some true

theorem Holding.move {pressed : String → Option Bool} (h : m.Holding pressed) (move : Move) :
    (m.move move).Holding fun key =>
      if move.isLoad then none else (move.pressOf? key).or (pressed key) := by
  cases hload : move.isLoad with
  | true =>
    obtain ⟨specs, program, rfl⟩ := exists_load_of_isLoad hload
    have hkeys : (m.move (.command (.loadProgram specs program))).world.keys = [] := rfl
    constructor
    · rw [hkeys]
      exact .nil
    · simp [hkeys]
  | false =>
    rcases move.pressOf?_cases with ⟨other, rfl⟩ | ⟨other, rfl⟩ | hnone
    · have hkeys : (m.move (.command (.keyDown other))).world.keys =
          m.world.keys.insert (Name.key other) := by
        simp only [Machine.move, handle, keyDown]
        split
        · rw [world_spawnAll]
        · rfl
      constructor
      · rw [hkeys]
        exact h.unique.insert
      · intro key
        rw [hkeys, List.mem_insert_iff, h.held]
        by_cases hkey : Name.key other = key
        · simp [Move.pressOf?, hkey]
        · simp [Move.pressOf?, hkey, Ne.symm hkey]
    · have hkeys : (m.move (.command (.keyUp other))).world.keys =
          m.world.keys.erase (Name.key other) := rfl
      constructor
      · rw [hkeys]
        exact h.unique.erase _
      · intro key
        rw [hkeys, h.unique.mem_erase_iff, h.held]
        by_cases hkey : Name.key other = key
        · simp [Move.pressOf?, hkey]
        · simp [Move.pressOf?, hkey, Ne.symm hkey]
    · have hkeys := keys_move m hload hnone
      constructor
      · rw [hkeys]
        exact h.unique
      · intro key
        rw [hkeys, h.held, hnone key]
        simp

theorem holding_after (options : Options) (moves : List Move) :
    ((Machine.new options).after moves).Holding (lastPress moves) := by
  induction moves using List.reverseRecOn with
  | nil => exact ⟨.nil, fun key => by simp [lastPress, Machine.new, Machine.after, World.empty]⟩
  | append_singleton before move ih =>
    have hmove := ih.move move
    simp only [← lastPress_concat] at hmove
    rw [after_append]
    exact hmove

theorem keys_at_moment {move : Move} {k : Moment} (hk : k ∈ m.moveTrace move) :
    k.machine.world.keys = m.world.keys := by
  obtain ⟨id, t, ks, -, -, -, hp⟩ := turn_of_mem_moveTrace hk
  exact hp.edited.keys

/-- A script that asks for a key, however it comes to the spelling, reads whether the key was pressed
last. -/
def ReadsKeys (m : Machine) (pressed : String → Option Bool) : Prop :=
  ∀ id (e : Expr) r v r', (e.eval m.world id).run.run r = (.ok v, r') →
    Name.key v.toText ≠ anyKey →
      ((Expr.keyPressed e).eval m.world id).run.run r =
        (.ok (.bool (pressed (Name.key v.toText) == some true)), r')

theorem readsKeys_of_held {pressed : String → Option Bool}
    (h : ∀ key, key ∈ m.world.keys ↔ pressed key = some true) : m.ReadsKeys pressed := by
  intro id e r v r' he hany
  have hpressed : m.world.keyPressed v.toText = (pressed (Name.key v.toText) == some true) := by
    rw [World.keyPressed, if_neg hany, Bool.eq_iff_iff, List.contains_iff_mem, h, beq_iff_eq]
  rw [Expr.eval, Eval.run_bind, he, ← hpressed]
  rfl

/-! ### The theorem -/

/-- By all the ways from a spelling to a script, a key is one and the same. -/
structure Spelled (m : Machine) : Prop where
  normal : ∀ key, Name.key (Name.key key) = Name.key key
  down : ∀ key, m.keyDown (Name.key key) = m.keyDown key
  up : ∀ key, m.keyUp (Name.key key) = m.keyUp key
  timeline : ∀ p down gap gap' key, Text.IsGap gap → Text.IsGap gap' →
    Text.isBlankText key = false →
      ∃ input, Timeline.readInput p (Timeline.keyText down gap gap' key) = .ok input ∧
        ∀ s : CommandLine.Session, s.machine = m →
          (s.perform input).machine = if down then m.keyDown key else m.keyUp key
  compiled : ∀ (t : BlockTree) name entity key,
    ((((Compile.entity name t).1.keyHats entity).filter (·.hears key)).map (·.listener)).Perm
      (((t.keyHats entity).filter (·.hears key)).map (·.listener))

theorem spelled (m : Machine) : m.Spelled where
  normal := Name.key_key
  down := m.keyDown_key
  up := m.keyUp_key
  timeline p down gap gap' key hgap hgap' hkey := by
    refine ⟨_, Timeline.readInput_keyText p down hgap hgap' hkey, fun s hs => ?_⟩
    subst hs
    cases down with
    | true => exact keyDown_key s.machine key
    | false => exact keyUp_key s.machine key
  compiled t name entity key := t.perm_keyHats name entity key

/-- A key that goes down in a run starts every script whose hat has its normal form or stands for any
key, each of them once and no other. Between turns and at each statement of a turn, a script that asks
for a key reads what was done to it last, since the entities were loaded. -/
theorem keys_go_by_normal_form (options : Options) (moves : List Move) :
    let m := (Machine.new options).after moves
    m.Spelled ∧
      (m.world.running = true → ∀ key, ∃ ls,
        ls.Perm ((m.keyHats.filter (·.hears key)).map (·.listener)) ∧ m.Starts ls (m.keyDown key)) ∧
      m.ReadsKeys (lastPress moves) ∧
      ∀ move, ∀ k ∈ m.moveTrace move, k.machine.ReadsKeys (lastPress moves) := by
  intro m
  have hreachable : m.Reachable := ⟨options, moves, rfl⟩
  have hheld := (holding_after options moves).held
  refine ⟨m.spelled, fun hr key => ?_, readsKeys_of_held hheld,
    fun move k hk => readsKeys_of_held ?_⟩
  · exact ⟨_, hreachable.served.perm_keyListeners hr key, hreachable.sound.starts_keyDown hr key⟩
  · rwa [keys_at_moment hk]

namespace Sample

def keyScripts : EntityProgram :=
  { EntityProgram.empty with
    onKey := .ofList [(" ANY", [⟨"a", [.act .vanish]⟩]), ("Up", [⟨"b", [.act .appear]⟩]),
      ("left", [⟨"c", [.act .yield]⟩])] }

-- The left key was pressed before the load, and the key q has been released.
def presses : List Move :=
  [.command (.keyDown "left"), .command (.loadProgram [cat] ⟨[keyScripts]⟩), .command .start,
    .command (.keyDown "KeyQ"), .command (.keyDown "ArrowUp"), .command (.keyUp "Q")]

def asks (key : String) : Expr :=
  .keyPressed (.literal (.text key))

end Sample

theorem keys_go_by_normal_form_sample :
    let m := (Machine.new .standard).after Sample.presses
    m.world.running = true ∧
      (m.keyHats.filter (·.hears "UP ARROW")).map (·.listener.script.hat) = ["a", "b"] ∧
      (∃ ls, ls.Perm ((m.keyHats.filter (·.hears "UP ARROW")).map (·.listener)) ∧
        m.Starts ls (m.keyDown "UP ARROW")) ∧
      ((Sample.asks " up").eval m.world 0).run.run m.random = (.ok (.bool true), m.random) ∧
      ((Sample.asks "KeyQ").eval m.world 0).run.run m.random = (.ok (.bool false), m.random) ∧
      ((Sample.asks "left").eval m.world 0).run.run m.random = (.ok (.bool false), m.random) := by
  intro m
  obtain ⟨-, hstarts, hreads, -⟩ := keys_go_by_normal_form .standard Sample.presses
  have hrunning : m.world.running = true := rfl
  refine ⟨hrunning, by decide +kernel, hstarts hrunning "UP ARROW", ?_, ?_, ?_⟩
  · exact hreads 0 _ m.random (.text " up") m.random rfl (by decide +kernel)
  · exact hreads 0 _ m.random (.text "KeyQ") m.random rfl (by decide +kernel)
  · exact hreads 0 _ m.random (.text "left") m.random rfl (by decide +kernel)

end Machine

end SpriteStage
