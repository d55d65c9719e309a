import SpriteStage.Proofs.Machine.News
import SpriteStage.Proofs.Message.Registry

/-!
Programs and their listeners.

A machine keeps the programs of its entities, and in a run also their scripts on the switchboard.
Only three commands touch either: loading, starting and putting another program in place of one
(`retains_move`). All three keep the two in step (`Served`), so in a run the listeners of an entity
are the scripts of the program that it was given last.
-/

namespace SpriteStage

/-! ### The listeners of one entity -/

namespace Registry

variable {r : Registry} {entity : EntityId} {p : EntityProgram}

theorem entity_of_mem_heard {scripts : EntityProgram → List Script} {l : Listener}
    (h : l ∈ r.heard scripts) : l.entity ∈ r.map (·.1) := by
  obtain ⟨entry, hentry, hl⟩ := List.mem_flatMap.1 h
  obtain ⟨s, -, rfl⟩ := List.mem_map.1 hl
  exact List.mem_map_of_mem hentry

theorem filter_heard_of_notMem (h : entity ∉ r.map (·.1)) (scripts : EntityProgram → List Script) :
    (r.heard scripts).filter (·.entity == entity) = [] := by
  refine List.filter_eq_nil_iff.2 fun l hl he => h ?_
  rw [← beq_iff_eq.1 he]
  exact entity_of_mem_heard hl

/-- An entity that is registered once is the only one in whose name its scripts wait. -/
theorem filter_heard_of_mem (hr : (r.map (·.1)).Nodup) (h : (entity, p) ∈ r)
    (scripts : EntityProgram → List Script) :
    (r.heard scripts).filter (·.entity == entity) = (scripts p).map (⟨entity, ·⟩) := by
  obtain ⟨before, after, rfl⟩ := List.append_of_mem h
  rw [List.map_append, List.map_cons, List.nodup_append, List.nodup_cons] at hr
  obtain ⟨-, ⟨hafter, -⟩, hbefore⟩ := hr
  have hnot : entity ∉ before.map (·.1) := fun hm => hbefore entity hm entity List.mem_cons_self rfl
  have hown : ((scripts p).map fun s => (⟨entity, s⟩ : Listener)).filter (·.entity == entity) =
      (scripts p).map (⟨entity, ·⟩) := by
    refine List.filter_eq_self.2 fun l hl => ?_
    obtain ⟨s, -, rfl⟩ := List.mem_map.1 hl
    exact beq_self_eq_true entity
  rw [heard_append, heard_cons, List.filter_append, List.filter_append,
    filter_heard_of_notMem hnot, filter_heard_of_notMem hafter, hown, List.nil_append,
    List.append_nil]

theorem clicked_of_mem (hr : (r.map (·.1)).Nodup) (h : (entity, p) ∈ r) :
    r.clicked entity = p.onClick.map (⟨entity, ·⟩) := by
  have hlookup : r.lookup entity = some p := by
    obtain ⟨before, after, rfl⟩ := List.append_of_mem h
    refine List.lookup_eq_some_iff.2 ⟨before, after, rfl, fun entry hentry => ?_⟩
    rw [List.map_append, List.nodup_append] at hr
    refine bne_iff_ne.2 fun he => ?_
    exact hr.2.2 entry.1 (List.mem_map_of_mem hentry) entity List.mem_cons_self he.symm
  rw [clicked, hlookup]
  rfl

theorem nodup_clear_append (hr : (r.map (·.1)).Nodup) (entity : EntityId) (p : EntityProgram) :
    ((r.clear entity ++ [(entity, p)]).map (·.1)).Nodup := by
  rw [List.map_append, List.nodup_append]
  refine ⟨hr.sublist (List.filter_sublist.map _), by simp, ?_⟩
  intro other hother last hlast
  obtain ⟨entry, hentry, rfl⟩ := List.mem_map.1 hother
  have hne : entry.1 ≠ entity := by simpa using (List.mem_filter.1 hentry).2
  cases List.mem_singleton.1 hlast
  exact hne

end Registry

namespace Switchboard

/-- The listeners of the entity are the scripts of the program, each of them once. -/
structure Lists (b : Switchboard) (entity : EntityId) (p : EntityProgram) : Prop where
  messages : ∀ name, (b.messageListeners name).filter (·.entity == entity) =
    (scriptsUnder Name.message p.onMessage (Name.message name)).map (⟨entity, ·⟩)
  keys : ∀ key, (b.keyListeners key).filter (·.entity == entity) =
    (scriptsUnder Name.key p.onKey (Name.key key) ++
      if Name.key key = anyKey then [] else scriptsUnder Name.key p.onKey anyKey).map (⟨entity, ·⟩)
  clicks : b.clickListeners entity = p.onClick.map (⟨entity, ·⟩)
  all : (b.listeners.filter (·.entity == entity)).Perm
    ((p.onMessage.values.flatten ++ p.onKey.values.flatten ++ p.onClick).map (⟨entity, ·⟩))

theorem Serves.lists {b : Switchboard} {r : Registry} {entity : EntityId} {p : EntityProgram}
    (h : b.Serves r) (hr : (r.map (·.1)).Nodup) (hp : (entity, p) ∈ r) : b.Lists entity p where
  messages name := by rw [messageListeners, h.messages.get, Registry.filter_heard_of_mem hr hp]
  keys key := by
    rw [h.keyListeners, List.filter_append, Registry.filter_heard_of_mem hr hp, List.map_append]
    split
    · rfl
    · rw [Registry.filter_heard_of_mem hr hp]
  clicks := (h.clicks entity).trans (Registry.clicked_of_mem hr hp)
  all := by
    have hclicks : (b.clicks.flatMap (·.2)).Perm (r.heard (·.onClick)) := by
      rw [h.clickSlots, ← Registry.flatMap_clickSlot]
      exact (List.reverse_perm _).flatMap_right _
    have hall := ((h.messages.all.append h.keys.all).append hclicks).filter (·.entity == entity)
    simp only [List.filter_append, Registry.filter_heard_of_mem hr hp] at hall
    simp only [listeners, List.filter_append, List.map_append]
    exact hall

end Switchboard

/-! ### What leaves programs and listeners alone -/

def Move.registers : Move → Bool
  | .command (.loadProgram ..) | .command .start | .command (.updateCode ..) => true
  | _ => false

namespace Machine

variable {m n : Machine}

structure Retains (m n : Machine) : Prop where
  programs : n.programs = m.programs
  switchboard : ∃ history, n.world.switchboard = { m.world.switchboard with history }
  running : n.world.running = true → m.world.running = true

theorem Retains.refl (m : Machine) : m.Retains m :=
  ⟨rfl, ⟨_, rfl⟩, id⟩

theorem Retains.trans {l : Machine} (h : m.Retains n) (h' : n.Retains l) : m.Retains l where
  programs := h'.programs.trans h.programs
  switchboard := by
    obtain ⟨history, hb⟩ := h.switchboard
    obtain ⟨history', hb'⟩ := h'.switchboard
    exact ⟨history', by rw [hb', hb]⟩
  running hr := h.running (h'.running hr)

theorem Retains.of_acted (h : m.world.Acted n.world) (hp : n.programs = m.programs) :
    m.Retains n :=
  ⟨hp, h.switchboard, fun hr => h.running ▸ hr⟩

theorem Retains.of_world_eq (hp : n.programs = m.programs) (hw : n.world = m.world) :
    m.Retains n :=
  .of_acted (hw ▸ .refl m.world) hp

theorem retains_halt (m : Machine) : m.Retains m.halt where
  programs := rfl
  switchboard := ⟨m.world.switchboard.history, by rw [world_halt]; rfl⟩
  running hr := by
    rw [world_halt] at hr
    cases hr

theorem retains_stopAll (m : Machine) : m.Retains m.stopAll :=
  ⟨rfl, (retains_halt m).switchboard, (retains_halt m).running⟩

theorem retains_wake (m : Machine) (ended : List Wait) : m.Retains (m.wake ended) := by
  obtain ⟨waits, ready, requests, he⟩ := wake_shape m ended
  rw [he]
  exact ⟨rfl, ⟨_, rfl⟩, id⟩

theorem retains_spawnAll (m : Machine) (ls : List Listener) : m.Retains (m.spawnAll ls) :=
  .of_world_eq (programs_spawnAll m ls) (world_spawnAll m ls)

theorem retains_finish (m : Machine) (t : Task) (ending : Ending ScriptError) :
    m.Retains (m.finish t ending) := by
  refine .of_acted (acted_finish m t ending) ?_
  obtain ⟨world, stats, he⟩ := finish_shape m t ending
  rw [he]

theorem Path.retains {self : Self} {ms : List Moment} (h : Path self m ms n) : m.Retains n := by
  induction h with
  | refl m => exact .refl m
  | effect he _ ih => exact .trans (.of_acted he.acted he.frame.1) ih
  | @stmt m _ _ s hs _ ih =>
    have hcounted : m.Retains m.counted := .of_world_eq rfl rfl
    exact hcounted.trans ih

theorem Polled.retains {id : TaskId} {ms : List Moment} (h : Polled m id ms n) : m.Retains n := by
  have hset : m.Retains (m.setTask id ({ · with state := .running })) := .of_world_eq rfl rfl
  cases h with
  | absent => exact .refl m
  | stopped => exact retains_finish m _ _
  | @paused t _ n ht hs hp pause frames =>
    obtain ⟨tasks, yielded, waits, he⟩ := suspend_shape n id pause frames
    rw [he]
    exact (hset.trans hp.retains).trans (.of_world_eq rfl rfl)
  | ended ht hs hp ending => exact (hset.trans hp.retains).trans (retains_finish _ _ ending)
  | @stoppedAll t _ n ht hs hp =>
    have hcounted : n.Retains n.counted := .of_world_eq rfl rfl
    have hstop := hcounted.trans (retains_stopAll n.counted)
    exact ((hset.trans hp.retains).trans hstop).trans (retains_finish _ t .cancelled)
  | @stoppedSprite t _ n ht hs hp =>
    have hstop : n.Retains (n.counted.stopEntity t.entity) := by
      refine .of_acted (acted_stopEntity n.counted t.entity) ?_
      obtain ⟨scopes, nextSerial, stopped, waits, ready, requests, he⟩ :=
        stopEntity_shape n.counted t.entity
      rw [he]
      rfl
    exact ((hset.trans hp.retains).trans hstop).trans (retains_finish _ t .cancelled)

/-- No other move touches programs or listeners, and none begins a run. -/
theorem retains_move (m : Machine) {move : Move} (h : move.registers = false) :
    m.Retains (m.move move) := by
  cases move with
  | command command =>
    cases command with
    | loadProgram | start | updateCode => cases h
    | stop => exact retains_stopAll m
    | keyDown key =>
      have hkeys : ∀ keys, m.Retains { m with world := { m.world with keys } } :=
        fun _ => ⟨rfl, ⟨_, rfl⟩, id⟩
      simp only [move, handle, keyDown]
      split
      · exact (hkeys _).trans (retains_spawnAll _ _)
      · exact hkeys _
    | keyUp key => exact ⟨rfl, ⟨_, rfl⟩, id⟩
    | clickEntity id =>
      simp only [move, handle, click]
      split
      · exact retains_spawnAll m _
      · exact .refl m
    | mousePosition x y =>
      have hmouse : m.Retains { m with world := m.world.setMouse ⟨x, y⟩ } := ⟨rfl, ⟨_, rfl⟩, id⟩
      exact hmouse.trans (retains_wake _ _)
    | shutdown => exact .refl m
  | broadcast name sender =>
    refine .of_acted (acted_broadcast m name sender) ?_
    obtain ⟨world, tasks, nextTask, stats, ready, he⟩ := broadcast_shape m name sender
    show (m.broadcast name sender).programs = _
    rw [he]
  | close => exact retains_halt m
  | poll id =>
    simp only [move]
    split
    · have hdequeue : m.Retains (m.dequeue id) := .of_world_eq rfl rfl
      exact hdequeue.trans (polled_poll (m.dequeue id) id).retains
    · exact .refl m
  | resume => exact .of_world_eq rfl rfl
  | reach time =>
    have hclock : m.Retains { m with world := { m.world with clock := time } } :=
      ⟨rfl, ⟨_, rfl⟩, id⟩
    exact hclock.trans (retains_wake _ _)

/-! ### What keeps programs and listeners in step -/

/-- In a run, just the programs of the machine are registered, each under its entity. -/
def Served (m : Machine) : Prop :=
  m.world.running = true → ∃ r : Registry, m.world.switchboard.Serves r ∧ (r.map (·.1)).Nodup ∧
    ∀ entity p, (entity, p) ∈ r ↔ m.programs[entity]? = some p

theorem Served.retains (h : m.Served) (hn : m.Retains n) : n.Served := by
  intro hr
  obtain ⟨r, hserves, hnodup, hmem⟩ := h (hn.running hr)
  obtain ⟨history, hb⟩ := hn.switchboard
  rw [hb, hn.programs]
  exact ⟨r, ⟨hserves.messages, hserves.keys, hserves.clicks, hserves.clickSlots⟩, hnodup, hmem⟩

theorem served_load (m : Machine) (specs : List EntitySpec) (program : Program) :
    (m.load specs program).Served := by
  intro hr
  cases hr

theorem Served.updateCode (h : m.Served) (id : EntityId) (program : EntityProgram) :
    (m.updateCode id program).Served := by
  unfold Machine.updateCode
  split
  next hid =>
    dsimp only
    split
    next hrunning =>
      intro _
      obtain ⟨r, hserves, hnodup, hmem⟩ := h hrunning
      refine ⟨_, hserves.register id program, Registry.nodup_clear_append hnodup id program,
        fun entity p => ?_⟩
      rw [List.mem_append, Registry.clear, List.mem_filter, hmem, List.mem_singleton,
        List.getElem?_set, Prod.mk.injEq, bne_iff_ne]
      by_cases he : id = entity
      · subst he
        simp [hid, eq_comm]
      · simp [he, Ne.symm he]
    next hrunning => exact fun hr => absurd hr hrunning
  · exact h

theorem mem_zip_range {programs : List EntityProgram} {entity : EntityId} {p : EntityProgram} :
    (entity, p) ∈ (List.range programs.length).zip programs ↔ programs[entity]? = some p := by
  have hrange : ∀ i, programs[i]? = some p → (List.range programs.length)[i]? = some i :=
    fun i hp => List.getElem?_range (List.getElem?_eq_some_iff.1 hp).1
  simp only [List.mem_iff_getElem?, List.getElem?_zip_eq_some]
  constructor
  · rintro ⟨i, hi, hp⟩
    rw [hrange i hp] at hi
    cases hi
    exact hp
  · exact fun hp => ⟨entity, hrange entity hp, hp⟩

theorem programs_start (m : Machine) : m.start.programs = m.programs := by
  obtain ⟨scopes, serial, ho⟩ := opened_shape m
  rw [start_eq, programs_spawnAll, ho]
  rfl

theorem served_start (h : m.Sound) : m.start.Served := by
  intro _
  have hkeys : (((List.range m.programs.length).zip m.programs).map (·.1)).Nodup := by
    rw [List.map_fst_zip (by simp)]
    exact List.nodup_range
  have hserves := (Switchboard.serves_clearListeners m.world.switchboard).after
    (((List.range m.programs.length).zip m.programs).map fun entry => .register entry.1 entry.2)
  rw [Switchboard.registry_map_register hkeys, List.filter_nil, List.nil_append,
    Switchboard.after, List.foldl_map, h.programs] at hserves
  rw [programs_start, world_start]
  exact ⟨_, hserves, h.programs ▸ hkeys, fun entity p => h.programs ▸ mem_zip_range⟩

theorem Served.move (h : m.Served) (hm : m.Sound) (move : Move) : (m.move move).Served := by
  cases hreg : move.registers with
  | false => exact h.retains (retains_move m hreg)
  | true =>
    match move with
    | .command (.loadProgram specs program) => exact served_load m specs program
    | .command .start => exact served_start hm
    | .command (.updateCode id program) => exact h.updateCode id program

theorem Reachable.served (h : m.Reachable) : m.Served :=
  h.sound_invariant (fun _ => nofun) fun _ move hsound hn => hn.move hsound move

/-! ### Which program an entity was given last -/

end Machine

/-- The program that a move gives an entity. A load gives one to every entity, an empty one where
its list ends. -/
def Move.gives (entity : EntityId) : Move → Option EntityProgram
  | .command (.loadProgram _ program) => some (program.entities[entity]?.getD .empty)
  | .command (.updateCode id program) => if id = entity then some program else none
  | _ => none

theorem Move.gives_of_registers {move : Move} (h : move.registers = false) (entity : EntityId) :
    move.gives entity = none := by
  unfold Move.gives
  split
  · cases h
  · cases h
  · rfl

def lastGiven (moves : List Move) (entity : EntityId) : Option EntityProgram :=
  moves.reverse.findSome? (·.gives entity)

theorem lastGiven_cons (move : Move) (rest : List Move) (entity : EntityId) :
    lastGiven (move :: rest) entity = (lastGiven rest entity).or (move.gives entity) := by
  rw [lastGiven, List.reverse_cons, List.findSome?_append, List.findSome?_singleton]
  rfl

namespace Machine

variable {m n : Machine} {given : EntityId → Option EntityProgram}

def Holds (m : Machine) (given : EntityId → Option EntityProgram) : Prop :=
  ∀ entity < m.programs.length, m.programs[entity]? = given entity

theorem programs_updateCode (m : Machine) (id : EntityId) (program : EntityProgram) :
    (m.updateCode id program).programs = m.programs.set id program := by
  unfold updateCode
  split
  · dsimp only
    split <;> rfl
  next hid => exact (List.set_eq_of_length_le (Nat.not_lt.1 hid)).symm

theorem holds_load (m : Machine) (specs : List EntitySpec) (program : Program) :
    (m.load specs program).Holds fun entity => some (program.entities[entity]?.getD .empty) := by
  intro entity hentity
  simp only [load, List.length_append, List.length_take, List.length_replicate] at hentity
  simp only [load, List.getElem?_append, List.length_take]
  split
  next hlt =>
    have hlisted : entity < program.entities.length := by omega
    rw [List.getElem?_take_of_lt (by omega), List.getElem?_eq_getElem hlisted]
    rfl
  next hge =>
    have hunlisted : program.entities[entity]? = none := List.getElem?_eq_none (by omega)
    rw [List.getElem?_replicate_of_lt (by omega), hunlisted]
    rfl

theorem Holds.move (h : m.Holds given) (move : Move) :
    (m.move move).Holds fun entity => (move.gives entity).or (given entity) := by
  cases hreg : move.registers with
  | false =>
    intro entity hentity
    rw [(retains_move m hreg).programs] at hentity ⊢
    simp only [Move.gives_of_registers hreg, Option.none_or]
    exact h entity hentity
  | true =>
    match move with
    | .command (.loadProgram specs program) => exact holds_load m specs program
    | .command .start =>
      intro entity hentity
      have hprograms : (m.move (.command .start)).programs = m.programs := programs_start m
      rw [hprograms] at hentity ⊢
      exact h entity hentity
    | .command (.updateCode id program) =>
      intro entity hentity
      have hprograms : (m.move (.command (.updateCode id program))).programs =
          m.programs.set id program := programs_updateCode m id program
      rw [hprograms, List.length_set] at hentity
      rw [hprograms, List.getElem?_set]
      by_cases hid : id = entity
      · subst hid
        simp [Move.gives, hentity]
      · simp [Move.gives, hid, h entity hentity]

theorem Holds.after (h : m.Holds given) (moves : List Move) :
    (m.after moves).Holds fun entity => (lastGiven moves entity).or (given entity) := by
  induction moves generalizing m given with
  | nil => exact h
  | cons move rest ih =>
    have hrest := ih (h.move move)
    simp only [← Option.or_assoc, ← lastGiven_cons] at hrest
    exact hrest

/-! ### The theorem -/

/-- Every entity has a program, the one that it was given last, and in a run just the scripts of
these programs listen. -/
structure Listens (m : Machine) (given : EntityId → Option EntityProgram) : Prop where
  programs : m.programs.length = m.world.entities.length
  given : ∀ entity < m.world.entities.length, m.programs[entity]? = given entity
  listeners : m.world.running = true → ∀ entity p, m.programs[entity]? = some p →
    m.world.switchboard.Lists entity p
  entities : ∀ l ∈ m.world.switchboard.listeners, l.entity < m.world.entities.length

theorem Sound.listens (h : m.Sound) (hserved : m.Served) (hgiven : m.Holds given) :
    m.Listens given where
  programs := h.programs
  given := h.programs ▸ hgiven
  listeners hr entity p hp := by
    obtain ⟨r, hserves, hnodup, hmem⟩ := hserved hr
    exact hserves.lists hnodup ((hmem entity p).2 hp)
  entities := h.listeners

theorem retains_at_moment {move : Move} {k : Moment} (hk : k ∈ m.moveTrace move) :
    m.Retains k.machine := by
  obtain ⟨id, t, ks, _, _, _, hp⟩ := turn_of_mem_moveTrace hk
  have hset : m.Retains ((m.dequeue id).setTask id ({ · with state := .running })) :=
    .of_world_eq rfl rfl
  exact hset.trans hp.retains

/-- Whatever a host and the tasks have done, an entity has the program that it was given last. In a
run, also at each statement of a turn, its listeners are the scripts of that program. -/
theorem listeners_match_programs (options : Options) (moves : List Move) :
    let m := (Machine.new options).after moves
    m.Listens (lastGiven moves) ∧
      ∀ move, ∀ k ∈ m.moveTrace move, k.machine.Listens (lastGiven moves) := by
  intro m
  have hreachable : m.Reachable := ⟨options, moves, rfl⟩
  have hgiven : m.Holds (lastGiven moves) := by
    have hnew : (Machine.new options).Holds fun _ => none := fun _ h => absurd h (Nat.not_lt_zero _)
    have hafter := hnew.after moves
    simp only [Option.or_none] at hafter
    exact hafter
  refine ⟨hreachable.sound.listens hreachable.served hgiven, fun move k hk => ?_⟩
  have hkept := retains_at_moment hk
  have hholds : k.machine.Holds (lastGiven moves) := by
    rw [Holds, hkept.programs]
    exact hgiven
  exact (hreachable.sound.at_moment hk).1.listens (hreachable.served.retains hkept) hholds

-- The dog gets the scripts of the cat while it runs, so it listens for clicks only.
theorem listeners_match_programs_sample :
    let moves := Sample.moves ++ [.command (.updateCode 1 Sample.catScripts)]
    let m := (Machine.new .standard).after moves
    let k : Moment := (m.moveTrace (.poll 3)).get ⟨0, by decide +kernel⟩
    k.machine.world.running = true ∧ lastGiven moves 0 = some Sample.catScripts ∧
      lastGiven moves 1 = some Sample.catScripts ∧ m.Listens (lastGiven moves) ∧
      k.machine.Listens (lastGiven moves) := by
  intro moves m k
  have hboth := listeners_match_programs .standard moves
  exact ⟨rfl, rfl, rfl, hboth.1, hboth.2 (.poll 3) k (List.get_mem _ _)⟩

end Machine

end SpriteStage
