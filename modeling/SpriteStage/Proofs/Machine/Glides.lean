import Mathlib
import SpriteStage.Proofs.Machine.Pausing
import SpriteStage.Proofs.Machine.Speech
import SpriteStage.Proofs.Stage.Glide

/-!
How a glide goes on from turn to turn.

A glide plans its way once, and each later turn of its task puts the entity on that way, wherever it
is by then. So the points that the host hears of depend on nothing but the way, the duration and
the times of the turns (`Due.heard`). In the turn that comes to the end of the way the task goes on
with what is left behind the glide, and is never on this glide again (`Due.lands`).
-/

namespace SpriteStage

open Stage (Point HalfSize Glide Along arriving)

/-! ### Planning -/

/-- How long to glide, and where to. -/
def Action.gliding (w : World) (id : EntityId) (secs x y : Expr) : Eval (Float × Point Float) := do
  let secs ← secs.evalNumber w id "SECS"
  let x ← x.evalNumber w id "X"
  let y ← y.evalNumber w id "Y"
  return (secs, ⟨x, y⟩)

theorem Action.run_glide (w : World) (id : EntityId) (secs x y : Expr) :
    (Action.glide secs x y).run w id = do
      let (secs, p) ← gliding w id secs x y
      let way ← Eval.ofExcept (w.planGlide id p)
      if 0 < secs then return (w, .glide way secs)
      else return (← Eval.ofExcept (w.glideTo id way 1), .sleep .zero) := by
  simp [Action.run, gliding]

def HostEvent.arrival (id : EntityId) (p : Point Float) : HostEvent :=
  .entityStateChanged id (.position p)

namespace World

variable {w : World} {id : EntityId} {e : Entity}

theorem moveTo_of_checked {p : Point Float} (hp : checkPoint p = .ok ())
    (he : w.entity id = .ok e) :
    w.moveTo id p =
      .ok (w.update id (e.moved (p.clamp e.halfSize)) (.position (p.clamp e.halfSize))) := by
  simp only [moveTo, hp, he]
  rfl

theorem planGlide_of_checked {p : Point Float} (hp : checkPoint p = .ok ())
    (he : w.entity id = .ok e) : w.planGlide id p = .ok (.plan e.position e.halfSize p) := by
  simp only [planGlide, hp, he]
  rfl

theorem glideTo_eq (he : w.entity id = .ok e) (way : Glide Float) (share : Float) :
    w.glideTo id way share =
      .ok (w.update id (e.moved (way.point share)) (.position (way.point share))) := by
  simp only [glideTo, he]
  rfl

theorem events_update (h : w.running = true) (id : EntityId) (e : Entity) (p : Point Float) :
    (w.update id (e.moved p) (.position p)).events = w.events ++ [.arrival id p] := by
  show w.events ++ (if w.running = true then _ else _) = _
  rw [if_pos h]
  rfl

end World

namespace Machine

def placed (m : Machine) (id : EntityId) (e : Entity) (p : Point Float) : Machine :=
  { m with world := m.world.update id (e.moved p) (.position p) }

theorem eval_ok_bind {α β : Type} (m : Machine) (a : α) (f : α → Eval β) (k : β → Machine → Step) :
    m.eval (Eval.ofExcept (.ok a) >>= f) k = m.eval (f a) k := by
  rw [eval_bind]
  rfl

theorem exec_glide {self : Self} {m : Machine} {e : Entity} {secsArg xArg yArg : Expr}
    {secs : Float} {p : Point Float} {random : SplitMix}
    (he : m.world.entity self.entity = .ok e)
    (hargs : (Action.gliding m.world self.entity secsArg xArg yArg).run.run m.random =
      (.ok (secs, p), random)) (hp : World.checkPoint p = .ok ()) :
    exec self m (.act (.glide secsArg xArg yArg)) =
      if 0 < secs then
        { m.counted with random }.pauseFor m.options.tick
          [.glide (.plan e.position e.halfSize p) m.world.clock secs]
      else
        ({ m.counted with random }.placed self.entity e
          ((Glide.plan e.position e.halfSize p).point 1)).pauseFor .zero [] := by
  have hargs' : (Action.gliding m.counted.world self.entity secsArg xArg yArg).run.run
      m.counted.random = (.ok (secs, p), random) := hargs
  have heval : ∀ k : Float × Point Float → Machine → Step,
      m.counted.eval (Action.gliding m.counted.world self.entity secsArg xArg yArg) k =
        k (secs, p) { m.counted with random } := by
    intro k
    simp only [eval, hargs']
  have hplan : m.counted.world.planGlide self.entity p = .ok (.plan e.position e.halfSize p) :=
    World.planGlide_of_checked hp he
  have hland : m.counted.world.glideTo self.entity (.plan e.position e.halfSize p) 1 = .ok _ :=
    World.glideTo_eq he _ 1
  rw [exec, act_eq, Action.run_glide, eval_bind, heval]
  simp only [hplan, eval_ok_bind]
  split
  · rfl
  · rw [hland, eval_ok_bind]
    rfl

/-! ### Turns -/

def secondsSince (started time : Nat) : Float :=
  (Span.ofMillis (time - started)).toSeconds

theorem runFrame_glide (self : Self) {m : Machine} {e : Entity}
    (he : m.world.entity self.entity = .ok e) (way : Glide Float) (started : Nat) (secs : Float) :
    runFrame self m (.glide way started secs) =
      let share := secondsSince started m.world.clock / secs
      let n := m.placed self.entity e (way.point share)
      if 1 ≤ share then .done n else n.pauseFor n.options.tick [.glide way started secs] := by
  have hland := World.glideTo_eq he way ((Span.ofMillis (m.world.clock - started)).toSeconds / secs)
  simp only [runFrame_glide_eq, hland]
  rfl

def news (m : Machine) (move : Move) : List HostEvent :=
  (m.move move).world.events.drop m.world.events.length

variable {m : Machine} {l : Leaf} {way : Glide Float} {started : Nat} {secs : Float}
  {later : List Frame}

theorem news_eq {move : Move} {heard : List HostEvent}
    (h : (m.move move).world.events = m.world.events ++ heard) : m.news move = heard := by
  rw [news, h, List.drop_left]

theorem Sound.exists_placed {t : Task} (hm : m.Sound) (ht : m.task? t.id = some t)
    (hs : m.isStopped t.token = false) (way : Glide Float) (share : Float) :
    ∃ e, (m.begun t.id).world.entity t.entity = .ok e ∧
      let n := (m.begun t.id).placed t.entity e (way.point share)
      n.Sound ∧ n.tree.Live t.leaf ∧
        n.world.events = m.world.events ++ [.arrival t.entity (way.point share)] := by
  have hlive : m.tree.Live t.leaf := ⟨List.mem_map_of_mem (mem_of_task? ht).1, hs⟩
  have hrunning : m.world.running = true := hm.tree.running_of_live hlive
  obtain ⟨e, he⟩ := World.entity_of_lt (hm.entity_lt hlive)
  have hbegun : (m.begun t.id).world.entity t.entity = .ok e := he
  have heffect : Effect ⟨t.id, t.entity⟩ (m.begun t.id)
      ((m.begun t.id).placed t.entity e (way.point share)) :=
    .glide _ way share _ (World.glideTo_eq hbegun way share)
  obtain ⟨hsound, hlive⟩ := (hm.dequeue t.id).turn_path ht hs (.single heffect)
  exact ⟨e, hbegun, hsound, hlive, World.events_update (w := m.world) hrunning t.entity e _⟩

def advanced (m : Machine) (t : Task) (e : Entity) (way : Glide Float) (share : Float) : Machine :=
  (m.begun t.id).placed t.entity e (way.point share)

/-- The turn of a gliding task. The entity is put on its way, wherever it is by then. The task goes
on gliding if it is not there yet, and else with what is left behind the glide. -/
structure Advances (m : Machine) (t : Task) (e : Entity) (way : Glide Float) (share : Float)
    (glide : Frame) (later : List Frame) : Prop where
  entity : m.world.entity t.entity = .ok e
  sound : (m.advanced t e way share).Sound
  live : (m.advanced t e way share).tree.Live t.leaf
  events : (m.advanced t e way share).world.events =
    m.world.events ++ [.arrival t.entity (way.point share)]
  goes : ¬ 1 ≤ share → ∃ pause,
    m.move (.poll t.id) = (m.advanced t e way share).suspend t.id pause (glide :: later)
  lands : 1 ≤ share →
    m.move (.poll t.id) =
      (runFrames ⟨t.id, t.entity⟩ (m.advanced t e way share) later).settled t
  trace : 1 ≤ share →
    m.moveTrace (.poll t.id) = framesTrace ⟨t.id, t.entity⟩ (m.advanced t e way share) later

theorem Due.advances {move : Move} (h : Due l (.glide way started secs :: later) m) (hm : m.Sound)
    (hmove : m.goesOn l.id move = true) :
    ∃ t e, move = .poll t.id ∧ m.task? t.id = some t ∧ t.leaf = l ∧
      m.Advances t e way (secondsSince started m.world.clock / secs) (.glide way started secs)
        later := by
  obtain ⟨rfl, hready, t, ht, hs⟩ := goesOn_iff.1 hmove
  obtain ⟨hmem, hid⟩ := mem_of_task? ht
  obtain ⟨rfl, hframes⟩ := h.task t hmem hid
  obtain ⟨e, he, hsound, hlive, hevents⟩ :=
    hm.exists_placed ht hs way (secondsSince started m.world.clock / secs)
  have hframe := runFrame_glide ⟨t.id, t.entity⟩ he way started secs
  have hturn : m.move (.poll t.id) = _ := move_poll hready ht hs
  have htrace : m.moveTrace (.poll t.id) = _ := moveTrace_poll hready ht hs
  have hclock : (m.begun t.id).world.clock = m.world.clock := rfl
  rw [hframes, runFrames, hframe, hclock] at hturn
  rw [hframes, framesTrace, hframe, hclock] at htrace
  refine ⟨t, e, rfl, ht, rfl, he, hsound, hlive, hevents, fun hshare => ?_, fun hshare => ?_,
    fun hshare => ?_⟩
  · rw [if_neg hshare] at hturn
    exact ⟨_, hturn⟩
  · rw [if_pos hshare] at hturn
    exact hturn
  · rw [if_pos hshare] at htrace
    exact htrace

/-- In its turn a gliding task tells the host of the next point of its way, wherever the entity is.
It goes on gliding if it is not there yet. -/
theorem Due.turn {move : Move} (h : Due l (.glide way started secs :: later) m) (hm : m.Sound)
    (hmove : m.goesOn l.id move = true) :
    let share := secondsSince started m.world.clock / secs
    ∃ more, m.news move = .arrival l.entity (way.point share) :: more ∧
      (¬ 1 ≤ share → more = [] ∧ Due l (.glide way started secs :: later) (m.move move)) := by
  intro share
  obtain ⟨t, e, rfl, ht, rfl, ha⟩ := h.advances hm hmove
  by_cases hshare : 1 ≤ share
  · obtain ⟨more, hmore⟩ := (account_runFrames ⟨t.id, t.entity⟩
      (m.advanced t e way share) later).events_settled t
    refine ⟨more, news_eq ?_, fun hnot => absurd hshare hnot⟩
    rw [ha.events, List.append_assoc] at hmore
    exact (congrArg (·.world.events) (ha.lands hshare)).trans hmore.symm
  · obtain ⟨pause, hturn⟩ := ha.goes hshare
    have hworld : (m.move (.poll t.id)).world = (m.advanced t e way share).world :=
      (congrArg (·.world) hturn).trans
        (world_settled_paused _ t pause (.glide way started secs :: later))
    refine ⟨[], news_eq ?_, fun _ => ⟨rfl, hturn ▸ ha.sound.due_suspend ha.live _ _⟩⟩
    exact (congrArg (·.events) hworld).trans ha.events

/-! ### Runs -/

/-- A turn in which a task goes on: its time, what the host hears with it, and what is executed. -/
structure Going where
  time : Nat
  news : List HostEvent
  trace : List Moment

def goings (id : TaskId) (m : Machine) : List Move → List Going
  | [] => []
  | move :: rest =>
    if m.goesOn id move then
      ⟨m.world.clock, m.news move, m.moveTrace move⟩ :: goings id (m.move move) rest
    else goings id (m.move move) rest

theorem goings_subset_cons (id : TaskId) (m : Machine) (move : Move) (rest : List Move) :
    (m.move move).goings id rest ⊆ m.goings id (move :: rest) := by
  rw [goings]
  split
  · exact List.subset_cons_self _ _
  · exact List.Subset.refl _

theorem goings_append (id : TaskId) (m : Machine) (moves more : List Move) :
    m.goings id (moves ++ more) = m.goings id moves ++ (m.after moves).goings id more := by
  induction moves generalizing m with
  | nil => rfl
  | cons move rest ih =>
    rw [List.cons_append, goings, goings, ih]
    split <;> rfl

def elapsed (started : Nat) (turns : List Going) : List Float :=
  turns.map fun turn => secondsSince started turn.time

/-- Whatever the moves are, a gliding task tells the host of the points of its way, one in each
turn. Until it has arrived, it tells of nothing else, and stays a gliding task unless it is
stopped. -/
theorem Due.heard (h : Due l (.glide way started secs :: later) m) (hm : m.Sound)
    (moves : List Move) :
    let turns := m.goings l.id moves
    let shares := (elapsed started turns).map (· / secs)
    let points := (arriving shares).map way.point
    ∃ more, (turns.take points.length).flatMap (·.news) = points.map (.arrival l.entity) ++ more ∧
      ((∀ share ∈ shares, ¬ 1 ≤ share) →
        more = [] ∧ Due l (.glide way started secs :: later) (m.after moves)) := by
  induction moves generalizing m with
  | nil => exact ⟨[], rfl, fun _ => ⟨rfl, h⟩⟩
  | cons move rest ih =>
    cases hmove : m.goesOn l.id move with
    | false =>
      simp only [goings, hmove, Bool.false_eq_true, if_false]
      exact ih (h.move hm hmove) (hm.move move)
    | true =>
      obtain ⟨more, hnews, hon⟩ := h.turn hm hmove
      simp only [goings, hmove, if_true, elapsed, List.map_cons, arriving]
      split
      next harrived =>
        refine ⟨more, by simpa using hnews, fun hnot => ?_⟩
        exact absurd harrived (hnot _ List.mem_cons_self)
      next hnot =>
        obtain ⟨rfl, hdue⟩ := hon hnot
        obtain ⟨more, htail, hrest⟩ := ih hdue (hm.move move)
        refine ⟨more, ?_, fun hall => ?_⟩
        · rw [List.length_cons, List.take_succ_cons, List.flatMap_cons, hnews]
          exact congrArg _ htail
        · exact hrest fun share hshare => hall share (List.mem_cons_of_mem _ hshare)

/-! ### The end of a glide -/

/-- Whatever glide the task is on after the moves, a statement has begun it in one of its turns. -/
def Anew (m : Machine) (id : TaskId) (moves : List Move) : Prop :=
  ∀ u ∈ (m.after moves).tasks, u.id = id → ∀ f ∈ u.frames, f.isGlide = true →
    ∃ turn ∈ m.goings id moves, ∃ k ∈ turn.trace, k.Begins f

theorem Reachable.glide_of_after (hm : m.Reachable) (moves : List Move) {u : Task} {f : Frame}
    (hu : u ∈ (m.after moves).tasks) (hf : f ∈ u.frames) (hglide : f.isGlide = true) :
    (∃ t ∈ m.tasks, t.id = u.id ∧ f ∈ t.frames) ∨
      ∃ turn ∈ m.goings u.id moves, ∃ k ∈ turn.trace, k.Begins f := by
  induction moves generalizing m with
  | nil => exact .inl ⟨u, hu, rfl, hf⟩
  | cons move rest ih =>
    rcases ih (hm.move move) hu with ⟨v, hv, hvu, hfv⟩ | ⟨turn, hturn, hbegins⟩
    · refine (hm.glide_of_move hv hfv hglide).imp (fun ⟨t, ht, htv, hft⟩ => ?_)
        fun ⟨hgoes, hk⟩ => ?_
      · exact ⟨t, ht, htv.trans hvu, hft⟩
      · rw [hvu] at hgoes
        rw [goings, if_pos hgoes]
        exact ⟨_, List.mem_cons_self, hk⟩
    · exact .inr ⟨turn, goings_subset_cons _ m move rest hturn, hbegins⟩

theorem Due.anew (h : Due l later m) (hm : m.Reachable) (hlater : Glideless later)
    (moves : List Move) : m.Anew l.id moves := by
  intro u hu hid f hf hglide
  rcases hm.glide_of_after _ hu hf hglide with ⟨t, ht, htu, hft⟩ | hbegun
  · rw [(h.task t ht (htu.trans hid)).2] at hft
    exact absurd hglide (hlater.isGlide_ne hft)
  · exact hid ▸ hbegun

/-- It is enough to look at the task after the first of the moves, if that is its turn. -/
theorem Reachable.anew_cons (hm : m.Reachable) {id : TaskId} {move : Move}
    (hgoes : m.goesOn id move = true)
    (h : ∀ u ∈ (m.move move).tasks, u.id = id → ∀ f ∈ u.frames, f.isGlide = true →
      ∃ k ∈ m.moveTrace move, k.Begins f) (rest : List Move) : m.Anew id (move :: rest) := by
  intro u hu hid f hf hglide
  rw [goings, if_pos hgoes]
  rcases (hm.move move).glide_of_after rest hu hf hglide with ⟨v, hv, hvu, hfv⟩ | hbegun
  · exact ⟨_, List.mem_cons_self, h v hv (hvu.trans hid) f hfv hglide⟩
  · obtain ⟨turn, hturn, hbegins⟩ := hbegun
    exact ⟨turn, List.mem_cons_of_mem _ (hid ▸ hturn), hbegins⟩

/-- The turn in which a gliding task arrives: with the entity at the end of the way it goes on with
what is left behind the glide, and it is never on this glide again. -/
structure Lands (m : Machine) (l : Leaf) (way : Glide Float) (later : List Frame)
    (rest : List Move) : Prop where
  turn : ∃ t e, m.task? l.id = some t ∧ t.leaf = l ∧ m.world.entity l.entity = .ok e ∧
    m.move (.poll l.id) =
      (runFrames ⟨l.id, l.entity⟩ ((m.begun l.id).placed l.entity e way.finish.toStage)
        later).settled t
  anew : m.Anew l.id (.poll l.id :: rest)

theorem Due.lands {move : Move} (h : Due l (.glide way started secs :: later) m) (hm : m.Reachable)
    (hlater : Glideless later) (hmove : m.goesOn l.id move = true)
    (hshare : 1 ≤ secondsSince started m.world.clock / secs) (rest : List Move) :
    move = .poll l.id ∧ m.Lands l way later rest := by
  obtain ⟨t, e, rfl, ht, rfl, ha⟩ := h.advances hm.sound hmove
  have hlands := ha.lands hshare
  have htail : Glideless later.tail := fun f hf => hlater f (List.mem_of_mem_tail hf)
  have hglides := (decisive_runFrames ⟨t.id, t.entity⟩
    (m.advanced t e way (secondsSince started m.world.clock / secs))
    (List.Subset.refl later) htail).glides
  refine ⟨rfl, ⟨t, e, ht, rfl, ha.entity, ?_⟩,
    hm.anew_cons hmove (fun u hu hid f hf hglide => ?_) rest⟩
  · rw [advanced, Stage.point_of_one_le way hshare] at hlands
    exact hlands
  · rw [hlands] at hu
    rw [ha.trace hshare]
    refine (hglides.settled hu hid hf hglide).resolve_left fun hold => ?_
    exact hlater.isGlide_ne hold hglide

/-! ### The course of a glide -/

def Over (started : Nat) (secs : Float) (turns : List Going) : Prop :=
  ∃ time ∈ elapsed started turns, 1 ≤ time / secs

/-- How a glide goes on from a machine while the moves are made, and with what is left behind it. In
its turns the host hears of the points, one by one, and of something else only after the last of
them, which is the finish. Until then the task glides on, unless it is stopped; and the first turn
in which the time is over is the last of the glide. -/
structure Course (m : Machine) (l : Leaf) (way : Glide Float) (started : Nat) (secs : Float)
    (later : List Frame) (moves : List Move) : Prop where
  heard :
    let turns := m.goings l.id moves
    let points := way.emitted secs (elapsed started turns)
    ∃ more, (turns.take points.length).flatMap (·.news) = points.map (.arrival l.entity) ++ more ∧
      (¬ Over started secs turns → more = [])
  lands : Over started secs (m.goings l.id moves) →
    (way.emitted secs (elapsed started (m.goings l.id moves))).getLast? = some way.finish.toStage
  glides : ¬ Over started secs (m.goings l.id moves) →
    Due l (.glide way started secs :: later) (m.after moves)
  ends : ∀ before move rest, moves = before ++ move :: rest →
    ¬ Over started secs (m.goings l.id before) →
    Over started secs (m.goings l.id (before ++ [move])) →
    move = .poll l.id ∧ (m.after before).Lands l way later rest

theorem not_one_le_of_not_over {turns : List Going} (h : ¬ Over started secs turns) :
    ∀ share ∈ (elapsed started turns).map (· / secs), ¬ 1 ≤ share := by
  intro share hshare hone
  obtain ⟨time, htime, rfl⟩ := List.mem_map.1 hshare
  exact h ⟨time, htime, hone⟩

/-- If the time is over with a move and not before it, then the task goes on with the move. -/
theorem goesOn_of_over {id : TaskId} {before : List Move} {move : Move}
    (hnot : ¬ Over started secs (m.goings id before))
    (hover : Over started secs (m.goings id (before ++ [move]))) :
    (m.after before).goesOn id move = true ∧
      1 ≤ secondsSince started (m.after before).world.clock / secs := by
  obtain ⟨time, htime, hone⟩ := hover
  rw [goings_append, elapsed, List.map_append, List.mem_append] at htime
  rcases htime with htime | htime
  · exact absurd ⟨time, htime, hone⟩ hnot
  · rw [goings] at htime
    split at htime
    next hgoes =>
      cases List.mem_singleton.1 htime
      exact ⟨hgoes, hone⟩
    · cases htime

theorem Due.course (h : Due l (.glide way started secs :: later) m) (hm : m.Reachable)
    (hlater : Glideless later) (hsecs : 0 < secs) (moves : List Move) :
    m.Course l way started secs later moves := by
  have hglides : ∀ moves, ¬ Over started secs (m.goings l.id moves) →
      Due l (.glide way started secs :: later) (m.after moves) := by
    intro moves hover
    obtain ⟨more, -, hon⟩ := h.heard hm.sound moves
    exact (hon (not_one_le_of_not_over hover)).2
  refine ⟨?_, fun hover => Stage.lands_emitted way fun _ => hover, hglides moves, ?_⟩
  · obtain ⟨more, hheard, hon⟩ := h.heard hm.sound moves
    have hpoints : way.emitted secs (elapsed started (m.goings l.id moves)) =
        (arriving ((elapsed started (m.goings l.id moves)).map (· / secs))).map way.point :=
      if_pos hsecs
    dsimp only
    rw [hpoints]
    exact ⟨more, hheard, fun hover => (hon (not_one_le_of_not_over hover)).1⟩
  · rintro before move rest rfl hnot hover
    obtain ⟨hgoes, hone⟩ := goesOn_of_over hnot hover
    exact (hglides before hnot).lands (hm.after before) hlater hgoes hone rest

/-! ### The theorem -/

/-- What comes of a glide statement that a task executes at the moment `k` of its turn. The way
leads to where a move to the same target would have put the entity. With no time for it the entity
is there at once, and the glide is over. -/
structure Glides (m : Machine) (k : Moment) (t : Task) (e : Entity) (secs : Float)
    (target : Point Float) : Prop where
  moveTo : k.machine.world.moveTo t.entity target =
    .ok (k.machine.world.update t.entity (e.moved (target.clamp e.halfSize))
      (.position (target.clamp e.halfSize)))
  begins : (m.move (.poll t.id)).world.events = k.machine.world.events ++
    if 0 < secs then []
    else ((Glide.plan e.position e.halfSize target).emitted secs []).map (.arrival t.entity)
  course : 0 < secs → ∃ later, Glideless later ∧ ∀ moves,
    (m.move (.poll t.id)).Course t.leaf (.plan e.position e.halfSize target) k.machine.world.clock
      secs later moves
  ends : ¬ 0 < secs → ∃ later, Glideless later ∧ Due t.leaf later (m.move (.poll t.id)) ∧
    ∀ moves, (m.move (.poll t.id)).Anew t.id moves

theorem Sound.live_at_moment {k : Moment} {t : Task} (hm : m.Sound) (ht : m.task? t.id = some t)
    (hk : k ∈ m.moveTrace (.poll t.id)) : k.machine.Sound ∧ k.machine.tree.Live t.leaf := by
  obtain ⟨id, u, ks, hpoll, hu, hs, hp⟩ := turn_of_mem_moveTrace hk
  cases hpoll
  obtain rfl : u = t := Option.some.inj (hu.symm.trans ht)
  exact (hm.dequeue u.id).turn_path ht hs hp

theorem Reachable.glides {k : Moment} {t : Task} {e : Entity} {secsArg xArg yArg : Expr}
    {secs : Float} {target : Point Float} {random : SplitMix} (hm : m.Reachable)
    (hk : k ∈ m.moveTrace (.poll t.id)) (ht : m.task? t.id = some t)
    (hstmt : k.stmt = .act (.glide secsArg xArg yArg))
    (he : k.machine.world.entity t.entity = .ok e)
    (hargs : (Action.gliding k.machine.world t.entity secsArg xArg yArg).run.run k.machine.random =
      (.ok (secs, target), random)) (htarget : World.checkPoint target = .ok ()) :
    m.Glides k t e secs target := by
  obtain ⟨u, whole, hu, hs, hturn, hdecides⟩ := hm.decides hk
  obtain rfl : u = t := Option.some.inj (hu.symm.trans ht)
  obtain ⟨hsound, hlive⟩ := hm.sound.live_at_moment ht hk
  have hdraw : Effect ⟨u.id, u.entity⟩ k.machine.counted { k.machine.counted with random } :=
    .draw _ random
  have hdrawn := hsound.counted.effect hdraw
  rw [hstmt, exec_glide he hargs htarget] at hdecides
  by_cases hsecs : 0 < secs
  · rw [if_pos hsecs] at hdecides
    obtain ⟨later, hlater, rfl⟩ := hdecides
    have hdue : Due u.leaf
        (.glide (.plan e.position e.halfSize target) k.machine.world.clock secs :: later)
        (m.move (.poll u.id)) := by
      rw [hturn]
      exact hdrawn.due_suspend hlive _ _
    refine ⟨World.moveTo_of_checked htarget he, ?_, fun _ => ?_, fun hnot => absurd hsecs hnot⟩
    · rw [if_pos hsecs, List.append_nil, hturn, world_settled_paused]
      rfl
    · exact ⟨later, hlater, hdue.course (hm.move (.poll u.id)) hlater hsecs⟩
  · rw [if_neg hsecs] at hdecides
    obtain ⟨later, hlater, rfl⟩ := hdecides
    have hrunning : k.machine.world.running = true := hsound.tree.running_of_live hlive
    have hplace : Effect ⟨u.id, u.entity⟩ { k.machine.counted with random }
        ({ k.machine.counted with random }.placed u.entity e
          ((Glide.plan e.position e.halfSize target).point 1)) :=
      .glide _ _ 1 _ (World.glideTo_eq he _ 1)
    have hdue : Due u.leaf later (m.move (.poll u.id)) := by
      rw [hturn]
      exact (hdrawn.effect hplace).due_suspend hlive .yield later
    refine ⟨World.moveTo_of_checked htarget he, ?_, fun hpos => absurd hpos hsecs, fun _ => ?_⟩
    · rw [if_neg hsecs, hturn, Glide.emitted, if_neg hsecs, world_settled_paused]
      exact World.events_update (w := k.machine.world) hrunning u.entity e _
    · exact ⟨later, hlater, hdue, hdue.anew (hm.move (.poll u.id)) hlater⟩

/-- In exact arithmetic the points of a glide lie on the segment from where the box is to the
target, which is kept within its reach, and they go forwards as time does. Once the time is over,
or at once if there is none, the last of them is the end of the segment. What the host hears of a
glide are the points of its way in their order, whatever happens between its turns, and nothing but
a stop can end it before the last of them. With that one it ends: the task goes on with what is left
behind the glide, and is on no glide but those that it begins from then on. -/
theorem glide_follows_segment :
    (∀ (center target : Point ℚ) (half : HalfSize ℚ) (secs : ℚ) (elapsed : List ℚ),
      elapsed.Pairwise (· ≤ ·) →
      let points := (Glide.plan center half target).emitted secs elapsed
      Along center (target.clamp half) points ∧
        ((0 < secs → ∃ time ∈ elapsed, secs ≤ time) →
          points.getLast? = some (target.clamp half))) ∧
    ∀ (m : Machine) (t : Task) (k : Moment) (secsArg xArg yArg : Expr), m.Reachable →
      m.task? t.id = some t → k ∈ m.moveTrace (.poll t.id) →
      k.stmt = .act (.glide secsArg xArg yArg) →
      ∃ e, k.machine.world.entity t.entity = .ok e ∧ ∀ secs target random,
        (Action.gliding k.machine.world t.entity secsArg xArg yArg).run.run k.machine.random =
          (.ok (secs, target), random) →
        World.checkPoint target = .ok () → m.Glides k t e secs target := by
  refine ⟨fun center target half secs elapsed htimes => ?_, ?_⟩
  · exact ⟨Stage.along_emitted center target half secs htimes,
      Stage.getLast?_emitted center target half secs⟩
  · intro m t k secsArg xArg yArg hm ht hk hstmt
    obtain ⟨hsound, hlive⟩ := hm.sound.live_at_moment ht hk
    obtain ⟨e, he⟩ := World.entity_of_lt (hsound.entity_lt hlive)
    exact ⟨e, he, fun secs target random hargs htarget => hm.glides hk ht hstmt he hargs htarget⟩

namespace Sample

-- The cat glides to a place far to the right. A click takes it somewhere else.
def glidingScripts : EntityProgram :=
  { EntityProgram.empty with
    onStart := some ⟨"a", [.act (.glide (.literal (.number 1)) (.literal (.number 1000))
      (.literal (.number 0)))]⟩
    onClick := [⟨"b", [.act (.moveTo (.literal (.number 7)) (.literal (.number 7)))]⟩] }

def glider : Machine :=
  (Machine.new .standard).after
    [.command (.loadProgram [cat] ⟨[glidingScripts]⟩), .command .start]

end Sample

theorem glide_follows_segment_cat :
    let m := Sample.glider
    let t := m.tasks.get ⟨0, by decide +kernel⟩
    let k := (m.moveTrace (.poll 1)).get ⟨0, by decide +kernel⟩
    let moves : List Move :=
      [.reach 500, .poll 1, .command (.clickEntity 0), .poll 2, .reach 2000, .poll 1, .reach 2500,
        .poll 1]
    ((m.move (.poll 1)).goings 1 moves).map (·.time) = [500, 2000] ∧
      ((m.move (.poll 1)).goings 1 moves).map (·.news) =
        [[.arrival 0 ⟨120, 0⟩], [.arrival 0 ⟨240, 0⟩]] ∧
      (∃ e, k.machine.world.entity 0 = .ok e ∧ m.Glides k t e 1 ⟨1000, 0⟩) ∧
      Along ⟨0, 0⟩ ⟨240, 0⟩ ((Glide.plan ⟨0, 0⟩ ⟨0, 0⟩ ⟨1000, 0⟩).emitted 1 [1 / 2, 2]) := by
  intro m t k moves
  refine ⟨by decide +kernel, by decide +kernel, ?_, ?_⟩
  · obtain ⟨e, he, hglides⟩ := glide_follows_segment.2 m t k (.literal (.number 1))
      (.literal (.number 1000)) (.literal (.number 0)) ⟨_, _, rfl⟩ rfl (List.get_mem _ _) rfl
    exact ⟨e, he, hglides 1 ⟨1000, 0⟩ k.machine.random rfl rfl⟩
  · have hexact := (glide_follows_segment.1 ⟨0, 0⟩ ⟨1000, 0⟩ ⟨0, 0⟩ 1 [1 / 2, 2] (by norm_num)).1
    have hgoal : Point.clamp (⟨1000, 0⟩ : Point ℚ) ⟨0, 0⟩ = ⟨240, 0⟩ := by decide +kernel
    rwa [hgoal] at hexact

end Machine

end SpriteStage
