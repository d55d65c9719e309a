import SpriteStage.Proofs.Machine.Failure
import SpriteStage.Proofs.Machine.News
import SpriteStage.Proofs.Machine.Stopping

/-!
What the host hears of failures.

A move reports nothing, or the failure of the task that has its turn, if it is new
(`World.Reporting`). So in the course of a run the reports are the failures that there have been,
each entity and wording once. A task of an earlier run cannot fail any more.
-/

namespace SpriteStage

/-! ### Reports -/

def HostEvent.report? : HostEvent → Option (Option EntityId × String)
  | .runtimeError entity message => some (entity, message)
  | _ => none

def reports (news : List HostEvent) : List (Option EntityId × String) :=
  news.filterMap HostEvent.report?

def Failure.report (f : Failure) : Option EntityId × String :=
  (some f.entity, f.error.message)

theorem reports_append (news more : List HostEvent) :
    reports (news ++ more) = reports news ++ reports more :=
  List.filterMap_append

theorem reports_eq_nil {news : List HostEvent} (h : ∀ event ∈ news, event.isFailure = false) :
    reports news = [] := by
  refine List.filterMap_eq_nil_iff.2 fun event hevent => ?_
  have hfailure := h event hevent
  cases event with
  | runtimeError => cases hfailure
  | _ => rfl

namespace World

variable {w w' w'' : World}

/-- No failure has been reported; if a run is going on, it is the same one. -/
structure Quiet (w w' : World) : Prop where
  events : ∃ news, w'.events = w.events ++ news ∧ reports news = []
  same : w'.running = true → w.running = true ∧ w'.reported = w.reported

namespace Quiet

theorem refl (w : World) : w.Quiet w :=
  ⟨⟨[], (List.append_nil w.events).symm, rfl⟩, fun hr => ⟨hr, rfl⟩⟩

theorem of_edited (h : w.Edited true true w') : w.Quiet w' := by
  obtain ⟨hreported, news, hevents, hquiet⟩ := h.quiet
  refine ⟨⟨news, hevents, reports_eq_nil hquiet⟩, fun hr => ⟨?_, hreported⟩⟩
  rw [← h.acted.running]
  exact hr

theorem trans (h : w.Quiet w') (h' : w'.Quiet w'') : w.Quiet w'' := by
  obtain ⟨news, hevents, hnone⟩ := h.events
  obtain ⟨more, hevents', hnone'⟩ := h'.events
  refine ⟨⟨news ++ more, ?_, ?_⟩, fun hr => ?_⟩
  · rw [hevents', hevents, List.append_assoc]
  · rw [reports_append, hnone, hnone']
    rfl
  · obtain ⟨hr', hreported'⟩ := h'.same hr
    obtain ⟨hr'', hreported⟩ := h.same hr'
    exact ⟨hr'', hreported'.trans hreported⟩

theorem halt (w : World) : w.Quiet w.halt :=
  ⟨⟨[], (List.append_nil w.events).symm, rfl⟩, nofun⟩

theorem halt_emit (w : World) : w.Quiet (w.halt.emit .executionStopped) :=
  ⟨⟨[.executionStopped], rfl, rfl⟩, nofun⟩

end Quiet

/-- What a move does to the world, by the failure of its task. -/
inductive Reporting (w : World) : Option Failure → World → Prop where
  | quiet {w' : World} (h : w.Quiet w') : Reporting w none w'
  | failed {w' : World} (f : Failure) (h : w.Quiet w') (hr : w'.running = true) :
      Reporting w (some f) (w'.reportFailure f.entity f.error)

end World

namespace Machine

variable {m n : Machine}

/-! ### One move -/

theorem Sound.reporting_poll (h : m.Sound) (id : TaskId) :
    m.world.Reporting (m.pollFailure? id) (m.poll id).world := by
  cases ht : m.task? id with
  | none =>
    simp only [pollFailure?, poll, ht]
    exact .quiet (.refl m.world)
  | some t =>
    cases hs : m.isStopped t.token with
    | true =>
      simp only [pollFailure?, poll, ht, hs, if_true]
      exact .quiet (.refl m.world)
    | false =>
      have ha := account_runFrames ⟨id, t.entity⟩ (m.setTask id ({ · with state := .running })) t.frames
      simp only [pollFailure?, poll, ht, hs, Bool.false_eq_true, if_false]
      generalize framesTrace _ _ _ = ms at ha
      generalize runFrames _ _ _ = step at ha ⊢
      cases ha with
      | done hp => exact .quiet (.of_edited hp.edited)
      | @paused _ n hp pause frames =>
        obtain ⟨tasks, yielded, waits, he⟩ := suspend_shape n id pause frames
        simp only [he]
        exact .quiet (.of_edited hp.edited)
      | @ended _ n hp ending =>
        have hquiet : m.world.Quiet n.world := .of_edited hp.edited
        cases ending with
        | completed | cancelled => exact .quiet hquiet
        | failed e =>
          obtain ⟨hsound, hlive⟩ := h.turn_path ht hs hp
          have hrunning : n.world.running = true := hsound.tree.running_of_live hlive
          simp only [finish_failed hrunning]
          exact .failed ⟨id, t.entity, e⟩ hquiet hrunning
      | @stoppedAll _ n hp =>
        have hquiet : m.world.Quiet n.world := .of_edited hp.edited
        have hstop : (n.counted.stopAll.finish t .cancelled).world =
            n.world.halt.emit .executionStopped := world_stopAll n.counted
        simp only [hstop]
        exact .quiet (hquiet.trans (.halt_emit n.world))
      | @stoppedSprite _ n hp =>
        have hquiet : m.world.Quiet n.world := .of_edited hp.edited
        exact .quiet (hquiet.trans (.of_edited (edited_stopEntity n.counted t.entity)))

theorem Aside.quiet (h : m.Aside n) : m.world.Quiet n.world := by
  have hrunning : n.world.running = m.world.running := congrArg ScopeTree.running h.tree
  refine ⟨⟨[], ?_, rfl⟩, fun hr => ⟨?_, h.reported⟩⟩
  · rw [h.events, List.append_nil]
  · rw [← hrunning]
    exact hr

theorem Moved.quiet {move : Move} (h : Moved m move n) (hpoll : ∀ id, move ≠ .poll id)
    (hs : move.isStart = false) : m.world.Quiet n.world := by
  cases h with
  | aside _ ha => exact ha.quiet
  | spawn _ ha _ ls =>
    rw [world_spawnAll]
    exact ha.quiet
  | broadcast name sender => exact .of_edited (edited_broadcast m name sender)
  | load specs program =>
    have hevents := events_load m specs program
    exact ⟨⟨[], by rw [hevents, List.append_nil], rfl⟩, nofun⟩
  | start => cases hs
  | stop =>
    rw [world_stopAll]
    exact .halt_emit m.world
  | close =>
    rw [world_halt]
    exact .halt m.world
  | poll => exact absurd rfl (hpoll _)

theorem Sound.reporting_move (h : m.Sound) {move : Move} (hs : move.isStart = false) :
    m.world.Reporting (m.failure? move) (m.move move).world := by
  have hmoved := (moved_move m move).quiet
  cases move with
  | poll id =>
    simp only [failure?, Machine.move]
    split
    · exact (h.dequeue id).reporting_poll id
    · exact .quiet (.refl m.world)
  | _ => exact .quiet (hmoved (by rintro id ⟨⟩) hs)

/-! ### A run -/

def failuresAlong (m : Machine) : List Move → List Failure
  | [] => []
  | move :: rest => (m.failure? move).toList ++ (m.move move).failuresAlong rest

/-- Since the host had heard of `before`, it has been told of these failures, each report once. -/
structure Tallied (before : List HostEvent) (failures : List Failure) (w : World) : Prop where
  heard : ∃ news, w.events = before ++ news ∧ (reports news).Nodup ∧
    (∀ report, report ∈ reports news ↔ ∃ f ∈ failures, f.report = report) ∧
    (w.running = true → ∀ id message, (id, message) ∈ w.reported ↔ (some id, message) ∈ reports news)

namespace Tallied

variable {before : List HostEvent} {failures : List Failure} {w w' : World}

theorem quiet (h : Tallied before failures w) (hq : w.Quiet w') : Tallied before failures w' := by
  obtain ⟨news, hevents, hnodup, hall, hreported⟩ := h.heard
  obtain ⟨more, hmore, hnone⟩ := hq.events
  have hsame : reports (news ++ more) = reports news := by
    rw [reports_append, hnone, List.append_nil]
  refine ⟨news ++ more, ?_, ?_, ?_, fun hrunning id message => ?_⟩
  · rw [hmore, hevents, List.append_assoc]
  · rw [hsame]
    exact hnodup
  · rw [hsame]
    exact hall
  · obtain ⟨hrunning', hreported'⟩ := hq.same hrunning
    rw [hsame, hreported']
    exact hreported hrunning' id message

theorem report (h : Tallied before failures w) (hr : w.running = true) (f : Failure) :
    Tallied before (failures ++ [f]) (w.reportFailure f.entity f.error) := by
  obtain ⟨news, hevents, hnodup, hall, hreported⟩ := h.heard
  have hadded : ∀ report, (∃ g ∈ failures ++ [f], g.report = report) ↔
      report ∈ reports news ∨ f.report = report := by
    intro report
    rw [hall]
    simp [or_and_right, exists_or]
  have hknown : w.isReported f.entity f.error = true ↔ f.report ∈ reports news := by
    rw [World.isReported, List.contains_iff_mem, hreported hr]
    exact Iff.rfl
  cases hc : w.isReported f.entity f.error with
  | true =>
    have hin := hknown.1 hc
    rw [World.reportFailure, if_pos hc]
    refine ⟨news, hevents, hnodup, fun report => ?_, hreported⟩
    rw [hadded]
    refine ⟨.inl, ?_⟩
    rintro (hreport | rfl)
    · exact hreport
    · exact hin
  | false =>
    have hnew : f.report ∉ reports news := by
      rw [← hknown, hc]
      exact Bool.false_ne_true
    have hnews : reports (news ++ [.runtimeError (some f.entity) f.error.message]) =
        reports news ++ [f.report] :=
      reports_append _ _
    rw [World.reportFailure, if_neg (by simp [hc])]
    refine ⟨news ++ [.runtimeError (some f.entity) f.error.message], ?_, ?_, fun report => ?_,
      fun _ id message => ?_⟩
    · simp only [hevents, List.append_assoc]
    · rw [hnews]
      refine List.nodup_append.2 ⟨hnodup, by simp, ?_⟩
      intro a ha b hb hab
      cases List.mem_singleton.1 hb
      exact hnew (hab ▸ ha)
    · rw [hadded, hnews, List.mem_append, List.mem_singleton, eq_comm]
    · rw [hnews, List.mem_append, List.mem_singleton, List.mem_cons, hreported hr, or_comm]
      simp [Failure.report]

theorem step {failure : Option Failure} (h : Tallied before failures w)
    (hr : w.Reporting failure w') : Tallied before (failures ++ failure.toList) w' := by
  cases hr with
  | quiet hq =>
    rw [Option.toList_none, List.append_nil]
    exact h.quiet hq
  | failed f hq hrunning => exact (h.quiet hq).report hrunning f

end Tallied

theorem Sound.tallied_after {before : List HostEvent} {failures : List Failure} {moves : List Move}
    (h : m.Sound) (ht : Tallied before failures m.world)
    (hmoves : ∀ move ∈ moves, move.isStart = false) :
    Tallied before (failures ++ m.failuresAlong moves) (m.after moves).world := by
  induction moves generalizing m failures with
  | nil =>
    rw [failuresAlong, List.append_nil]
    exact ht
  | cons move rest ih =>
    have hstep := ht.step (h.reporting_move (hmoves move List.mem_cons_self))
    rw [failuresAlong, ← List.append_assoc]
    exact ih (h.move move) hstep fun other ho => hmoves other (List.mem_cons_of_mem move ho)

theorem tallied_start (m : Machine) : Tallied m.world.events [] m.start.world := by
  rw [world_start]
  exact ⟨[], (List.append_nil m.world.events).symm, .nil, by simp [reports],
    fun _ _ _ => by simp [reports, registerAll, World.beginRun]⟩

theorem mem_failuresAlong {moves : List Move} {f : Failure} (h : f ∈ m.failuresAlong moves) :
    ∃ before move, (m.after before).failure? move = some f := by
  induction moves generalizing m with
  | nil => cases h
  | cons move rest ih =>
    rcases List.mem_append.1 h with h | h
    · exact ⟨[], move, Option.mem_toList.1 h⟩
    · obtain ⟨before, later, hlater⟩ := ih h
      exact ⟨move :: before, later, hlater⟩

-- The tasks that there were when the run began have been stopped then.
theorem Sound.failure_is_of_run (h : m.Sound) {moves : List Move} {f : Failure}
    (hf : f ∈ m.start.failuresAlong moves) : m.nextTask ≤ f.task := by
  obtain ⟨before, move, hfailure⟩ := mem_failuresAlong hf
  have hsound : (m.start.after before).Sound :=
    after_invariant (fun _ move _ hn => hn.move move) h.start
  obtain ⟨_, _, t, ht, hid, _, hlive, _⟩ := hsound.failed_move hfailure
  have hlater : m.start.tree.Later (m.start.after before).tree := later_after m.start before
  have hbegin : m.tree.Later m.start.tree := (Moved.start (m := m)).later
  rcases (hbegin.trans hlater).leaves t.leaf (List.mem_map_of_mem ht) with hold | hnew
  · have hstopped : m.start.tree.isStopped t.token = true := by
      rw [start_eq, tree_spawnAll, tree_opened]
      refine (ScopeTree.Later.spawns m.tree.start _).stopped t.token ?_
      exact h.tree.isStopped_start hold
    have hlive' : (m.start.after before).tree.isStopped t.token = false := hlive
    rw [hlater.stopped t.token hstopped] at hlive'
    cases hlive'
  · rw [← hid]
    exact hnew

/-! ### Wordings -/

theorem mem_reports_reporting {w w' : World} {failure : Option Failure}
    {report : Option EntityId × String} (h : w.Reporting failure w')
    (hreport : report ∈ reports w'.events) :
    report ∈ reports w.events ∨ ∃ f, failure = some f ∧ report = f.report := by
  have hquiet : ∀ {w' : World}, w.Quiet w' → reports w'.events = reports w.events := by
    intro w' hq
    obtain ⟨news, hevents, hnone⟩ := hq.events
    rw [hevents, reports_append, hnone, List.append_nil]
  cases h with
  | quiet hq =>
    rw [hquiet hq] at hreport
    exact .inl hreport
  | failed f hq hr =>
    rw [World.reportFailure] at hreport
    split at hreport
    · rw [hquiet hq] at hreport
      exact .inl hreport
    · rw [reports_append, hquiet hq] at hreport
      refine (List.mem_append.1 hreport).imp_right fun hnew => ⟨f, rfl, ?_⟩
      exact List.mem_singleton.1 hnew

theorem Reachable.reports_known (h : m.Reachable) :
    ∀ report ∈ reports m.world.events, ∀ id, report.2 ≠ (ScriptError.unknownEntity id).message := by
  apply h.sound_invariant (P := fun n => ∀ report ∈ reports n.world.events, ∀ id,
    report.2 ≠ (ScriptError.unknownEntity id).message)
  · exact fun options => nofun
  · intro n move hsound hknown report hreport id
    cases hs : move.isStart with
    | true =>
      have hstart : move = .command .start := by
        unfold Move.isStart at hs
        split at hs
        · rfl
        · cases hs
      have hevents : (n.move move).world.events = n.world.events := by
        rw [hstart, show (n.move (.command .start)).world = _ from world_start n]
        rfl
      rw [hevents] at hreport
      exact hknown report hreport id
    | false =>
      rcases mem_reports_reporting (hsound.reporting_move hs) hreport with hold | ⟨f, hf, rfl⟩
      · exact hknown report hold id
      · exact (hsound.failed_move hf).1.message_ne id

/-! ### Failures -/

/-- A failure ends its task alone. From the start of a run on, the host hears of every failure of
the run, of each entity and wording once, and only of tasks that have started in it. It never hears
that an entity does not exist. -/
theorem failures_end_alone (hm : m.Reachable) :
    (∀ move f, m.failure? move = some f →
      ∃ ks k, m.moveTrace move = ks ++ [k] ∧ EndsAlone f k (m.move move)) ∧
    (∀ moves, (∀ move ∈ moves, move.isStart = false) →
      let run := m.move (.command .start)
      (∃ news, (run.after moves).world.events = m.world.events ++ news ∧ (reports news).Nodup ∧
        ∀ report, report ∈ reports news ↔ ∃ f ∈ run.failuresAlong moves, f.report = report) ∧
      ∀ f ∈ run.failuresAlong moves, m.nextTask ≤ f.task) ∧
    ∀ report ∈ reports m.world.events, ∀ id,
      report.2 ≠ (ScriptError.unknownEntity id).message := by
  have h := hm.sound
  refine ⟨fun move f => h.ends_alone, fun moves hmoves => ⟨?_, fun f => h.failure_is_of_run⟩,
    hm.reports_known⟩
  obtain ⟨news, hevents, hnodup, hall, _⟩ := (h.start.tallied_after (tallied_start m) hmoves).heard
  exact ⟨news, hevents, hnodup, hall⟩

namespace Sample

def clumsy : EntityProgram :=
  { EntityProgram.empty with
    onStart := some ⟨"a", [.act .vanish, .act (.switchCostume (.literal (.text "hat")))]⟩
    onClick := [⟨"b", [.act (.switchCostume (.literal (.text "hat"))), .act .vanish]⟩] }

-- The first task is left over from an earlier run; the other two fail in the same way.
def stumbling : List Move :=
  [.command (.loadProgram [cat] ⟨[clumsy]⟩), .command .start, .command .start,
    .command (.clickEntity 0), .poll 1, .poll 2, .poll 3]

end Sample

theorem failures_end_alone_sample :
    let m := (Machine.new .standard).after (Sample.stumbling.take 2)
    let run := m.move (.command .start)
    let moves := Sample.stumbling.drop 3
    m.nextTask = 2 ∧ (run.failuresAlong moves).map (·.task) = [2, 3] ∧
      reports (run.after moves).world.events = [(some 0, "unknown costume 'hat'")] ∧
      (∃ news, (run.after moves).world.events = m.world.events ++ news ∧ (reports news).Nodup ∧
        ∀ report, report ∈ reports news ↔ ∃ f ∈ run.failuresAlong moves, f.report = report) ∧
      ∀ f ∈ run.failuresAlong moves, m.nextTask ≤ f.task := by
  have h := failures_end_alone (m := (Machine.new .standard).after (Sample.stumbling.take 2))
    ⟨.standard, Sample.stumbling.take 2, rfl⟩
  exact ⟨rfl, by decide +kernel, by decide +kernel, h.2.1 (Sample.stumbling.drop 3) (by decide)⟩

end Machine

end SpriteStage
