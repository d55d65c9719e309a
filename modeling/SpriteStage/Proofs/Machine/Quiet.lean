import SpriteStage.Proofs.Machine.Turns

/-!
Statements that never make their task wait.

A quiet statement finishes, fails or stops its task, but does not pause (`exec_quiet`). So a turn that
comes to a run of quiet statements in one list of its script goes on to the end of the run, unless
the task ends before (`Rests.undivided`). Other tasks and commands act between turns only.
-/

namespace SpriteStage

/-! ### What follows an action -/

/-- Does the script pause before it goes on? -/
def Sequel.suspends : Sequel → Bool
  | .sleep _ | .glide .. | .unsay .. | .askMouse => true
  | .broadcast _ span => span.isSome
  | .proceed | .stop _ => false

/-- What the table of suspending actions says is what the actions do. -/
theorem Action.LeadsTo.suspends {a : Action} {sequel : Sequel} (h : a.LeadsTo sequel) :
    sequel.suspends = a.suspends := by
  cases h with
  | proceed h => exact h.symm
  | _ => rfl

namespace Machine

/-! ### Quiet statements -/

/-- The ways in which a quiet statement can go: it finishes, fails, or stops its own task. -/
inductive Quiet (s : Stmt) : Step → Prop where
  | done (n : Machine) : Quiet s (.done n)
  | failed (n : Machine) (e : ScriptError) : Quiet s (.ended n (.failed e))
  | stopped (n : Machine) (ending : Ending ScriptError) (scope : StopScope)
      (h : s = .act (.stop scope)) : Quiet s (.ended n ending)

variable {self : Self} {m n : Machine} {s : Stmt}

theorem Quiet.done_or_ended {step : Step} (h : Quiet s step) :
    (∃ n, step = .done n) ∨ ∃ n ending, step = .ended n ending := by
  cases h with
  | done n => exact .inl ⟨n, rfl⟩
  | failed n e => exact .inr ⟨n, .failed e, rfl⟩
  | stopped n ending => exact .inr ⟨n, ending, rfl⟩

theorem exec_quiet (self : Self) (m : Machine) (h : s.suspends = false) :
    Quiet s (exec self m s) := by
  cases s with
  | waitUntil | repeatTimes | repeatUntil | forever | branch => cases h
  | act a =>
    rw [exec, act_eq, eval]
    split
    next result random hr =>
      obtain ⟨world, sequel⟩ := result
      have hleads := (Action.outcome hr).leadsTo
      have hquiet : sequel.suspends = false := hleads.suspends.trans h
      cases sequel with
      | proceed => exact .done _
      | broadcast message span =>
        cases span with
        | none => exact .done _
        | some span => cases hquiet
      | stop scope =>
        cases hleads
        cases scope with
        | otherScriptsInSprite => exact .done _
        | all | thisScript | thisSprite => exact .stopped _ _ _ rfl
      | sleep | glide | unsay | askMouse => cases hquiet
    next e random hr => exact .failed _ e

/-- Only a look at the mouse that waits no time at all finishes although it is not quiet. -/
theorem exec_suspending {a : Action} (h : a.suspends = true)
    (hd : exec self m (.act a) = .done n) : a = .syncMouse ∧ m.options.mouseTimeout = .zero := by
  rw [exec, act_eq, eval] at hd
  split at hd
  next result random hr =>
    obtain ⟨world, sequel⟩ := result
    have hleads := (Action.outcome hr).leadsTo
    have hsuspends : sequel.suspends = true := hleads.suspends.trans h
    cases sequel with
    | proceed | stop => cases hsuspends
    | broadcast message span =>
      cases span with
      | none => cases hsuspends
      | some span => cases hd
    | sleep | glide | unsay => cases hd
    | askMouse =>
      cases hleads
      refine ⟨rfl, ?_⟩
      simp only [follow, askMouse] at hd
      split at hd
      next hzero => exact hzero
      · cases hd
  next e random hr => cases hd

/-! ### Runs of quiet statements -/

/-- The statements one after the other, each in the machine that the one before it has left, up to
the end or to one that ends the task. -/
inductive Straight (self : Self) : Machine → List Stmt → Step → Prop where
  | nil (m : Machine) : Straight self m [] (.done m)
  | cons {m n : Machine} {s : Stmt} {rest : List Stmt} {step : Step}
      (h : exec self m s = .done n) (hrest : Straight self n rest step) :
      Straight self m (s :: rest) step
  | ended {m n : Machine} {s : Stmt} {ending : Ending ScriptError}
      (h : exec self m s = .ended n ending) (rest : List Stmt) :
      Straight self m (s :: rest) (.ended n ending)

variable {run : List Stmt} {step : Step}

theorem straight_execBlock (self : Self) (m : Machine) (h : ∀ s ∈ run, s.suspends = false) :
    Straight self m run (execBlock self m run) := by
  induction run generalizing m with
  | nil =>
    rw [execBlock]
    exact .nil m
  | cons s rest ih =>
    have hrest : ∀ t ∈ rest, t.suspends = false := fun t ht => h t (List.mem_cons_of_mem s ht)
    rw [execBlock]
    rcases (exec_quiet self m (h s List.mem_cons_self)).done_or_ended with ⟨n, hn⟩ | ⟨n, ending, hn⟩
    · rw [hn]
      exact .cons hn (ih n hrest)
    · rw [hn]
      exact .ended hn rest

/-- What stands behind a run goes on from the machine that the run has left. -/
theorem Straight.execBlock_append (h : Straight self m run step) (rest : List Stmt) :
    execBlock self m (run ++ rest) = step.andThen (fun n => execBlock self n rest) [] := by
  induction h with
  | nil m => rfl
  | cons h _ ih =>
    rw [List.cons_append, execBlock, h]
    exact ih
  | ended h =>
    rw [List.cons_append, execBlock, h]
    rfl

/-! ### Logs -/

/-- If the log comes to the run of statements that begins with the number `n`, then it goes on to
the end of the run, unless the task ends before: then nothing follows. -/
inductive Undivided (n : Nat) (run : List Stmt) (log : List Place) (ended : Prop) : Prop where
  | passedBy (h : ∀ p ∈ log, p.number ≠ n)
  | whole (before after : List Place) (h : log = before ++ placesOf n run ++ after)
  | cutShort (before visited : List Place) (h : log = before ++ visited)
      (hvisited : visited <+: placesOf n run) (hended : ended)

/-- Has the step ended the task? -/
def Ended (step : Step) : Prop :=
  ∃ n ending, step = .ended n ending

section Undivided

variable {k : Nat} {run : List Stmt} {log : List Place} {ended : Prop} {step : Step}

/-- Before a run come other places. -/
theorem Undivided.append (h : Undivided k run log ended) {front : List Place}
    (hfront : ∀ p ∈ front, p.number ≠ k) : Undivided k run (front ++ log) ended := by
  cases h with
  | passedBy hlog =>
    exact .passedBy fun p hp => (List.mem_append.1 hp).elim (hfront p) (hlog p)
  | whole before after hlog => exact .whole (front ++ before) after (by simp [hlog])
  | cutShort before visited hlog hvisited hended =>
    exact .cutShort (front ++ before) visited (by simp [hlog]) hvisited hended

/-- After a run come other places, if the task goes on. -/
theorem Undivided.andThen (h : Undivided k run log (Ended step)) {next : Machine → Step}
    {later : List Frame} {logs : Machine → List Place}
    (hlogs : ∀ n, step = .done n → ∀ p ∈ logs n, p.number ≠ k) :
    Undivided k run (log ++ step.thenTrace logs) (Ended (step.andThen next later)) := by
  cases h with
  | passedBy hlog =>
    refine .passedBy fun p hp => (List.mem_append.1 hp).elim (hlog p) fun hp => ?_
    cases step with
    | done n => exact hlogs n rfl p hp
    | paused | ended => cases hp
  | whole before after hlog => exact .whole before (after ++ step.thenTrace logs) (by simp [hlog])
  | cutShort before visited hlog hvisited hended =>
    obtain ⟨n, ending, rfl⟩ := hended
    exact .cutShort before visited (by simpa [Step.thenTrace] using hlog) hvisited ⟨n, ending, rfl⟩

/-- A part of the script without the run, and then the part with it. -/
theorem Undivided.after (hlog : ∀ p ∈ log, p.number ≠ k) {next : Machine → Step}
    {later : List Frame} {logs : Machine → List Place}
    (h : ∀ n, Undivided k run (logs n) (Ended (next n))) :
    Undivided k run (log ++ step.thenTrace logs) (Ended (step.andThen next later)) := by
  cases step with
  | done n => exact (h n).append hlog
  | paused | ended =>
    rw [Step.thenTrace, List.append_nil]
    exact .passedBy hlog

theorem undivided_eval {α : Type} {m : Machine} {x : Eval α} {next : α → Machine → Step}
    {logs : α → Machine → List Place} (h : ∀ a n, Undivided k run (logs a n) (Ended (next a n))) :
    Undivided k run (m.evalTrace x logs) (Ended (m.eval x next)) := by
  unfold evalTrace eval
  cases x.run.run m.random with
  | mk result random =>
    cases result with
    | ok a => exact h a _
    | error e => exact .passedBy nofun

theorem undivided_pass {self : Self} {m : Machine} {head : Head} {body : List Stmt} {i : Nat}
    {next : Machine → Step} {logs : Machine → List Place} (hi : i ≠ k)
    (h : ∀ n, Undivided k run (logs n) (Ended (next n))) :
    Undivided k run (m.passTrace self head fun n => .pass i :: logs n)
      (Ended (m.pass self head body next)) := by
  refine undivided_eval fun head n => ?_
  cases head with
  | none => exact .passedBy (by simp)
  | some head =>
    have hfront : ∀ p ∈ [Place.pass i], p.number ≠ k := by simpa [Place.number] using hi
    have hnext : Undivided k run (logs n ++ (next n).thenTrace fun _ => [])
        (Ended ((next n).andThen (.paused · .yield [.again head body]) [.loop head body])) :=
      (h n).andThen fun _ _ => by simp
    rw [Step.thenTrace_nil, List.append_nil] at hnext
    exact hnext.append hfront

theorem number_ne_of_sublist {i : Nat} {s : Stmt} (h : log.Sublist (s.places k))
    (hi : i < k ∨ k + s.size ≤ i) : ∀ p ∈ log, p.number ≠ i := by
  intro p hp
  have hbound := number_bounds.1 s k p (h.subset hp)
  omega

theorem number_ne_of_sublistOf {i : Nat} {body : List Stmt} (h : log.Sublist (placesOf k body))
    (hi : i < k ∨ k + sizeOfBody body ≤ i) : ∀ p ∈ log, p.number ≠ i := by
  intro p hp
  have hbound := number_bounds.2 body k p (h.subset hp)
  omega

end Undivided

/-! ### Visits of a run -/

section Run

variable {i : Nat} {run back : List Stmt} {s : Stmt}

theorem act_of_quiet (h : s.suspends = false) : ∃ a, s = .act a := by
  cases s with
  | act a => exact ⟨a, rfl⟩
  | waitUntil | repeatTimes | repeatUntil | forever | branch => cases h

theorem visits_of_quiet (h : s.suspends = false) (self : Self) (m : Machine) (k : Nat) :
    visits self m k s = s.places k := by
  obtain ⟨a, rfl⟩ := act_of_quiet h
  rw [visits, Stmt.places]

/-- From the first statement of the run on, the task comes to its end or ends in it. -/
theorem visitsOf_run (hq : ∀ s ∈ run, s.suspends = false) (back : List Stmt) (self : Self)
    (m : Machine) (k : Nat) :
    (∃ after, visitsOf self m k (run ++ back) = placesOf k run ++ after) ∨
      visitsOf self m k (run ++ back) <+: placesOf k run ∧
        Ended (execBlock self m (run ++ back)) := by
  induction run generalizing m k with
  | nil => exact .inl ⟨_, by rw [placesOf]; rfl⟩
  | cons s rest ih =>
    have hrest : ∀ t ∈ rest, t.suspends = false := fun t ht => hq t (List.mem_cons_of_mem s ht)
    have hs : s.suspends = false := hq s List.mem_cons_self
    rw [List.cons_append, visitsOf, visits_of_quiet hs, placesOf, execBlock]
    rcases (exec_quiet self m hs).done_or_ended with ⟨n, hn⟩ | ⟨n, ending, hn⟩
    · rw [hn]
      rcases ih hrest n (k + s.size) with ⟨after, hafter⟩ | ⟨hcut, hended⟩
      · exact .inl ⟨after, by rw [Step.thenTrace, hafter, List.append_assoc]⟩
      · exact .inr ⟨(List.prefix_append_right_inj _).2 hcut, hended⟩
    · rw [hn, Step.thenTrace, List.append_nil]
      exact .inr ⟨List.prefix_append _ _, n, ending, rfl⟩

theorem undivided_run (hq : ∀ s ∈ run, s.suspends = false) (self : Self) (m : Machine) (k : Nat) :
    Undivided k run (visitsOf self m k (run ++ back)) (Ended (execBlock self m (run ++ back))) := by
  rcases visitsOf_run hq back self m k with ⟨after, hafter⟩ | ⟨hcut, hended⟩
  · exact .whole [] after hafter
  · exact .cutShort [] _ rfl hcut hended

theorem undivided_visits (hq : ∀ s ∈ run, s.suspends = false) :
    (∀ s self m k, (i, run ++ back) ∈ s.points k →
      Undivided i run (visits self m k s) (Ended (exec self m s))) ∧
    ∀ body self m k, (i, run ++ back) ∈ pointsOf k body →
      Undivided i run (visitsOf self m k body) (Ended (execBlock self m body)) := by
  refine Stmt.induction (fun a self m k hi => ?_) (fun condition syncMouse self m k hi => ?_)
    (fun s body hs hbody self m k hi => ?_)
    (fun condition thenBody elseBody ha hb self m k hi => ?_)
    (fun self m k hi => ?_) (fun s rest hs hrest self m k hi => ?_)
  · rw [Stmt.points] at hi
    cases hi
  · rw [Stmt.points] at hi
    cases hi
  · have hbound := (point_bounds.1 s k _ hi).1
    have hstmt : ∀ p ∈ [Place.stmt k s], p.number ≠ i := by
      simpa [Place.number] using Nat.ne_of_lt hbound
    rw [Stmt.points_of_loopBody hs] at hi
    have hpass : ∀ n, Undivided i run (visitsOf self n (k + 1) body)
        (Ended (execBlock self n body)) := fun n => hbody self n (k + 1) hi
    cases s with
    | act | waitUntil | branch => cases hs
    | repeatTimes times body =>
      cases hs
      rw [visits, exec]
      refine (undivided_eval fun times n => ?_).append hstmt
      exact undivided_pass (Nat.ne_of_lt hbound) hpass
    | repeatUntil condition body =>
      cases hs
      rw [visits, exec]
      exact (undivided_pass (Nat.ne_of_lt hbound) hpass).append hstmt
    | forever body =>
      cases hs
      rw [visits, exec]
      exact (undivided_pass (Nat.ne_of_lt hbound) hpass).append hstmt
  · have hbound := (point_bounds.1 _ k _ hi).1
    have hstmt : ∀ p ∈ [Place.stmt k (.branch condition thenBody elseBody)], p.number ≠ i := by
      simpa [Place.number] using Nat.ne_of_lt hbound
    rw [visits, exec]
    refine (undivided_eval fun v n => ?_).append hstmt
    rw [Stmt.points, List.mem_append] at hi
    rcases hi with hi | hi
    · have hin := (point_bounds.2 thenBody _ _ hi).2
      split
      · exact ha self n _ hi
      · exact .passedBy (number_ne_of_sublistOf (visits_sublist.2 elseBody self n _) (.inl hin))
    · have hin := (point_bounds.2 elseBody _ _ hi).1
      split
      · exact .passedBy (number_ne_of_sublistOf (visits_sublist.2 thenBody self n _) (.inr hin))
      · exact hb self n _ hi
  · rw [pointsOf] at hi
    cases hi
  · rw [pointsOf, List.mem_cons, List.mem_append] at hi
    rcases hi with hi | hi | hi
    · obtain ⟨rfl, hbody⟩ := Prod.mk.inj hi
      rw [← hbody]
      exact undivided_run hq self m i
    · have hin := (point_bounds.1 s k _ hi).2
      rw [visitsOf, execBlock]
      refine (hs self m k hi).andThen fun n _ => ?_
      exact number_ne_of_sublistOf (visits_sublist.2 rest self n _) (.inl hin)
    · have hin := (point_bounds.2 rest _ _ hi).1
      rw [visitsOf, execBlock]
      exact Undivided.after (number_ne_of_sublist (visits_sublist.1 s self m k) (.inr hin))
        fun n => hrest self n _ hi

/-! ### Going on -/

/-- Either the rest of a pass was empty, or no other pass follows it at once. -/
theorem undivided_loop (hq : ∀ s ∈ run, s.suspends = false) {body : List Stmt} {marks : List Mark}
    {k : Nat} (hi : (i, run ++ back) ∈ pointsOf (k + 1) body) (self : Self) (m : Machine)
    (head : Head) (hrest : WithinBody (k + 1) body marks)
    (h : Undivided i run (marksVisits self m marks) (Ended (resume self m (marks.map (·.frame))))) :
    Undivided i run (marksVisits self m (marks ++ [⟨k, .loop head body⟩]))
      (Ended (resume self m ((marks ++ [(⟨k, .loop head body⟩ : Mark)]).map (·.frame)))) := by
  rw [marksVisits_append, List.map_append, resume_append]
  by_cases hdone : endsInYield body = true ∧ ∃ n, resume self m (marks.map (·.frame)) = .done n
  · obtain ⟨hy, n, hn⟩ := hdone
    have hbound := (point_bounds.2 body _ _ hi).1
    rw [hrest.silent hy hn, hn]
    show Undivided i run (marksVisits self n [⟨k, .loop head body⟩])
      (Ended (resume self n [.loop head body]))
    rw [marksVisits_single, resume_single, markVisits, runFrame]
    dsimp only
    rw [if_pos hy, if_pos hy]
    exact undivided_pass (by omega) fun l => (undivided_visits hq).2 body self l (k + 1) hi
  · refine h.andThen fun n hn p hp => ?_
    rw [marksVisits_single, markVisits] at hp
    dsimp only at hp
    split at hp
    next hy => exact absurd ⟨hy, n, hn⟩ hdone
    · cases hp

mutual

theorem Within.undivided (hq : ∀ s ∈ run, s.suspends = false) (hne : run ≠ []) (self : Self)
    (m : Machine) :
    ∀ {k : Nat} {s : Stmt} {marks : List Mark}, Within k s marks → (i, run ++ back) ∈ s.points k →
      Undivided i run (marksVisits self m marks) (Ended (resume self m (marks.map (·.frame))))
  | _, _, _, .act .., hi | _, _, _, .glide .., hi | _, _, _, .unsay .., hi
  | _, _, _, .check .., hi | _, _, _, .look .., hi => by
    rw [Stmt.points] at hi
    cases hi
  | k, _, _, .again _ h head, hi => by
    have hbound := (point_bounds.1 _ k _ hi).1
    rw [Stmt.points_of_loopBody h] at hi
    rw [marksVisits_single, List.map_singleton, resume_single]
    exact undivided_pass (Nat.ne_of_lt hbound) fun n => (undivided_visits hq).2 _ self n (k + 1) hi
  | k, _, _, .pass h head hrest, hi => by
    rw [Stmt.points_of_loopBody h] at hi
    exact undivided_loop hq hi self m head hrest (hrest.undivided hq hne self m hi)
  | k, _, _, .thenBody condition elseBody hrest, hi => by
    rw [Stmt.points, List.mem_append] at hi
    rcases hi with hi | hi
    · exact hrest.undivided hq hne self m hi
    · have hin := (point_bounds.2 elseBody _ _ hi).1
      exact .passedBy (number_ne_of_sublistOf (hrest.visits_sublist self m) (.inr hin))
  | k, _, _, .elseBody condition hrest, hi => by
    rw [Stmt.points, List.mem_append] at hi
    rcases hi with hi | hi
    · have hin := (point_bounds.2 _ _ _ hi).2
      exact .passedBy (number_ne_of_sublistOf (hrest.visits_sublist self m) (.inl hin))
    · exact hrest.undivided hq hne self m hi
  | _, _, _, .spent h, hi => by
    rw [marksVisits_append, List.map_append, resume_append]
    refine (h.undivided hq hne self m hi).andThen fun n _ p hp => ?_
    rw [marksVisits_single] at hp
    cases hp

theorem WithinBody.undivided (hq : ∀ s ∈ run, s.suspends = false) (hne : run ≠ []) (self : Self)
    (m : Machine) :
    ∀ {k : Nat} {body : List Stmt} {marks : List Mark}, WithinBody k body marks →
      (i, run ++ back) ∈ pointsOf k body →
      Undivided i run (marksVisits self m marks) (Ended (resume self m (marks.map (·.frame))))
  | _, _, _, .start k body, hi => by
    rw [marksVisits_single, List.map_singleton, resume_single]
    exact (undivided_visits hq).2 body self m k hi
  | k, _, _, @WithinBody.here _ s marks rest h, hi => by
    rw [pointsOf, List.mem_cons, List.mem_append] at hi
    have hvisits := fun n : Machine => visits_sublist.2 rest self n (k + s.size)
    rw [marksVisits_append, List.map_append, resume_append]
    rcases hi with hi | hi | hi
    · -- The task has paused in the first statement of the run. Such an action visits nothing more.
      obtain ⟨rfl, hbody⟩ := Prod.mk.inj hi
      obtain ⟨q, more, rfl⟩ := List.exists_cons_of_ne_nil hne
      obtain ⟨rfl, -⟩ := List.cons.inj hbody
      have hpos := q.size_pos
      obtain ⟨a, rfl⟩ := act_of_quiet (hq q List.mem_cons_self)
      have hsilent : ∀ p ∈ marksVisits self m marks, p.number ≠ i := by
        simp [h.silent_act self m a rfl]
      refine Undivided.andThen (.passedBy hsilent) fun n _ => ?_
      rw [marksVisits_single]
      exact number_ne_of_sublistOf (hvisits n) (.inl (by omega))
    · have hin := (point_bounds.1 s k _ hi).2
      refine (h.undivided hq hne self m hi).andThen fun n _ => ?_
      rw [marksVisits_single]
      exact number_ne_of_sublistOf (hvisits n) (.inl hin)
    · have hin := (point_bounds.2 rest _ _ hi).1
      refine Undivided.after (number_ne_of_sublist (h.visits_sublist self m) (.inr hin)) fun n => ?_
      rw [marksVisits_single, List.map_singleton, resume_single]
      exact (undivided_visits hq).2 rest self n _ hi
  | k, _, _, .there s h, hi => by
    have hpos := s.size_pos
    have hvisits := h.visits_sublist self m
    rw [pointsOf, List.mem_cons, List.mem_append] at hi
    rcases hi with hi | hi | hi
    · obtain ⟨rfl, -⟩ := Prod.mk.inj hi
      exact .passedBy (number_ne_of_sublistOf hvisits (.inl (by omega)))
    · have hin := (point_bounds.1 s k _ hi).2
      exact .passedBy (number_ne_of_sublistOf hvisits (.inl hin))
    · exact h.undivided hq hne self m hi

end

/-! ### Turns -/

theorem Undivided.imp {log : List Place} {ended gone : Prop} (h : Undivided i run log ended)
    (himp : ended → gone) : Undivided i run log gone := by
  cases h with
  | passedBy hlog => exact .passedBy hlog
  | whole before after hlog => exact .whole before after hlog
  | cutShort before visited hlog hvisited hended =>
    exact .cutShort before visited hlog hvisited (himp hended)

theorem gone_of_ended {m n : Machine} {t : Task} {ending : Ending ScriptError}
    (ht : m.task? t.id = some t) (hs : m.isStopped t.token = false)
    (h : runFrames ⟨t.id, t.entity⟩ (m.setTask t.id ({ · with state := .running })) t.frames =
      .ended n ending) : ∀ u ∈ (m.poll t.id).tasks, u.id ≠ t.id := by
  have hpoll : m.poll t.id = n.finish t ending := by
    simp only [poll, ht, hs, h, Bool.false_eq_true, if_false]
  rw [hpoll]
  exact not_mem_finish n t ending

/-- A task that comes to a quiet run in its turn also comes to its end, or is gone. -/
theorem Rests.undivided {m : Machine} {t : Task} {body : List Stmt} {marks : List Mark}
    (h : Rests t body marks) (ht : m.task? t.id = some t) (hq : ∀ s ∈ run, s.suspends = false)
    (hi : (i, run ++ back) ∈ pointsOf 0 body) :
    Undivided i run (m.pollVisits t marks) (∀ u ∈ (m.poll t.id).tasks, u.id ≠ t.id) := by
  by_cases hne : run = []
  · refine .whole [] (m.pollVisits t marks) ?_
    rw [hne, placesOf]
    rfl
  · unfold pollVisits
    cases hs : m.isStopped t.token with
    | true =>
      rw [if_pos rfl]
      exact .passedBy nofun
    | false =>
      rw [if_neg Bool.false_ne_true]
      refine (h.within.undivided hq hne _ _ hi).imp ?_
      rintro ⟨n, ending, hended⟩
      have hrun : runFrames ⟨t.id, t.entity⟩ (m.setTask t.id ({ · with state := .running }))
          t.frames = .ended n ending := by
        rw [runFrames_eq_resume, ← h.frames, hended]
        rfl
      exact gone_of_ended ht hs hrun

end Run

/-! ### The theorem -/

/-- A statement that is not said to suspend finishes, fails or stops its task; and of the actions
that are said to suspend none finishes at once, but for a look at the mouse that waits no time. So a
run of quiet statements goes straight through, and what is behind it goes on from the machine that
it has left. Wherever such a run stands in a script, and wherever the task goes on, one turn that
comes to the run comes to its end, unless the task is gone by then; the end of a run is a run too. A
task goes on at such places only. -/
theorem quiet_runs_are_atomic :
    (∀ (s : Stmt) (self : Self) (m : Machine), s.suspends = false → Quiet s (exec self m s)) ∧
    (∀ (a : Action) (self : Self) (m n : Machine), a.suspends = true →
      exec self m (.act a) = .done n → a = .syncMouse ∧ m.options.mouseTimeout = .zero) ∧
    ∀ run : List Stmt, (∀ s ∈ run, s.suspends = false) →
      (∀ (self : Self) (m : Machine) (rest : List Stmt),
        Straight self m run (execBlock self m run) ∧
        execBlock self m (run ++ rest) =
          (execBlock self m run).andThen (fun n => execBlock self n rest) []) ∧
      ∀ (body back : List Stmt) (i : Nat), (i, run ++ back) ∈ pointsOf 0 body →
        (∀ (m : Machine) (t : Task) (marks : List Mark), m.task? t.id = some t →
          Rests t body marks → m.Passes t body (m.pollVisits t marks) ∧
            Undivided i run (m.pollVisits t marks) (∀ u ∈ (m.poll t.id).tasks, u.id ≠ t.id)) ∧
        ∀ m : Machine, m.Reachable → ∀ t ∈ m.tasks, t.frames = [.block body] →
          ∀ moves, ∀ u ∈ (m.after moves).tasks, u.id = t.id → ∃ marks, Rests u body marks := by
  refine ⟨fun s self m h => exec_quiet self m h, fun a self m n => exec_suspending, ?_⟩
  intro run hq
  refine ⟨fun self m rest => ?_, fun body back i hi => ⟨fun m t marks ht h => ?_, ?_⟩⟩
  · have hstraight := straight_execBlock self m hq
    exact ⟨hstraight, hstraight.execBlock_append rest⟩
  · exact ⟨h.passes ht, h.undivided ht hq hi⟩
  · exact fun m hm t ht hfresh moves => hm.rests_after ht hfresh moves

namespace Sample

def flash : List Stmt :=
  [.act .vanish, .act .appear]

def shore : Machine :=
  (Machine.new { Options.standard with mouseTimeout := .zero }).after
    [.command (.loadProgram [cat]
      ⟨[{ EntityProgram.empty with onStart := some ⟨"a", [.forever flash]⟩ }]⟩), .command .start]

end Sample

-- After its first turn the cat has come to the end of its loop, and flashes again in the next one.
theorem quiet_runs_are_atomic_flash :
    let self : Self := ⟨1, 0⟩
    let m := Sample.shore.after [.poll 1, .resume]
    let t := m.tasks.get ⟨0, by decide +kernel⟩
    let marks : List Mark := [⟨0, .again .always Sample.flash⟩, ⟨3, .block []⟩]
    Quiet (.act .vanish) (exec self m (.act .vanish)) ∧ m.options.mouseTimeout = .zero ∧
      Straight self m Sample.flash (execBlock self m Sample.flash) ∧
      Rests t [.forever Sample.flash] marks ∧
      m.pollVisits t marks = .pass 0 :: placesOf 1 Sample.flash ∧
      Undivided 1 Sample.flash (m.pollVisits t marks) (∀ u ∈ (m.poll t.id).tasks, u.id ≠ t.id) ∧
      ∀ moves, ∀ u ∈ (Sample.shore.after moves).tasks, u.id = 1 →
        ∃ marks, Rests u [.forever Sample.flash] marks := by
  intro self m t marks
  have hq : ∀ s ∈ Sample.flash, s.suspends = false := by
    simp [Sample.flash, Stmt.suspends, Action.suspends]
  have hi : (1, Sample.flash ++ []) ∈ pointsOf 0 [.forever Sample.flash] :=
    List.mem_cons_of_mem _ List.mem_cons_self
  have hrests : Rests t [.forever Sample.flash] marks := ⟨rfl, .here [] (.again 0 rfl .always)⟩
  have hall := quiet_runs_are_atomic
  have hrun := hall.2.2 Sample.flash hq
  have hplace := hrun.2 [.forever Sample.flash] [] 1 hi
  refine ⟨hall.1 (.act .vanish) self m rfl, ?_, (hrun.1 self m []).1, hrests, rfl, ?_, ?_⟩
  · obtain ⟨n, hn⟩ : ∃ n, exec self m (.act .syncMouse) = .done n := ⟨_, rfl⟩
    exact (hall.2.1 .syncMouse self m n rfl hn).2
  · exact (hplace.1 m t marks rfl hrests).2
  · exact hplace.2 Sample.shore ⟨_, _, rfl⟩ (Sample.shore.tasks.get ⟨0, by decide +kernel⟩)
      (List.get_mem _ _) rfl

end Machine

end SpriteStage
