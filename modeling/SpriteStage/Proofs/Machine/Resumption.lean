import SpriteStage.Proofs.Machine.Visits

/-!
Places where a task can go on.

When a task has paused somewhere in its script, its frames are what is left to do there (`Within`).
If it pauses again, that is so again (`WithinBody.leaves`). From any such place the visits of a turn
are a part of the places of the script, in the order of the text (`WithinBody.visits_sublist`), so no
place is visited twice. The reason is in the loops: when the rest of a pass comes to its end and
another pass may follow at once, the body ends in a yield, and there was no rest of the pass
(`WithinBody.silent`).
-/

namespace SpriteStage.Machine

/-! ### Places where a task can go on -/

mutual

/-- The marks are what is left to do of the statement with the number `k`. -/
inductive Within : Nat → Stmt → List Mark → Prop where
  | act (k : Nat) (a : Action) : Within k (.act a) []
  | glide (k : Nat) (a : Action) (way : Stage.Glide Float) (started : Nat) (secs : Float) :
      Within k (.act a) [⟨k, .glide way started secs⟩]
  | unsay (k : Nat) (a : Action) (kind : SpeechKind) (seq : Nat) :
      Within k (.act a) [⟨k, .unsay kind seq⟩]
  | check (k : Nat) (condition : Expr) (syncMouse : Bool) :
      Within k (.waitUntil condition syncMouse) [⟨k, .check condition syncMouse⟩]
  | look (k : Nat) (condition : Expr) (syncMouse : Bool) :
      Within k (.waitUntil condition syncMouse) [⟨k, .block [.waitUntil condition syncMouse]⟩]
  | again (k : Nat) {s : Stmt} {body : List Stmt} (h : s.loopBody? = some body) (head : Head) :
      Within k s [⟨k, .again head body⟩]
  | pass {k : Nat} {s : Stmt} {body : List Stmt} {marks : List Mark}
      (h : s.loopBody? = some body) (head : Head) (hrest : WithinBody (k + 1) body marks) :
      Within k s (marks ++ [⟨k, .loop head body⟩])
  | thenBody {k : Nat} {thenBody : List Stmt} {marks : List Mark} (condition : Expr)
      (elseBody : List Stmt) (hrest : WithinBody (k + 1) thenBody marks) :
      Within k (.branch condition thenBody elseBody) marks
  | elseBody {k : Nat} {thenBody elseBody : List Stmt} {marks : List Mark} (condition : Expr)
      (hrest : WithinBody (k + 1 + sizeOfBody thenBody) elseBody marks) :
      Within k (.branch condition thenBody elseBody) marks
  /-- A wait that is looked at again leaves the end of its frame behind. -/
  | spent {k : Nat} {s : Stmt} {marks : List Mark} (h : Within k s marks) :
      Within k s (marks ++ [⟨k + s.size, .block []⟩])

/-- The marks are what is left to do of a body whose first statement has the number `k`. -/
inductive WithinBody : Nat → List Stmt → List Mark → Prop where
  | start (k : Nat) (body : List Stmt) : WithinBody k body [⟨k, .block body⟩]
  | here {k : Nat} {s : Stmt} {marks : List Mark} (rest : List Stmt) (h : Within k s marks) :
      WithinBody k (s :: rest) (marks ++ [⟨k + s.size, .block rest⟩])
  | there {k : Nat} {rest : List Stmt} {marks : List Mark} (s : Stmt)
      (h : WithinBody (k + s.size) rest marks) : WithinBody k (s :: rest) marks

end

/-- If the step has paused, what it has left can be marked in a certain way. -/
def Leaves (s : Step) (P : List Mark → Prop) : Prop :=
  ∀ n pause frames, s = .paused n pause frames → ∃ marks, marks.map (·.frame) = frames ∧ P marks

section Leaves

variable {P R : List Mark → Prop}

theorem leaves_done (n : Machine) : Leaves (.done n) P :=
  nofun

theorem leaves_ended (n : Machine) (ending : Ending ScriptError) : Leaves (.ended n ending) P :=
  nofun

theorem leaves_paused (n : Machine) (pause : Pause) (marks : List Mark) (h : P marks) :
    Leaves (.paused n pause (marks.map (·.frame))) P := by
  rintro _ _ _ ⟨⟩
  exact ⟨marks, rfl, h⟩

theorem Leaves.imp {s : Step} (hs : Leaves s P) (h : ∀ marks, P marks → R marks) : Leaves s R := by
  intro n pause frames he
  obtain ⟨marks, hframes, hmarks⟩ := hs n pause frames he
  exact ⟨marks, hframes, h marks hmarks⟩

theorem Leaves.andThen {s : Step} (hs : Leaves s P) (later : List Mark) {k : Machine → Step}
    (hk : ∀ n, Leaves (k n) R) (hP : ∀ marks, P marks → R (marks ++ later)) :
    Leaves (s.andThen k (later.map (·.frame))) R := by
  cases s with
  | done n => exact hk n
  | ended n ending => exact leaves_ended n ending
  | paused n pause frames =>
    obtain ⟨marks, rfl, hmarks⟩ := hs n pause _ rfl
    rw [Step.andThen, ← List.map_append]
    exact leaves_paused n pause _ (hP marks hmarks)

theorem leaves_eval {α : Type} (m : Machine) (x : Eval α) {k : α → Machine → Step}
    (hk : ∀ a n, Leaves (k a n) P) : Leaves (m.eval x k) P := by
  unfold eval
  split
  · exact hk _ _
  · exact leaves_ended _ _

theorem leaves_pass (m : Machine) (self : Self) (head : Head) {s : Stmt} {body : List Stmt}
    {run : Machine → Step} {k : Nat} (hs : s.loopBody? = some body)
    (hrun : ∀ n, Leaves (run n) (WithinBody (k + 1) body)) :
    Leaves (m.pass self head body run) (Within k s) := by
  refine leaves_eval m _ fun next n => ?_
  cases next with
  | none => exact leaves_done n
  | some head =>
    refine (hrun n).andThen [⟨k, .loop head body⟩] (fun l => ?_) fun marks hmarks => ?_
    · exact leaves_paused l .yield [⟨k, .again head body⟩] (.again k hs head)
    · exact .pass hs head hmarks

theorem leaves_askMouse (m : Machine) (self : Self) (h : P []) : Leaves (m.askMouse self) P := by
  unfold askMouse
  dsimp only
  split
  · exact leaves_done _
  · exact leaves_paused _ _ [] h

theorem leaves_act (m : Machine) (self : Self) (k : Nat) (a : Action) :
    Leaves (m.act self a) (Within k (.act a)) := by
  rw [act_eq]
  refine leaves_eval m _ fun (world, sequel) n => ?_
  cases sequel with
  | proceed => exact leaves_done _
  | sleep span => exact leaves_paused _ _ [] (.act k a)
  | glide way secs => exact leaves_paused _ _ [⟨k, .glide way _ secs⟩] (.glide k a way _ secs)
  | unsay kind seq span => exact leaves_paused _ _ [⟨k, .unsay kind seq⟩] (.unsay k a kind seq)
  | broadcast message span =>
    cases span with
    | none => exact leaves_done _
    | some span => exact leaves_paused _ _ [] (.act k a)
  | askMouse => exact leaves_askMouse _ self (.act k a)
  | stop scope =>
    cases scope with
    | otherScriptsInSprite => exact leaves_done _
    | all | thisScript | thisSprite => exact leaves_ended _ _

theorem leaves_check (m : Machine) (self : Self) (k : Nat) (condition : Expr) (syncMouse : Bool) :
    Leaves (m.check self condition syncMouse) (Within k (.waitUntil condition syncMouse)) := by
  refine leaves_eval m _ fun v n => ?_
  split
  · exact leaves_done n
  · exact leaves_paused _ _ [⟨k, .block [.waitUntil condition syncMouse]⟩]
      (.look k condition syncMouse)

theorem leaves_waitUntil (m : Machine) (self : Self) (k : Nat) (condition : Expr)
    (syncMouse : Bool) :
    Leaves (m.waitUntil self condition syncMouse) (Within k (.waitUntil condition syncMouse)) := by
  have hcheck := fun n : Machine => leaves_check n self k condition syncMouse
  unfold waitUntil
  split
  · have hask : Leaves (m.askMouse self) (· = []) := leaves_askMouse m self rfl
    refine hask.andThen [⟨k, .check condition syncMouse⟩] hcheck ?_
    rintro _ rfl
    exact .check k condition syncMouse
  · exact hcheck m

theorem leaves_exec :
    (∀ s self m k, Leaves (exec self m s) (Within k s)) ∧
    ∀ body self m k, Leaves (execBlock self m body) (WithinBody k body) := by
  refine Stmt.induction (fun a self m k => ?_) (fun condition syncMouse self m k => ?_)
    (fun s body hs hbody self m k => ?_) (fun condition thenBody elseBody ha hb self m k => ?_)
    (fun self m k => ?_) (fun s rest hs hrest self m k => ?_)
  · rw [exec]
    exact leaves_act _ self k a
  · rw [exec]
    exact leaves_waitUntil _ self k condition syncMouse
  · have hrun := fun n : Machine => hbody self n (k + 1)
    cases s with
    | act | waitUntil | branch => cases hs
    | repeatTimes times body =>
      cases hs
      rw [exec]
      exact leaves_eval _ _ fun times n => leaves_pass n self _ rfl hrun
    | repeatUntil condition body =>
      cases hs
      rw [exec]
      exact leaves_pass _ self _ rfl hrun
    | forever body =>
      cases hs
      rw [exec]
      exact leaves_pass _ self _ rfl hrun
  · rw [exec]
    refine leaves_eval _ _ fun v n => ?_
    split
    · exact (ha self n (k + 1)).imp fun marks => .thenBody condition elseBody
    · exact (hb self n (k + 1 + sizeOfBody thenBody)).imp fun marks => .elseBody condition
  · rw [execBlock]
    exact leaves_done m
  · rw [execBlock]
    refine (hs self m k).andThen [⟨k + s.size, .block rest⟩] (fun n => ?_) fun marks => .here rest
    exact (hrest self n (k + s.size)).imp fun marks => .there s

end Leaves

/-! ### Bodies that end in a yield -/

theorem endsInYield_cons_cons (s t : Stmt) (rest : List Stmt) :
    endsInYield (s :: t :: rest) = endsInYield (t :: rest) := by
  rw [endsInYield, endsInYield, List.getLast?_cons_cons]

theorem eq_yield_of_endsInYield {s : Stmt} (h : endsInYield [s] = true) : s = .act .yield := by
  have hyield : s.isYield = true := h
  unfold Stmt.isYield at hyield
  split at hyield
  · rfl
  · cases hyield

theorem execBlock_ne_done {body : List Stmt} (h : endsInYield body = true) (self : Self)
    (m n : Machine) : execBlock self m body ≠ .done n := by
  induction body generalizing m with
  | nil => cases h
  | cons s rest ih =>
    intro hdone
    rw [execBlock] at hdone
    obtain ⟨l, hs, hrest⟩ := Step.andThen_eq_done hdone
    cases rest with
    | nil =>
      cases eq_yield_of_endsInYield h
      cases hs
    | cons t rest => exact ih ((endsInYield_cons_cons s t rest).symm.trans h) l hrest

/-- A paused action has executed its statement already. -/
theorem Within.silent_act (self : Self) (m : Machine) :
    ∀ {k : Nat} {s : Stmt} {marks : List Mark}, Within k s marks → ∀ a, s = .act a →
      marksVisits self m marks = []
  | _, _, _, .act .., _, _ => rfl
  | _, _, _, .glide .., _, _ => marksVisits_single self m _
  | _, _, _, .unsay .., _, _ => marksVisits_single self m _
  | _, _, _, .again _ h _, _, hs => by
    cases hs
    cases h
  | _, _, _, .pass h _ _, _, hs => by
    cases hs
    cases h
  | _, _, _, .spent h, a, hs => by
    rw [marksVisits_append, silent_act self m h a hs]
    exact Step.thenTrace_nil _

/-- If what is left of a body that ends in a yield comes to its end, then the yield was the last
that was executed, and nothing but its end is left. -/
theorem WithinBody.silent {k : Nat} {body : List Stmt} {marks : List Mark} {self : Self}
    {m n : Machine} (h : WithinBody k body marks) (hy : endsInYield body = true)
    (hd : resume self m (marks.map (·.frame)) = .done n) : marksVisits self m marks = [] := by
  induction body generalizing k with
  | nil => cases hy
  | cons s rest ih =>
    cases h with
    | start =>
      rw [List.map_singleton, resume_single] at hd
      exact absurd hd (execBlock_ne_done hy self m n)
    | @here _ _ marks _ hin =>
      rw [List.map_append, resume_append] at hd
      obtain ⟨l, -, hl⟩ := Step.andThen_eq_done hd
      rw [List.map_singleton, resume_single] at hl
      cases rest with
      | nil =>
        cases eq_yield_of_endsInYield hy
        rw [marksVisits_append, hin.silent_act self m .yield rfl]
        exact Step.thenTrace_nil _
      | cons t rest =>
        rw [endsInYield_cons_cons] at hy
        exact absurd hl (execBlock_ne_done hy self l n)
    | there _ hrest =>
      cases rest with
      | nil =>
        cases hrest
        exact marksVisits_single self m _
      | cons t rest =>
        rw [endsInYield_cons_cons] at hy
        exact ih hrest hy

/-! ### Going on -/

theorem pass_visits_sublist {s : Stmt} {body : List Stmt} (h : s.loopBody? = some body) (k : Nat)
    (self : Self) (m : Machine) (head : Head) :
    (m.passTrace self head fun n => .pass k :: visitsOf self n (k + 1) body).Sublist (s.places k) := by
  rw [Stmt.places_of_loopBody h]
  refine (passTrace_sublist m self head fun n => ?_).cons _
  exact (visits_sublist.2 body self n (k + 1)).cons_cons _

/-- Either the rest of a pass was empty, or no other pass follows it at once. -/
theorem loop_visits_sublist {s : Stmt} {body : List Stmt} {marks : List Mark} {k : Nat}
    (h : s.loopBody? = some body) (self : Self) (m : Machine) (head : Head)
    (hrest : WithinBody (k + 1) body marks)
    (hvisits : (marksVisits self m marks).Sublist (placesOf (k + 1) body)) :
    (marksVisits self m (marks ++ [⟨k, .loop head body⟩])).Sublist (s.places k) := by
  have hbody : (marksVisits self m marks).Sublist (s.places k) := by
    rw [Stmt.places_of_loopBody h]
    exact (hvisits.cons _).cons _
  rw [marksVisits_append]
  cases hd : resume self m (marks.map (·.frame)) with
  | paused | ended =>
    rw [Step.thenTrace, List.append_nil]
    exact hbody
  | done n =>
    rw [Step.thenTrace, marksVisits_single, markVisits]
    dsimp only
    split
    next hy =>
      rw [hrest.silent hy hd, List.nil_append]
      exact pass_visits_sublist h k self n head
    next hy =>
      rw [List.append_nil]
      exact hbody

mutual

theorem Within.visits_sublist (self : Self) (m : Machine) :
    ∀ {k : Nat} {s : Stmt} {marks : List Mark}, Within k s marks →
      (marksVisits self m marks).Sublist (s.places k)
  | _, _, _, .act .. => List.nil_sublist _
  | _, _, _, .glide .. | _, _, _, .unsay .. => by
    rw [marksVisits_single]
    exact List.nil_sublist _
  | _, _, _, .check .. => by
    rw [marksVisits_single, Stmt.places]
    exact List.sublist_cons_self _ _
  | k, _, _, .look _ condition syncMouse => by
    have hone := Machine.visits_sublist.2 [.waitUntil condition syncMouse] self m k
    rw [placesOf, placesOf, List.append_nil] at hone
    rw [marksVisits_single]
    exact hone
  | k, _, _, .again _ h head => by
    rw [marksVisits_single]
    exact pass_visits_sublist h k self m head
  | _, _, _, .pass h head hrest =>
    loop_visits_sublist h self m head hrest (hrest.visits_sublist self m)
  | _, _, _, .thenBody condition elseBody hrest => by
    rw [Stmt.places]
    exact ((hrest.visits_sublist self m).trans (List.sublist_append_left _ _)).cons _
  | _, _, _, .elseBody condition hrest => by
    rw [Stmt.places]
    exact ((hrest.visits_sublist self m).trans (List.sublist_append_right _ _)).cons _
  | _, _, _, .spent h => by
    have hspent : ∀ l, (fun n => marksVisits self n [⟨l, .block []⟩]) = fun _ => [] :=
      fun l => funext fun n => marksVisits_single self n _
    rw [marksVisits_append, hspent, Step.thenTrace_nil, List.append_nil]
    exact h.visits_sublist self m

theorem WithinBody.visits_sublist (self : Self) (m : Machine) :
    ∀ {k : Nat} {body : List Stmt} {marks : List Mark}, WithinBody k body marks →
      (marksVisits self m marks).Sublist (placesOf k body)
  | _, _, _, .start k body => by
    rw [marksVisits_single]
    exact Machine.visits_sublist.2 body self m k
  | _, _, _, .here rest h => by
    rw [marksVisits_append, placesOf]
    refine (h.visits_sublist self m).append (Step.thenTrace_sublist _ fun n => ?_)
    rw [marksVisits_single]
    exact Machine.visits_sublist.2 rest self n _
  | _, _, _, .there s h => by
    rw [placesOf]
    exact (h.visits_sublist self m).trans (List.sublist_append_right _ _)

end

theorem leaves_glide (m : Machine) (self : Self) (k : Nat) (a : Action) (way : Stage.Glide Float)
    (started : Nat) (secs : Float) :
    Leaves (runFrame self m (.glide way started secs)) (Within k (.act a)) := by
  rw [runFrame_glide_eq]
  refine leaves_eval m _ fun world n => ?_
  dsimp only
  split
  · exact leaves_done _
  · exact leaves_paused _ _ [⟨k, .glide way started secs⟩] (.glide k a way started secs)

theorem leaves_loop (m : Machine) (self : Self) (k : Nat) {s : Stmt} {body : List Stmt}
    (h : s.loopBody? = some body) (head : Head) :
    Leaves (runFrame self m (.loop head body)) (Within k s) := by
  rw [runFrame]
  split
  · exact leaves_pass m self head h fun n => leaves_exec.2 body self n (k + 1)
  · exact leaves_paused m .yield [⟨k, .again head body⟩] (.again k h head)

mutual

/-- A task that pauses again goes on at such a place too. -/
theorem Within.leaves (self : Self) (m : Machine) :
    ∀ {k : Nat} {s : Stmt} {marks : List Mark}, Within k s marks →
      Leaves (resume self m (marks.map (·.frame))) (Within k s)
  | _, _, _, .act .. => leaves_done m
  | k, _, _, .glide _ a way started secs => by
    rw [List.map_singleton, resume_single]
    exact leaves_glide m self k a way started secs
  | k, _, _, .unsay _ a kind seq => by
    rw [List.map_singleton, resume_single, runFrame_unsay_eq]
    exact leaves_eval m _ fun world n => leaves_done _
  | k, _, _, .check _ condition syncMouse => by
    rw [List.map_singleton, resume_single]
    exact leaves_check m self k condition syncMouse
  | k, _, _, .look _ condition syncMouse => by
    rw [List.map_singleton, resume_single, runFrame, execBlock_singleton]
    refine (leaves_exec.1 _ self m k).andThen [⟨_, .block []⟩] leaves_done fun marks => .spent
  | k, _, _, .again _ h head => by
    rw [List.map_singleton, resume_single]
    exact leaves_pass m self head h fun n => leaves_exec.2 _ self n (k + 1)
  | k, _, _, .pass h head hrest => by
    rw [List.map_append, resume_append]
    refine (hrest.leaves self m).andThen [⟨k, .loop head _⟩] (fun n => ?_) fun marks => .pass h head
    rw [List.map_singleton, resume_single]
    exact leaves_loop n self k h head
  | _, _, _, .thenBody condition elseBody hrest =>
    (hrest.leaves self m).imp fun marks => .thenBody condition elseBody
  | _, _, _, .elseBody condition hrest => (hrest.leaves self m).imp fun marks => .elseBody condition
  | k, _, _, .spent h => by
    rw [List.map_append, resume_append]
    exact (h.leaves self m).andThen [⟨_, .block []⟩] (fun n => leaves_done n) fun marks => .spent

theorem WithinBody.leaves (self : Self) (m : Machine) :
    ∀ {k : Nat} {body : List Stmt} {marks : List Mark}, WithinBody k body marks →
      Leaves (resume self m (marks.map (·.frame))) (WithinBody k body)
  | _, _, _, .start k body => by
    rw [List.map_singleton, resume_single]
    exact leaves_exec.2 body self m k
  | _, _, _, .here rest h => by
    rw [List.map_append, resume_append]
    refine (h.leaves self m).andThen [⟨_, .block rest⟩] (fun n => ?_) fun marks => .here rest
    rw [List.map_singleton, resume_single]
    exact (leaves_exec.2 rest self n _).imp fun marks => .there _
  | _, _, _, .there s h => (h.leaves self m).imp fun marks => .there s

end

end SpriteStage.Machine
