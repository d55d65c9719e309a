import SpriteStage.Proofs.Machine.Trace
import SpriteStage.Proofs.Script.Places

/-!
The visits of a turn: the places of the script that it comes to, which are the statements that it
executes and the passes that it begins.

To know the places, a task that goes on after a pause needs the numbers of its frames (`Mark`). The
statements of the visits are those of the trace (`matches_marksVisits`).
-/

namespace SpriteStage

/-! ### Steps one after the other -/

namespace Step

theorem andThen_done (s : Step) : s.andThen .done [] = s := by
  cases s <;> simp [andThen]

theorem andThen_eq_done {s : Step} {k : Machine → Step} {later : List Frame} {n : Machine}
    (h : s.andThen k later = .done n) : ∃ l, s = .done l ∧ k l = .done n := by
  cases s with
  | done l => exact ⟨l, rfl, h⟩
  | paused | ended => cases h

theorem thenTrace_andThen {β : Type} (s : Step) (k : Machine → Step) (later : List Frame)
    (l : Machine → List β) :
    (s.andThen k later).thenTrace l = s.thenTrace fun m => (k m).thenTrace l := by
  cases s <;> rfl

theorem thenTrace_append {β : Type} (s : Step) (k l : Machine → List β) :
    (s.thenTrace fun m => k m ++ l m) = s.thenTrace k ++ s.thenTrace l := by
  cases s <;> rfl

theorem thenTrace_sublist {β : Type} (s : Step) {k : Machine → List β} {l : List β}
    (h : ∀ n, (k n).Sublist l) : (s.thenTrace k).Sublist l := by
  cases s with
  | done m => exact h m
  | paused | ended => exact List.nil_sublist l

end Step

namespace Machine

theorem evalTrace_sublist {α β : Type} (m : Machine) (x : Eval α) {k : α → Machine → List β}
    {l : List β} (h : ∀ a n, (k a n).Sublist l) : (m.evalTrace x k).Sublist l := by
  unfold evalTrace
  split
  · exact h _ _
  · exact List.nil_sublist l

theorem passTrace_sublist {β : Type} (m : Machine) (self : Self) (head : Head)
    {run : Machine → List β} {l : List β} (h : ∀ n, (run n).Sublist l) :
    (m.passTrace self head run).Sublist l := by
  refine evalTrace_sublist m _ fun next n => ?_
  cases next with
  | none => exact List.nil_sublist l
  | some head => exact h n

/-! ### Visits -/

mutual

/-- The places that the statement with the number `k` comes to. -/
def visits (self : Self) (m : Machine) (k : Nat) : Stmt → List Place
  | .act a => [.stmt k (.act a)]
  | .waitUntil condition syncMouse =>
    .stmt k (.waitUntil condition syncMouse) ::
      if syncMouse then (m.counted.askMouse self).thenTrace fun _ => [.pass k] else [.pass k]
  | .repeatTimes times body =>
    .stmt k (.repeatTimes times body) ::
      m.counted.evalTrace (times.evalNumber m.world self.entity "TIMES") fun times m =>
        m.passTrace self (.times (passCount times)) fun m => .pass k :: visitsOf self m (k + 1) body
  | .repeatUntil condition body =>
    .stmt k (.repeatUntil condition body) ::
      m.counted.passTrace self (.untilTrue condition) fun m =>
        .pass k :: visitsOf self m (k + 1) body
  | .forever body =>
    .stmt k (.forever body) ::
      m.counted.passTrace self .always fun m => .pass k :: visitsOf self m (k + 1) body
  | .branch condition thenBody elseBody =>
    .stmt k (.branch condition thenBody elseBody) ::
      m.counted.evalTrace (condition.eval m.world self.entity) fun v m =>
        if v.toBool then visitsOf self m (k + 1) thenBody
        else visitsOf self m (k + 1 + sizeOfBody thenBody) elseBody

/-- The places that a body comes to whose first statement has the number `k`. -/
def visitsOf (self : Self) (m : Machine) (k : Nat) : List Stmt → List Place
  | [] => []
  | s :: rest =>
    visits self m k s ++ (exec self m s).thenTrace fun m => visitsOf self m (k + s.size) rest

end

theorem visits_sublist :
    (∀ s self m k, (visits self m k s).Sublist (s.places k)) ∧
    ∀ body self m k, (visitsOf self m k body).Sublist (placesOf k body) := by
  refine Stmt.induction (fun a self m k => ?_) (fun condition syncMouse self m k => ?_)
    (fun s body hs hbody self m k => ?_) (fun condition thenBody elseBody ha hb self m k => ?_)
    (fun self m k => ?_) (fun s rest hs hrest self m k => ?_)
  · exact List.Sublist.refl [_]
  · rw [visits, Stmt.places]
    refine List.Sublist.cons_cons _ ?_
    split
    · exact Step.thenTrace_sublist _ fun _ => List.Sublist.refl _
    · exact List.Sublist.refl _
  · have hpass : ∀ n, (.pass k :: visitsOf self n (k + 1) body).Sublist
        (.pass k :: placesOf (k + 1) body) := fun n => (hbody self n (k + 1)).cons_cons _
    rw [Stmt.places_of_loopBody hs]
    cases s with
    | act | waitUntil | branch => cases hs
    | repeatTimes times body =>
      cases hs
      rw [visits]
      exact (evalTrace_sublist _ _ fun _ n => passTrace_sublist n self _ hpass).cons_cons _
    | repeatUntil condition body =>
      cases hs
      rw [visits]
      exact (passTrace_sublist _ self _ hpass).cons_cons _
    | forever body =>
      cases hs
      rw [visits]
      exact (passTrace_sublist _ self _ hpass).cons_cons _
  · rw [visits, Stmt.places]
    refine List.Sublist.cons_cons _ (evalTrace_sublist _ _ fun v n => ?_)
    split
    · exact (ha self n _).trans (List.sublist_append_left _ _)
    · exact (hb self n _).trans (List.sublist_append_right _ _)
  · exact List.Sublist.refl []
  · rw [visitsOf, placesOf]
    exact (hs self m k).append (Step.thenTrace_sublist _ fun n => hrest self n _)

/-! ### Marks -/

/-- A frame with the number of the statement that it belongs to, or that it begins with. -/
structure Mark where
  number : Nat
  frame : Frame

def markVisits (self : Self) (m : Machine) (mark : Mark) : List Place :=
  match mark.frame with
  | .block rest => visitsOf self m mark.number rest
  | .loop head body =>
    if endsInYield body then
      m.passTrace self head fun m => .pass mark.number :: visitsOf self m (mark.number + 1) body
    else []
  | .again head body =>
    m.passTrace self head fun m => .pass mark.number :: visitsOf self m (mark.number + 1) body
  | .glide .. | .unsay .. => []
  | .check .. => [.pass mark.number]

def marksVisits (self : Self) (m : Machine) : List Mark → List Place
  | [] => []
  | mark :: rest =>
    markVisits self m mark ++ (runFrame self m mark.frame).thenTrace (marksVisits self · rest)

/-- Does what the frames say, one after the other, but does not end the task. -/
def resume (self : Self) (m : Machine) : List Frame → Step
  | [] => .done m
  | f :: rest => (runFrame self m f).andThen (fun m => resume self m rest) rest

theorem runFrames_eq_resume (self : Self) (m : Machine) (frames : List Frame) :
    runFrames self m frames = (resume self m frames).andThen (.ended · .completed) [] := by
  induction frames generalizing m with
  | nil => rfl
  | cons f rest ih =>
    have hrest : (fun n => runFrames self n rest) =
        fun n => (resume self n rest).andThen (.ended · .completed) [] := funext ih
    rw [runFrames, resume, Step.andThen_assoc, hrest, List.append_nil]

theorem resume_append (self : Self) (m : Machine) (fs gs : List Frame) :
    resume self m (fs ++ gs) = (resume self m fs).andThen (fun m => resume self m gs) gs := by
  induction fs generalizing m with
  | nil => rfl
  | cons f rest ih =>
    have hrest : (fun n => resume self n (rest ++ gs)) =
        fun n => (resume self n rest).andThen (fun m => resume self m gs) gs := funext ih
    rw [List.cons_append, resume, resume, Step.andThen_assoc, hrest]

theorem resume_single (self : Self) (m : Machine) (f : Frame) :
    resume self m [f] = runFrame self m f :=
  Step.andThen_done _

theorem marksVisits_append (self : Self) (m : Machine) (xs ys : List Mark) :
    marksVisits self m (xs ++ ys) = marksVisits self m xs ++
      (resume self m (xs.map (·.frame))).thenTrace (marksVisits self · ys) := by
  induction xs generalizing m with
  | nil => rfl
  | cons x rest ih =>
    have hrest : (fun n => marksVisits self n (rest ++ ys)) = fun n => marksVisits self n rest ++
        (resume self n (rest.map (·.frame))).thenTrace (marksVisits self · ys) := funext ih
    rw [List.cons_append, marksVisits, hrest, Step.thenTrace_append, marksVisits, List.map_cons,
      resume, Step.thenTrace_andThen, List.append_assoc]

theorem marksVisits_single (self : Self) (m : Machine) (mark : Mark) :
    marksVisits self m [mark] = markVisits self m mark := by
  have hnil : (fun n => marksVisits self n []) = fun _ => [] := rfl
  rw [marksVisits, hnil, Step.thenTrace_nil, List.append_nil]

/-! ### Visits and traces -/

/-- The statements of the visits are those of the trace. -/
def Matches (log : List Place) (ms : List Moment) : Prop :=
  log.filterMap Place.stmt? = ms.map (·.stmt)

theorem Matches.append {log more : List Place} {ms ks : List Moment} (h : Matches log ms)
    (hmore : Matches more ks) : Matches (log ++ more) (ms ++ ks) := by
  rw [Matches, List.filterMap_append, List.map_append, h, hmore]

theorem Matches.cons {log : List Place} {ms : List Moment} (h : Matches log ms) (k : Nat)
    (m : Machine) (s : Stmt) : Matches (.stmt k s :: log) (⟨m, s⟩ :: ms) :=
  congrArg (s :: ·) h

theorem matches_thenTrace (s : Step) {k : Machine → List Place} {l : Machine → List Moment}
    (h : ∀ n, Matches (k n) (l n)) : Matches (s.thenTrace k) (s.thenTrace l) := by
  cases s with
  | done n => exact h n
  | paused | ended => rfl

theorem matches_evalTrace {α : Type} (m : Machine) (x : Eval α) {k : α → Machine → List Place}
    {l : α → Machine → List Moment} (h : ∀ a n, Matches (k a n) (l a n)) :
    Matches (m.evalTrace x k) (m.evalTrace x l) := by
  unfold evalTrace
  split
  · exact h _ _
  · rfl

theorem matches_passTrace (m : Machine) (self : Self) (head : Head) {run : Machine → List Place}
    {runTrace : Machine → List Moment} (h : ∀ n, Matches (run n) (runTrace n)) :
    Matches (m.passTrace self head run) (m.passTrace self head runTrace) := by
  refine matches_evalTrace m _ fun next n => ?_
  cases next with
  | none => rfl
  | some head => exact h n

theorem matches_visits :
    (∀ s self m k, Matches (visits self m k s) (trace self m s)) ∧
    ∀ body self m k, Matches (visitsOf self m k body) (traceBlock self m body) := by
  refine Stmt.induction (fun a self m k => ?_) (fun condition syncMouse self m k => ?_)
    (fun s body hs hbody self m k => ?_) (fun condition thenBody elseBody ha hb self m k => ?_)
    (fun self m k => ?_) (fun s rest hs hrest self m k => ?_)
  · rw [visits, trace]
    rfl
  · rw [visits, trace]
    refine Matches.cons ?_ k m _
    have hlook : Machine → Matches [.pass k] [] := fun _ => rfl
    split
    · have hask := matches_thenTrace (m.counted.askMouse self) hlook
      rw [Step.thenTrace_nil] at hask
      exact hask
    · exact hlook m
  · have hpass : ∀ n, Matches (.pass k :: visitsOf self n (k + 1) body) (traceBlock self n body) :=
      fun n => hbody self n (k + 1)
    cases s with
    | act | waitUntil | branch => cases hs
    | repeatTimes times body =>
      cases hs
      rw [visits, trace]
      refine Matches.cons (matches_evalTrace _ _ fun times n => ?_) k m _
      exact matches_passTrace n self _ hpass
    | repeatUntil condition body =>
      cases hs
      rw [visits, trace]
      exact Matches.cons (matches_passTrace _ self _ hpass) k m _
    | forever body =>
      cases hs
      rw [visits, trace]
      exact Matches.cons (matches_passTrace _ self _ hpass) k m _
  · rw [visits, trace]
    refine Matches.cons (matches_evalTrace _ _ fun v n => ?_) k m _
    split
    · exact ha self n _
    · exact hb self n _
  · rw [visitsOf, traceBlock]
    rfl
  · rw [visitsOf, traceBlock]
    exact (hs self m k).append (matches_thenTrace _ fun n => hrest self n _)

theorem matches_markVisits (self : Self) (m : Machine) (mark : Mark) :
    Matches (markVisits self m mark) (frameTrace self m mark.frame) := by
  obtain ⟨k, frame⟩ := mark
  have hpass : ∀ (n : Machine) (head : Head) (body : List Stmt),
      Matches (n.passTrace self head fun n => .pass k :: visitsOf self n (k + 1) body)
        (n.passTrace self head fun n => traceBlock self n body) :=
    fun n head body => matches_passTrace n self head fun l => matches_visits.2 body self l (k + 1)
  cases frame with
  | block rest => exact matches_visits.2 rest self m k
  | loop head body =>
    simp only [markVisits, frameTrace]
    split
    · exact hpass m head body
    · rfl
  | again head body => exact hpass m head body
  | glide | unsay | check => rfl

theorem matches_marksVisits (self : Self) (m : Machine) (marks : List Mark) :
    Matches (marksVisits self m marks) (framesTrace self m (marks.map (·.frame))) := by
  induction marks generalizing m with
  | nil => rfl
  | cons mark rest ih =>
    rw [marksVisits, List.map_cons, framesTrace]
    exact (matches_markVisits self m mark).append (matches_thenTrace _ ih)

end Machine

end SpriteStage
