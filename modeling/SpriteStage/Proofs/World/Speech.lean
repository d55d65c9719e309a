import SpriteStage.Machine.Execute
import SpriteStage.Proofs.World.Edits

/-!
Speech bubbles.

Every call that shows or takes away a bubble of an entity raises the entity's number by one, and a
call that comes too late for its number changes nothing. So the calls that have changed something
are counted by the number (`Spoken.number`), and whether a bubble can still be taken away says
whether anything has changed since it was shown.
-/

namespace SpriteStage

def HostEvent.isBubbleOf (id : EntityId) : HostEvent → Bool
  | .speechBubble other .. => other = id
  | _ => false

namespace World

/-- The number of the last change of an entity's bubble. -/
def speechSeq (w : World) (id : EntityId) : Nat :=
  (w.entities[id]?.map (·.speechSeq)).getD 0

/-- The bubbles of an entity that the host was told of. -/
def bubbles (w : World) (id : EntityId) : List HostEvent :=
  w.events.filter (·.isBubbleOf id)

structure Mute (w w' : World) : Prop where
  number : ∀ id, w'.speechSeq id = w.speechSeq id
  bubbles : ∀ id, w'.bubbles id = w.bubbles id

namespace Mute

variable {w w' w'' : World}

theorem refl (w : World) : w.Mute w :=
  ⟨fun _ => rfl, fun _ => rfl⟩

theorem trans (h : w.Mute w') (h' : w'.Mute w'') : w.Mute w'' :=
  ⟨fun id => (h'.number id).trans (h.number id), fun id => (h'.bubbles id).trans (h.bubbles id)⟩

theorem of_eq (he : w'.entities = w.entities) (hn : w'.events = w.events) : w.Mute w' :=
  ⟨fun id => by rw [speechSeq, speechSeq, he], fun id => by rw [World.bubbles, World.bubbles, hn]⟩

end Mute

theorem bubbles_notify (w : World) (event : HostEvent) (id : EntityId) :
    (w.notify event).bubbles id =
      w.bubbles id ++ if w.running && event.isBubbleOf id then [event] else [] := by
  rw [bubbles, bubbles, notify, List.filter_append]
  cases w.running <;> cases hb : event.isBubbleOf id <;> simp [hb]

theorem speechSeq_setEntity {w : World} {id : EntityId} {e : Entity} (he : w.entities[id]? = some e)
    (e' : Entity) (other : EntityId) :
    (w.setEntity id e').speechSeq other =
      if id = other then e'.speechSeq else w.speechSeq other := by
  obtain ⟨hlt, -⟩ := List.getElem?_eq_some_iff.1 he
  by_cases hid : id = other
  · subst hid
    simp [speechSeq, setEntity, hlt]
  · simp [speechSeq, setEntity, hid]

theorem speechSeq_eq {w : World} {id : EntityId} {e : Entity} (he : w.entities[id]? = some e) :
    w.speechSeq id = e.speechSeq := by
  rw [speechSeq, he]
  rfl

theorem isBubbleOf_eq_false {event : HostEvent} (h : event.isBubble = false) (id : EntityId) :
    event.isBubbleOf id = false := by
  cases event <;> first | rfl | cases h

theorem mute_notify (w : World) {event : HostEvent} (h : event.isBubble = false) :
    w.Mute (w.notify event) := by
  refine ⟨fun _ => rfl, fun id => ?_⟩
  rw [bubbles_notify, isBubbleOf_eq_false h]
  simp

theorem mute_emit (w : World) {event : HostEvent} (h : event.isBubble = false) :
    w.Mute (w.emit event) := by
  refine ⟨fun _ => rfl, fun id => ?_⟩
  simp [bubbles, emit, isBubbleOf_eq_false h]

/-- Scripts that do not speak leave speech alone. -/
theorem Edited.mute {w w' : World} {mouse : Bool} (h : w.Edited false mouse w') : w.Mute w' := by
  induction h with
  | refl w => exact .refl w
  | trans _ _ ih ih' => exact ih.trans ih'
  | notify w _ _ hb => exact mute_notify w hb
  | bubble hs => cases hs
  | @update w id e e' patch he _ _ hn _ _ =>
    -- The entity is another one, but with the same number.
    have hset : w.Mute (w.setEntity id e') := by
      refine ⟨fun other => ?_, fun _ => rfl⟩
      rw [speechSeq_setEntity he]
      split
      next hid => rw [hn, ← speechSeq_eq he, hid]
      · rfl
    exact hset.trans (mute_notify _ rfl)
  | setCell w id name v =>
    cases w.cell id name with
    | own id name =>
      refine ⟨fun other => ?_, fun _ => rfl⟩
      simp only [speechSeq, World.setCell, List.getElem?_modify]
      cases w.entities[other]? with
      | none => rfl
      | some e =>
        simp only [Option.map_some, Option.getD_some]
        split <;> rfl
    | shared name => exact .of_eq rfl rfl
  | record w record => exact .of_eq rfl rfl
  | timer w | requests w => exact .of_eq rfl rfl

end World

/-! ### Calls -/

/-- A call about a speech bubble, by a task for its entity. -/
inductive SpeechCall where
  | said (self : Self) (kind : SpeechKind) (text : String) (millis : Option Nat) (seq : Nat)
  /-- The bubble with the number was to be taken away; `took` says whether it was. -/
  | cleared (self : Self) (kind : SpeechKind) (seq : Nat) (took : Bool)

namespace SpeechCall

def speaksFor (id : EntityId) : SpeechCall → Bool
  | .said self .. => self.entity = id
  | .cleared .. => false

/-- Did the call change what the entity shows? -/
def changes (id : EntityId) : SpeechCall → Bool
  | .said self .. => self.entity = id
  | .cleared self _ _ took => took && self.entity = id

def event : SpeechCall → HostEvent
  | .said self kind text millis _ => .speechBubble self.entity text kind millis
  | .cleared self kind _ _ => .speechBubble self.entity "" kind none

/-- What the host hears of an entity's bubbles in a run. -/
def told (id : EntityId) (log : List SpeechCall) : List HostEvent :=
  (log.filter (changes id)).map event

theorem told_append (id : EntityId) (log more : List SpeechCall) :
    told id (log ++ more) = told id log ++ told id more := by
  rw [told, List.filter_append, List.map_append, told, told]

end SpeechCall

open SpeechCall

namespace World

/-- Has the bubble of the entity changed? -/
def renewed (w w' : World) (id : EntityId) : Bool :=
  w'.speechSeq id ≠ w.speechSeq id

inductive Called : World → SpeechCall → World → Prop where
  | say {w w' : World} (self : Self) {kind : SpeechKind} {text : String} {secs : Option Float}
      {seq : Nat} (h : w.say self.entity kind text secs = .ok (seq, w')) :
      Called w (.said self kind text (secs.map wholeMillis) seq) w'
  | clear {w w' : World} (self : Self) {kind : SpeechKind} {seq : Nat}
      (h : w.clearSpeech self.entity kind seq = .ok w') :
      Called w (.cleared self kind seq (w.renewed w' self.entity)) w'

/-- From one world to the next there were these calls, and between them anything that does not
change speech. If `run` is set, all calls were made in a run. -/
inductive Spoken (run : Bool) : World → List SpeechCall → World → Prop where
  | refl (w : World) : Spoken run w [] w
  | other {w w' w'' : World} {log : List SpeechCall} (h : Spoken run w log w') (hm : w'.Mute w'') :
      Spoken run w log w''
  | call {w w' w'' : World} {log : List SpeechCall} {c : SpeechCall} (h : Spoken run w log w')
      (hr : run = true → w'.running = true) (hc : w'.Called c w'') : Spoken run w (log ++ [c]) w''

/-! ### One call -/

/-- The number of an entity counts the changes, and in a run the host is told of each. -/
structure Uttered (w : World) (c : SpeechCall) (w' : World) : Prop where
  number : ∀ id, w'.speechSeq id = w.speechSeq id + if c.changes id then 1 else 0
  bubbles : w.running = true → ∀ id, w'.bubbles id = w.bubbles id ++ told id [c]

theorem Uttered.renewed {w w' : World} {c : SpeechCall} (h : w.Uttered c w') (id : EntityId) :
    w.renewed w' id = c.changes id := by
  rw [World.renewed, h.number]
  cases c.changes id <;> simp

theorem uttered_bubble {w : World} {e : Entity} {c : SpeechCall} {id : EntityId} {text : String}
    {kind : SpeechKind} {millis : Option Nat} (he : w.entities[id]? = some e)
    (hc : ∀ other, c.changes other = decide (id = other))
    (hevent : c.event = .speechBubble id text kind millis) :
    w.Uttered c ((w.setEntity id { e with speechSeq := e.speechSeq + 1 }).notify
      (.speechBubble id text kind millis)) := by
  refine ⟨fun other => ?_, fun hr other => ?_⟩
  · refine (speechSeq_setEntity he _ other).trans ?_
    rw [hc]
    by_cases hid : id = other
    · simp [← hid, speechSeq_eq he]
    · simp [hid]
  · have hbubble : (HostEvent.speechBubble id text kind millis).isBubbleOf other =
        decide (id = other) := rfl
    rw [bubbles_notify, hbubble, told, List.filter_cons, hc, ← hevent]
    refine congrArg _ ?_
    have hr' : (w.setEntity id { e with speechSeq := e.speechSeq + 1 }).running = true := hr
    by_cases hid : id = other
    · subst hid
      simp [hr']
    · simp [hid]

theorem uttered_say {w w' : World} (self : Self) {kind : SpeechKind} {text : String}
    {secs : Option Float} {seq : Nat} (h : w.say self.entity kind text secs = .ok (seq, w')) :
    w.Uttered (.said self kind text (secs.map wholeMillis) seq) w' ∧
      seq = w.speechSeq self.entity + 1 := by
  obtain ⟨e, he, h⟩ := ok_of_bind h
  cases h
  have he' := entity_eq_ok_iff.1 he
  refine ⟨uttered_bubble he' (fun _ => rfl) rfl, ?_⟩
  rw [speechSeq_eq he']

theorem uttered_clear {w w' : World} (self : Self) {kind : SpeechKind} {seq : Nat}
    (h : w.clearSpeech self.entity kind seq = .ok w') :
    w.Uttered (.cleared self kind seq (w.renewed w' self.entity)) w' ∧
      (w.renewed w' self.entity = true ↔ seq = w.speechSeq self.entity) := by
  obtain ⟨e, he, h⟩ := ok_of_bind h
  have he' := entity_eq_ok_iff.1 he
  rw [speechSeq_eq he']
  split at h
  next hseq =>
    subst hseq
    cases h
    have htook : w.Uttered (.cleared self kind e.speechSeq true) _ :=
      uttered_bubble he' (fun _ => rfl) rfl
    rw [htook.renewed, show changes self.entity (.cleared self kind e.speechSeq true) = true by
      simp [changes]]
    exact ⟨htook, by simp⟩
  next hseq =>
    cases h
    have hsame : w.renewed w self.entity = false := by simp [renewed]
    rw [hsame]
    refine ⟨⟨fun id => by simp [changes], fun _ id => by simp [told, changes]⟩, ?_⟩
    simp [Ne.symm hseq]

theorem Called.uttered {w w' : World} {c : SpeechCall} (h : w.Called c w') : w.Uttered c w' := by
  cases h with
  | say self h => exact (uttered_say self h).1
  | clear self h => exact (uttered_clear self h).1

/-! ### Many calls -/

theorem eq_concat_cases {α : Type} {log before after : List α} {c x : α}
    (h : log ++ [c] = before ++ x :: after) :
    (after = [] ∧ before = log ∧ x = c) ∨ ∃ after', after = after' ++ [c] ∧
      log = before ++ x :: after' := by
  rcases List.eq_nil_or_concat after with rfl | ⟨after', last, rfl⟩
  · obtain ⟨hlog, hc⟩ := List.append_inj' h rfl
    exact .inl ⟨rfl, hlog.symm, (List.cons.inj hc).1.symm⟩
  · rw [List.concat_eq_append, ← List.cons_append, ← List.append_assoc] at h
    obtain ⟨hlog, hc⟩ := List.append_inj' h rfl
    exact .inr ⟨after', by rw [List.concat_eq_append, hc], hlog⟩

namespace Spoken

variable {run : Bool} {w w' : World} {log more : List SpeechCall}

theorem split (h : Spoken run w (log ++ more) w') :
    ∃ v, Spoken run w log v ∧ Spoken run v more w' := by
  generalize hall : log ++ more = all at h
  induction h generalizing more with
  | refl =>
    obtain ⟨rfl, rfl⟩ := List.append_eq_nil_iff.1 hall
    exact ⟨w, .refl w, .refl w⟩
  | other _ hm ih =>
    obtain ⟨v, hlog, hmore⟩ := ih hall
    exact ⟨v, hlog, .other hmore hm⟩
  | call h hr hc ih =>
    rcases List.eq_nil_or_concat more with rfl | ⟨more', last, rfl⟩
    · rw [List.append_nil] at hall
      exact ⟨_, hall ▸ .call h hr hc, .refl _⟩
    · rw [List.concat_eq_append, ← List.append_assoc] at hall
      obtain ⟨hlog, hlast⟩ := List.append_inj' hall rfl
      obtain ⟨v, hlog, hmore⟩ := ih hlog
      rw [List.concat_eq_append, hlast]
      exact ⟨v, hlog, .call hmore hr hc⟩

theorem number (h : Spoken run w log w') (id : EntityId) :
    w'.speechSeq id = w.speechSeq id + log.countP (changes id) := by
  induction h with
  | refl => rfl
  | other _ hm ih => rw [hm.number, ih]
  | call _ _ hc ih =>
    rw [hc.uttered.number, ih, List.countP_append, List.countP_singleton, Nat.add_assoc]

theorem bubbles (h : Spoken true w log w') (id : EntityId) :
    w'.bubbles id = w.bubbles id ++ told id log := by
  induction h with
  | refl => exact (List.append_nil _).symm
  | other _ hm ih => rw [hm.bubbles, ih]
  | call _ hr hc ih => rw [hc.uttered.bubbles (hr rfl), ih, told_append, List.append_assoc]

variable {before after : List SpeechCall} {self : Self} {kind : SpeechKind} {seq : Nat}

theorem called {c : SpeechCall} (h : Spoken run w (before ++ c :: after) w') :
    ∃ v v', Spoken run w before v ∧ v.Called c v' := by
  generalize hall : before ++ c :: after = all at h
  induction h generalizing after with
  | refl => simp at hall
  | other _ _ ih => exact ih hall
  | call h _ hc ih =>
    rcases eq_concat_cases hall.symm with ⟨-, rfl, rfl⟩ | ⟨after', -, hlog⟩
    · exact ⟨_, _, h, hc⟩
    · exact ih hlog.symm

theorem seq_of_said {text : String} {millis : Option Nat}
    (h : Spoken run w (before ++ .said self kind text millis seq :: after) w') :
    seq = w.speechSeq self.entity + before.countP (changes self.entity) + 1 := by
  obtain ⟨v, v', hbefore, hc⟩ := h.called
  cases hc with
  | say self hs => rw [(uttered_say self hs).2, hbefore.number]

theorem took_iff {took : Bool}
    (h : Spoken run w (before ++ .cleared self kind seq took :: after) w') :
    took = true ↔ seq = w.speechSeq self.entity + before.countP (changes self.entity) := by
  obtain ⟨v, v', hbefore, hc⟩ := h.called
  cases hc with
  | clear self hs => rw [(uttered_clear self hs).2, hbefore.number]

end Spoken

/-! ### Bubbles and their times -/

/-- Whoever takes a bubble away has shown it before. -/
def Owned (log : List SpeechCall) : Prop :=
  ∀ {before after self kind seq took}, log = before ++ .cleared self kind seq took :: after →
    ∃ text millis, .said self kind text millis seq ∈ before

/-- Calls that have led from one world to another do to the bubbles what they should. -/
structure Faithful (run : Bool) (w : World) (log : List SpeechCall) (w' : World) : Prop where
  /-- A bubble is taken away if and only if nothing has changed since it was shown. -/
  effective : ∀ {earlier since after self kind text millis seq took},
    log = earlier ++ .said self kind text millis seq :: since ++
      .cleared self kind seq took :: after →
    (took = true ↔ ∀ c ∈ since, c.changes self.entity = false)
  once : ∀ {before after self kind seq}, log = before ++ .cleared self kind seq true :: after →
    ∀ {other kind' took}, .cleared other kind' seq took ∈ after → other.entity = self.entity →
      took = false
  heard : run = true → ∀ id, w'.bubbles id = w.bubbles id ++ told id log
  points : ∀ {before after}, log = before ++ after →
    ∃ v, Spoken run w before v ∧ Spoken run v after w'
  /-- At every point of a run the host shows the bubble that was said last, unless it was taken
  away. -/
  shown : ∀ {earlier since after self kind text millis seq},
    log = earlier ++ .said self kind text millis seq :: since ++ after →
    (∀ c ∈ since, c.speaksFor self.entity = false) →
    ∀ v, Spoken true w (earlier ++ .said self kind text millis seq :: since) v →
      (.cleared self kind seq true ∈ since →
        (v.bubbles self.entity).getLast? = some (.speechBubble self.entity "" kind none)) ∧
      (.cleared self kind seq true ∉ since →
        (v.bubbles self.entity).getLast? = some (.speechBubble self.entity text kind millis))

namespace Spoken

variable {run : Bool} {w w' : World} {earlier since after : List SpeechCall} {c : SpeechCall}
  {self other : Self} {kind kind' : SpeechKind} {text : String} {millis : Option Nat} {seq : Nat}
  {took : Bool}

theorem effective (h : Spoken run w (earlier ++ .said self kind text millis seq :: since ++
      .cleared self kind seq took :: after) w') :
    took = true ↔ ∀ c ∈ since, c.changes self.entity = false := by
  -- Both calls are about one number, and what came between them has raised the entity's.
  have htook := h.took_iff
  rw [List.append_assoc] at h
  have hseq := h.seq_of_said
  have hself : changes self.entity (.said self kind text millis seq) = true := by simp [changes]
  have hzero : since.countP (changes self.entity) = 0 ↔
      ∀ c ∈ since, c.changes self.entity = false := by
    simp [List.countP_eq_zero]
  rw [htook, ← hzero, List.countP_append, List.countP_cons_of_pos hself]
  omega

theorem once (h : Spoken run w (earlier ++ .cleared self kind seq true :: after) w')
    (hmem : .cleared other kind' seq took ∈ after) (hother : other.entity = self.entity) :
    took = false := by
  obtain ⟨between, rest, rfl⟩ := List.append_of_mem hmem
  -- The first of the two has raised the number beyond that of the second.
  have hfirst := h.took_iff.1 rfl
  rw [← List.cons_append, ← List.append_assoc] at h
  have hsecond := h.took_iff
  have hself : changes self.entity (.cleared self kind seq true) = true := by simp [changes]
  rw [hother, List.countP_append, List.countP_cons_of_pos hself] at hsecond
  refine Bool.eq_false_iff.2 fun htook => ?_
  have hlater := hsecond.1 htook
  omega

/-- After a bubble was shown and no other, nothing changes but that this one is taken away. -/
theorem eq_of_changes
    (h : Spoken run w (earlier ++ .said self kind text millis seq :: since ++ after) w')
    (ho : Owned (earlier ++ .said self kind text millis seq :: since ++ after))
    (hlast : ∀ c ∈ since, c.speaksFor self.entity = false) (hc : c ∈ since)
    (hchanges : c.changes self.entity = true) : c = .cleared self kind seq true := by
  cases c with
  | said other kind' text' millis' seq' =>
    have hnot : changes self.entity (.said other kind' text' millis' seq') = false := hlast _ hc
    rw [hchanges] at hnot
    cases hnot
  | cleared other kind' seq' took =>
    simp only [changes, Bool.and_eq_true, decide_eq_true_eq] at hchanges
    obtain ⟨rfl, hother⟩ := hchanges
    obtain ⟨between, since', rfl⟩ := List.append_of_mem hc
    have hlog : earlier ++ .said self kind text millis seq ::
        (between ++ .cleared other kind' seq' true :: since') ++ after =
        (earlier ++ .said self kind text millis seq :: between) ++
          .cleared other kind' seq' true :: (since' ++ after) := by
      simp
    obtain ⟨text', millis', hsaid⟩ := ho hlog
    rcases List.mem_append.1 hsaid with hsaid | hsaid
    · -- Its own bubble came before the last one, and so it is too late.
      obtain ⟨before, between', rfl⟩ := List.append_of_mem hsaid
      rw [hlog, List.append_assoc before, List.cons_append] at h
      have hnone := h.effective.1 rfl (.said self kind text millis seq) (by simp)
      simp [changes, hother] at hnone
    rcases List.mem_cons.1 hsaid with hsaid | hsaid
    · cases hsaid
      rfl
    · have hnot := hlast _ (List.mem_append_left _ hsaid)
      simp [speaksFor, hother] at hnot

theorem getLast?_bubbles (h : Spoken true w (earlier ++ c :: since) w') {id : EntityId}
    (hc : c.changes id = true) (hsince : ∀ c ∈ since, c.changes id = false) :
    (w'.bubbles id).getLast? = some c.event := by
  have hnone : told id since = [] := by
    rw [told, List.filter_eq_nil_iff.2 fun c hc => by simp [hsince c hc], List.map_nil]
  have hlast : told id (c :: since) = [c.event] := by
    have hcons := told_append id [c] since
    rw [hnone, List.append_nil] at hcons
    simpa [told, hc] using hcons
  rw [h.bubbles, told_append, hlast, ← List.append_assoc, List.getLast?_concat]

theorem shown (h : Spoken run w (earlier ++ .said self kind text millis seq :: since ++ after) w')
    (ho : Owned (earlier ++ .said self kind text millis seq :: since ++ after))
    (hlast : ∀ c ∈ since, c.speaksFor self.entity = false) {v : World}
    (hv : Spoken true w (earlier ++ .said self kind text millis seq :: since) v) :
    (.cleared self kind seq true ∈ since →
      (v.bubbles self.entity).getLast? = some (.speechBubble self.entity "" kind none)) ∧
    (.cleared self kind seq true ∉ since →
      (v.bubbles self.entity).getLast? = some (.speechBubble self.entity text kind millis)) := by
  have honly := fun c (hc : c ∈ since) => h.eq_of_changes ho hlast hc
  refine ⟨fun hgone => ?_, fun hstays => ?_⟩
  · obtain ⟨between, since', rfl⟩ := List.append_of_mem hgone
    have hlog : earlier ++ .said self kind text millis seq ::
        (between ++ .cleared self kind seq true :: since') =
        (earlier ++ .said self kind text millis seq :: between) ++
          .cleared self kind seq true :: since' := by
      simp
    rw [hlog] at hv
    refine hv.getLast?_bubbles (by simp [changes]) fun c hc => ?_
    refine Bool.eq_false_iff.2 fun hchanges => ?_
    -- It would be the same call once more.
    have heq := honly c (by simp [hc]) hchanges
    cases hv.once (heq ▸ hc) rfl
  · refine hv.getLast?_bubbles (by simp [changes]) fun c hc => ?_
    exact Bool.eq_false_iff.2 fun hchanges => hstays (honly c hc hchanges ▸ hc)

/-- A call about a bubble of one's own takes it away if and only if it is still there. -/
theorem faithful {log : List SpeechCall} (h : Spoken run w log w') (ho : Owned log) :
    Faithful run w log w' where
  effective := by
    rintro earlier since after self kind text millis seq took rfl
    exact h.effective
  once := by
    rintro before after self kind seq rfl other kind' took
    exact h.once
  heard := by
    rintro rfl
    exact h.bubbles
  points := by
    rintro before after rfl
    exact h.split
  shown := by
    rintro earlier since after self kind text millis seq rfl hlast v hv
    exact h.shown ho hlast hv

end Spoken

/-! ### Keeping a log -/

/-- Calls in a run have led from one world to another, each about bubbles of one's own. -/
structure Logged (start : World) (log : List SpeechCall) (w : World) : Prop where
  spoken : Spoken true start log w
  owned : Owned log

theorem owned_concat {log : List SpeechCall} {c : SpeechCall} (h : Owned log)
    (hc : ∀ {self kind seq took}, c = .cleared self kind seq took →
      ∃ text millis, .said self kind text millis seq ∈ log) : Owned (log ++ [c]) := by
  intro before after self kind seq took hlog
  rcases eq_concat_cases hlog with ⟨-, rfl, hlast⟩ | ⟨after', -, hlog⟩
  · exact hc hlast.symm
  · exact h hlog

namespace Logged

variable {start w w' : World} {log : List SpeechCall}

theorem refl (w : World) : w.Logged [] w :=
  ⟨.refl w, fun h => absurd h (by simp)⟩

theorem mute (h : start.Logged log w) (hm : w.Mute w') : start.Logged log w' :=
  ⟨h.spoken.other hm, h.owned⟩

theorem said (h : start.Logged log w) (hr : w.running = true) (self : Self) {kind : SpeechKind}
    {text : String} {secs : Option Float} {seq : Nat}
    (hs : w.say self.entity kind text secs = .ok (seq, w')) :
    start.Logged (log ++ [.said self kind text (secs.map wholeMillis) seq]) w' := by
  refine ⟨.call h.spoken (fun _ => hr) (.say self hs), owned_concat h.owned fun hc => ?_⟩
  cases hc

theorem cleared (h : start.Logged log w) (hr : w.running = true) {self : Self} {kind : SpeechKind}
    {seq : Nat} (hs : w.clearSpeech self.entity kind seq = .ok w')
    (hown : ∃ text millis, .said self kind text millis seq ∈ log) :
    start.Logged (log ++ [.cleared self kind seq (w.renewed w' self.entity)]) w' := by
  refine ⟨.call h.spoken (fun _ => hr) (.clear self hs), owned_concat h.owned fun hc => ?_⟩
  cases hc
  exact hown

end Logged

end World

end SpriteStage
