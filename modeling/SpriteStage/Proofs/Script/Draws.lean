import SpriteStage.Machine.Execute
import SpriteStage.Proofs.Script.Refusal

/-!
What the evaluation of an expression does to the machine: it draws one random number at each random
node that it comes to, and nothing else changes. It fails only for an entity that does not exist.

The nodes that evaluation comes to depend on the values found on the way, since the second operand of
a conjunction or a disjunction may be left out (`Expr.reached`).
-/

namespace SpriteStage

/-! ### Draws -/

namespace SplitMix

theorem snd_drawBetween (r : SplitMix) (low high : Int64) :
    (r.drawBetween low high).2 = r.draw.2 := by
  simp only [drawBetween]

theorem snd_drawUnit (r : SplitMix) : r.drawUnit.2 = r.draw.2 := by
  simp only [drawUnit]

/-- The random source after some draws. -/
def after (r : SplitMix) : Nat → SplitMix
  | 0 => r
  | n + 1 => (r.after n).draw.2

theorem after_add (r : SplitMix) (n k : Nat) : r.after (n + k) = (r.after n).after k := by
  induction k with
  | zero => rfl
  | succ k ih => rw [← Nat.add_assoc, after, after, ih]

end SplitMix

-- Whether the number is to be a whole one or not, it takes one draw.
theorem Value.snd_drawBetween (a b : Value) (r : SplitMix) : (a.drawBetween b r).2 = r.after 1 := by
  simp only [drawBetween, apply_ite Prod.snd, SplitMix.snd_drawBetween, SplitMix.snd_drawUnit,
    ite_self, SplitMix.after]

/-! ### Computations that draw -/

namespace Eval

variable {α β γ : Type} {id : EntityId}

/-- What a result leads to; a failure leads to nothing. -/
def onward (x : Eval α) (r : SplitMix) (nothing : γ) (k : α → SplitMix → γ) : γ :=
  match x.run.run r with
  | (.ok a, r) => k a r
  | (.error _, _) => nothing

theorem onward_of_ok {x : Eval α} {r r' : SplitMix} {a : α} (h : x.run.run r = (.ok a, r'))
    (nothing : γ) (k : α → SplitMix → γ) : x.onward r nothing k = k a r' := by
  simp only [onward, h]

theorem onward_const (x : Eval α) (r : SplitMix) (c : γ) : (x.onward r c fun _ _ => c) = c := by
  unfold onward
  split <;> rfl

theorem map_onward {δ : Type} (f : γ → δ) (x : Eval α) (r : SplitMix) (nothing : γ)
    (k : α → SplitMix → γ) :
    f (x.onward r nothing k) = x.onward r (f nothing) fun a r => f (k a r) := by
  unfold onward
  split <;> rfl

/-- From each state, the computation has a result after so many draws, or fails after at most so
many because the entity does not exist. -/
def Spends (x : Eval α) (id : EntityId) (count : SplitMix → Nat) : Prop :=
  ∀ r, (∃ a, x.run.run r = (.ok a, r.after (count r))) ∨
    ∃ n ≤ count r, x.run.run r = (.error (.unknownEntity id), r.after n)

theorem spends_pure (a : α) : Spends (pure a : Eval α) id fun _ => 0 :=
  fun _ => .inl ⟨a, rfl⟩

theorem spends_ofExcept {x : Except ScriptError α}
    (h : ∀ e, x = .error e → e = .unknownEntity id) : Spends (ofExcept x) id fun _ => 0 := by
  intro r
  cases x with
  | ok a => exact .inl ⟨a, rfl⟩
  | error e =>
    rw [h e rfl]
    exact .inr ⟨0, Nat.le_refl 0, rfl⟩

theorem spends_draw {f : SplitMix → α × SplitMix} (h : ∀ r, (f r).2 = r.after 1) :
    Spends (draw f) id fun _ => 1 := by
  intro r
  refine .inl ⟨(f r).1, ?_⟩
  rw [← h r]
  rfl

-- If the first part fails, any number will do for the draws of the second.
theorem spends_bind {x : Eval α} {f : α → Eval β} {count : SplitMix → Nat}
    {k : α → SplitMix → Nat} (hx : x.Spends id count) (hf : ∀ a, (f a).Spends id (k a))
    (spare : Nat) : (x >>= f).Spends id fun r => count r + x.onward r spare k := by
  intro r
  dsimp only
  rw [run_bind]
  rcases hx r with ⟨a, ha⟩ | ⟨n, hn, he⟩
  · rw [onward_of_ok ha, ha]
    rcases hf a (r.after (count r)) with ⟨b, hb⟩ | ⟨n, hn, he⟩
    · refine .inl ⟨b, ?_⟩
      rw [SplitMix.after_add]
      exact hb
    · refine .inr ⟨count r + n, Nat.add_le_add_left hn (count r), ?_⟩
      rw [SplitMix.after_add]
      exact he
  · rw [he]
    exact .inr ⟨n, Nat.le_add_right_of_le hn, rfl⟩

theorem Spends.congr {x : Eval α} {count count' : SplitMix → Nat} (h : x.Spends id count)
    (hc : ∀ r, count r = count' r) : x.Spends id count' := by
  rwa [funext hc] at h

theorem spends_before {x : Eval α} {f : α → Eval β} {count : SplitMix → Nat} {n : Nat}
    (hx : x.Spends id count) (hf : ∀ a, (f a).Spends id fun _ => n) :
    (x >>= f).Spends id fun r => count r + n := by
  refine (spends_bind hx hf n).congr fun r => ?_
  rw [onward_const]

end Eval

open Eval

/-! ### Questions about an entity -/

section Entity

variable {w : World} {id : EntityId} {error : ScriptError}

-- A question begins with the entity that it is about, and nothing in it fails after that.
theorem World.error_of_entity_bind {α : Type} {f : Entity → Except ScriptError α}
    (hf : ∀ e, ∃ a, f e = .ok a) (h : w.entity id >>= f = .error error) :
    error = .unknownEntity id := by
  unfold entity at h
  cases he : w.entities[id]? with
  | some e =>
    obtain ⟨a, ha⟩ := hf e
    rw [he] at h
    exact absurd (ha.symm.trans h) (by simp)
  | none =>
    rw [he] at h
    exact (Except.error.inj h).symm

theorem World.error_of_query {q : Query} (h : w.query id q = .error error) :
    error = .unknownEntity id :=
  error_of_entity_bind (fun _ => ⟨_, rfl⟩) h

theorem World.error_of_touching {target : String} (h : w.touching id target = .error error) :
    error = .unknownEntity id := by
  refine error_of_entity_bind (fun e => ?_) h
  split
  · exact ⟨_, rfl⟩
  · split
    · exact ⟨_, rfl⟩
    · split
      · exact ⟨_, rfl⟩
      · split <;> exact ⟨_, rfl⟩

theorem World.error_of_distanceTo {target : String} (h : w.distanceTo id target = .error error) :
    error = .unknownEntity id :=
  error_of_entity_bind (fun _ => ⟨_, rfl⟩) h

end Entity

/-! ### Expressions -/

namespace Expr

def isRandom : Expr → Bool
  | .random .. => true
  | _ => false

/-- The nodes that the evaluation comes to, in the order in which it does. -/
def reached (w : World) (id : EntityId) (e : Expr) (r : SplitMix) : List Expr :=
  e :: match e with
    | .literal _ | .var _ | .sense _ => []
    | .not a | .lengthOf a | .round a | .math _ a | .keyPressed a | .touching a | .distanceTo a =>
      a.reached w id r
    | .arith _ a b | .compare _ a b | .join a b | .letterOf a b | .contains a b | .random a b =>
      a.reached w id r ++ (a.eval w id).onward r [] fun _ r => b.reached w id r
    | .and a b =>
      a.reached w id r ++ (a.eval w id).onward r [] fun v r =>
        if v.toBool then b.reached w id r else []
    | .or a b =>
      a.reached w id r ++ (a.eval w id).onward r [] fun v r =>
        if v.toBool then [] else b.reached w id r

/-- How many random nodes the evaluation comes to. -/
def draws (w : World) (id : EntityId) (e : Expr) (r : SplitMix) : Nat :=
  (e.reached w id r).countP isRandom

theorem countP_second {p : Expr → Bool} (first : List Expr) (x : Eval Value) (r : SplitMix)
    (k : Value → SplitMix → List Expr) :
    (first ++ x.onward r [] k).countP p =
      first.countP p + x.onward r 0 fun v r => (k v r).countP p := by
  rw [List.countP_append, map_onward (List.countP p)]
  rfl

theorem spends_eval (w : World) (id : EntityId) (e : Expr) :
    (e.eval w id).Spends id (e.draws w id) := by
  induction e with
  | literal value => exact spends_pure value
  | var name => exact spends_pure _
  | sense query => exact spends_ofExcept fun _ => World.error_of_query
  | not _ ih | lengthOf _ ih | round _ ih | math _ _ ih | keyPressed _ ih =>
    exact spends_before ih fun _ => spends_pure _
  | touching _ ih =>
    have hask : ∀ target, (ofExcept (w.touching id target)).Spends id fun _ => 0 :=
      fun target => spends_ofExcept fun _ => World.error_of_touching
    exact spends_before ih fun t => spends_before (hask t.toText) fun _ => spends_pure _
  | distanceTo _ ih =>
    have hask : ∀ target, (ofExcept (w.distanceTo id target)).Spends id fun _ => 0 :=
      fun target => spends_ofExcept fun _ => World.error_of_distanceTo
    exact spends_before ih fun t => spends_before (hask t.toText) fun _ => spends_pure _
  | arith _ _ _ iha ihb | compare _ _ _ iha ihb | join _ _ iha ihb | letterOf _ _ iha ihb
  | contains _ _ iha ihb =>
    refine (spends_bind iha (fun _ => spends_before ihb fun _ => spends_pure _) 0).congr fun r => ?_
    exact (countP_second _ _ _ _).symm
  | random a b iha ihb =>
    have hdraw : ∀ v v' : Value, (draw (v.drawBetween v')).Spends id fun _ => 1 :=
      fun v v' => spends_draw (v.snd_drawBetween v')
    refine (spends_bind iha (fun v => spends_before ihb fun v' =>
      spends_before (hdraw v v') fun _ => spends_pure _) 1).congr fun r => ?_
    calc a.draws w id r + (a.eval w id).onward r 1 (fun _ r => b.draws w id r + 1)
      _ = a.draws w id r + (a.eval w id).onward r 0 (fun _ r => b.draws w id r) + 1 := by
        rw [Nat.add_assoc]
        exact congrArg _ (map_onward (· + 1) (a.eval w id) r 0 fun _ => b.draws w id).symm
      _ = (a.reached w id r ++ (a.eval w id).onward r [] fun _ => b.reached w id).countP isRandom + 1 :=
        congrArg (· + 1) (countP_second _ _ _ _).symm
      _ = (Expr.random a b).draws w id r := (List.countP_cons_of_pos rfl).symm
  | and a b iha ihb =>
    refine (spends_bind (k := fun v r => if v.toBool then b.draws w id r else 0) iha
      (fun v => ?_) 0).congr fun r => ?_
    · split
      · exact spends_before ihb fun _ => spends_pure _
      · exact spends_pure _
    · refine Eq.trans ?_ (countP_second _ _ _ _).symm
      simp only [apply_ite (List.countP isRandom)]
      rfl
  | or a b iha ihb =>
    refine (spends_bind (k := fun v r => if v.toBool then 0 else b.draws w id r) iha
      (fun v => ?_) 0).congr fun r => ?_
    · split
      · exact spends_pure _
      · exact spends_before ihb fun _ => spends_pure _
    · refine Eq.trans ?_ (countP_second _ _ _ _).symm
      simp only [apply_ite (List.countP isRandom)]
      rfl

end Expr

/-! ### The theorem -/

/-- Evaluation comes to a value, and the machine goes on with it; or the entity does not exist, and
the task fails for that. In both cases the machine is as it was, but for the random numbers drawn:
one at each random node that the evaluation came to, and no more than that before a failure. -/
theorem Machine.evaluation_only_draws (m : Machine) (id : EntityId) (e : Expr) :
    ∃ n ≤ e.draws m.world id m.random, ∃ m' : Machine,
      m' = { m with random := m.random.after n } ∧
      ((∀ node ∈ e.reached m.world id m.random, node.isRandom = false) → m' = m) ∧
      ((∃ v, (∀ k, m.eval (e.eval m.world id) k = k v m') ∧ n = e.draws m.world id m.random) ∨
        m.world.entities.length ≤ id ∧
          ∀ k, m.eval (e.eval m.world id) k = .ended m' (.failed (.unknownEntity id))) := by
  have hsame : ∀ n ≤ e.draws m.world id m.random,
      (∀ node ∈ e.reached m.world id m.random, node.isRandom = false) →
      { m with random := m.random.after n } = m := by
    intro n hn hnone
    have hdraws : e.draws m.world id m.random = 0 := by
      simpa [Expr.draws, List.countP_eq_zero] using hnone
    rw [hdraws, Nat.le_zero] at hn
    rw [hn]
    rfl
  rcases e.spends_eval m.world id m.random with ⟨v, hv⟩ | ⟨n, hn, he⟩
  · refine ⟨_, Nat.le_refl _, _, rfl, hsame _ (Nat.le_refl _), .inl ⟨v, fun k => ?_, rfl⟩⟩
    simp only [Machine.eval, hv]
  · refine ⟨n, hn, _, rfl, hsame n hn, .inr ⟨?_, fun k => ?_⟩⟩
    · refine Nat.le_of_not_lt fun hlt => ?_
      obtain ⟨v, r', hv⟩ := e.total_eval hlt m.random
      rw [hv] at he
      cases he
    · simp only [Machine.eval, he]

end SpriteStage
