import SpriteStage.Script.Stmt

/-!
The places of a script.

The statements of a script are numbered in the order of its text: a body comes after the statement
that it belongs to, and the branch that is taken before the other one. A place is a statement under
its number, or a pass of the loop or wait with that number. No place is listed twice
(`nodup_places`), and there are as many places of statements as statements (`length_stmts`). The
points of a script are its statements by their numbers, each with what follows it in its list.
-/

namespace SpriteStage

inductive Place where
  | stmt (number : Nat) (s : Stmt)
  /-- A pass of a loop begins, or the condition of a wait is looked at. -/
  | pass (number : Nat)

namespace Place

def number : Place → Nat
  | .stmt n _ | .pass n => n

def stmt? : Place → Option Stmt
  | .stmt _ s => some s
  | .pass _ => none

theorem filterMap_stmt (k : Nat) (s : Stmt) (l : List Place) :
    (Place.stmt k s :: l).filterMap stmt? = s :: l.filterMap stmt? := rfl

theorem filterMap_pass (k : Nat) (l : List Place) :
    (Place.pass k :: l).filterMap stmt? = l.filterMap stmt? := rfl

end Place

mutual

/-- How many statements there are, at all depths. -/
def Stmt.size : Stmt → Nat
  | .act _ | .waitUntil .. => 1
  | .repeatTimes _ body | .repeatUntil _ body | .forever body => 1 + sizeOfBody body
  | .branch _ thenBody elseBody => 1 + sizeOfBody thenBody + sizeOfBody elseBody

def sizeOfBody : List Stmt → Nat
  | [] => 0
  | s :: rest => s.size + sizeOfBody rest

end

mutual

/-- The places of a statement that has the number `k`. -/
def Stmt.places (k : Nat) : Stmt → List Place
  | .act a => [.stmt k (.act a)]
  | .waitUntil condition syncMouse => [.stmt k (.waitUntil condition syncMouse), .pass k]
  | .repeatTimes times body => .stmt k (.repeatTimes times body) :: .pass k :: placesOf (k + 1) body
  | .repeatUntil condition body =>
    .stmt k (.repeatUntil condition body) :: .pass k :: placesOf (k + 1) body
  | .forever body => .stmt k (.forever body) :: .pass k :: placesOf (k + 1) body
  | .branch condition thenBody elseBody =>
    .stmt k (.branch condition thenBody elseBody) ::
      (placesOf (k + 1) thenBody ++ placesOf (k + 1 + sizeOfBody thenBody) elseBody)

/-- The places of a body whose first statement has the number `k`. -/
def placesOf (k : Nat) : List Stmt → List Place
  | [] => []
  | s :: rest => s.places k ++ placesOf (k + s.size) rest

end

/-- What a loop repeats. -/
def Stmt.loopBody? : Stmt → Option (List Stmt)
  | .repeatTimes _ body | .repeatUntil _ body | .forever body => some body
  | _ => none

namespace Stmt

variable {s : Stmt} {body : List Stmt}

theorem size_of_loopBody (h : s.loopBody? = some body) : s.size = 1 + sizeOfBody body := by
  cases s with
  | act | waitUntil | branch => cases h
  | repeatTimes | repeatUntil | forever => cases h; rw [size]

theorem places_of_loopBody (h : s.loopBody? = some body) (k : Nat) :
    s.places k = .stmt k s :: .pass k :: placesOf (k + 1) body := by
  cases s with
  | act | waitUntil | branch => cases h
  | repeatTimes | repeatUntil | forever => cases h; rw [places]

/-- What is shown of statements and of bodies, one from the other. All loops are one case. -/
theorem induction {P : Stmt → Prop} {Q : List Stmt → Prop} (act : ∀ a, P (.act a))
    (waitUntil : ∀ condition syncMouse, P (.waitUntil condition syncMouse))
    (loop : ∀ s body, s.loopBody? = some body → Q body → P s)
    (branch : ∀ condition thenBody elseBody, Q thenBody → Q elseBody →
      P (.branch condition thenBody elseBody))
    (nil : Q []) (cons : ∀ s rest, P s → Q rest → Q (s :: rest)) : (∀ s, P s) ∧ ∀ body, Q body := by
  have hboth : ∀ s, P s := fun s =>
    @Stmt.rec P Q act waitUntil
      (fun _ body hbody => loop _ body rfl hbody) (fun _ body hbody => loop _ body rfl hbody)
      (fun body hbody => loop _ body rfl hbody) branch nil cons s
  refine ⟨hboth, fun body => ?_⟩
  induction body with
  | nil => exact nil
  | cons s rest ih => exact cons s rest (hboth s) ih

end Stmt

/-! ### The numbers of the places -/

theorem number_bounds :
    (∀ (s : Stmt) k, ∀ p ∈ s.places k, k ≤ p.number ∧ p.number < k + s.size) ∧
    ∀ body k, ∀ p ∈ placesOf k body, k ≤ p.number ∧ p.number < k + sizeOfBody body := by
  refine Stmt.induction (fun a k p hp => ?_) (fun condition syncMouse k p hp => ?_)
    (fun s body hs hbody k p hp => ?_) (fun condition thenBody elseBody ha hb k p hp => ?_)
    (fun k p hp => ?_) (fun s rest hs hrest k p hp => ?_)
  · rw [Stmt.places, List.mem_singleton] at hp
    simp [hp, Place.number, Stmt.size]
  · rw [Stmt.places, List.mem_cons, List.mem_singleton] at hp
    rcases hp with rfl | rfl <;> simp [Place.number, Stmt.size]
  · rw [Stmt.places_of_loopBody hs, List.mem_cons, List.mem_cons] at hp
    rw [Stmt.size_of_loopBody hs]
    rcases hp with rfl | rfl | hp
    · simp only [Place.number]
      omega
    · simp only [Place.number]
      omega
    · have hbound := hbody (k + 1) p hp
      omega
  · rw [Stmt.places, List.mem_cons, List.mem_append] at hp
    rw [Stmt.size]
    rcases hp with rfl | hp | hp
    · simp only [Place.number]
      omega
    · have hbound := ha (k + 1) p hp
      omega
    · have hbound := hb (k + 1 + sizeOfBody thenBody) p hp
      omega
  · rw [placesOf] at hp
    cases hp
  · rw [placesOf, List.mem_append] at hp
    rw [sizeOfBody]
    rcases hp with hp | hp
    · have hbound := hs k p hp
      omega
    · have hbound := hrest (k + s.size) p hp
      omega

/-- Lists of places with numbers apart. -/
theorem nodup_append_of_number {l l' : List Place} {k : Nat} (h : l.Nodup) (h' : l'.Nodup)
    (hl : ∀ p ∈ l, p.number < k) (hl' : ∀ p ∈ l', k ≤ p.number) : (l ++ l').Nodup := by
  refine List.nodup_append.2 ⟨h, h', fun p hp q hq he => ?_⟩
  have hlow := hl p hp
  have hhigh := hl' q hq
  rw [he] at hlow
  omega

theorem nodup_places :
    (∀ (s : Stmt) k, (s.places k).Nodup) ∧ ∀ body k, (placesOf k body).Nodup := by
  have hstmt := number_bounds.1
  have hbound := number_bounds.2
  refine Stmt.induction (fun a k => ?_) (fun condition syncMouse k => ?_)
    (fun s body hs hbody k => ?_) (fun condition thenBody elseBody ha hb k => ?_)
    (fun k => ?_) (fun s rest hs hrest k => ?_)
  · simp [Stmt.places]
  · simp [Stmt.places]
  · have hpair : [Place.stmt k s, .pass k].Nodup := by simp
    rw [Stmt.places_of_loopBody hs]
    refine nodup_append_of_number (k := k + 1) hpair (hbody (k + 1)) ?_ fun p hp => ?_
    · simp [Place.number]
    · exact (hbound body (k + 1) p hp).1
  · have hbodies : (placesOf (k + 1) thenBody ++
        placesOf (k + 1 + sizeOfBody thenBody) elseBody).Nodup := by
      exact nodup_append_of_number (ha _) (hb _) (fun p hp => (hbound thenBody (k + 1) p hp).2)
        fun p hp => (hbound elseBody _ p hp).1
    rw [Stmt.places]
    refine nodup_append_of_number (k := k + 1) (l := [_]) (by simp) hbodies ?_ fun p hp => ?_
    · simp [Place.number]
    · rcases List.mem_append.1 hp with hp | hp
      · exact (hbound thenBody (k + 1) p hp).1
      · have hnumber := hbound elseBody _ p hp
        omega
  · rw [placesOf]
    exact .nil
  · rw [placesOf]
    exact nodup_append_of_number (hs k) (hrest _) (fun p hp => (hstmt s k p hp).2)
      fun p hp => (hbound rest _ p hp).1

theorem length_stmts :
    (∀ (s : Stmt) k, ((s.places k).filterMap Place.stmt?).length = s.size) ∧
    ∀ body k, ((placesOf k body).filterMap Place.stmt?).length = sizeOfBody body := by
  refine Stmt.induction (fun a k => ?_) (fun condition syncMouse k => ?_)
    (fun s body hs hbody k => ?_) (fun condition thenBody elseBody ha hb k => ?_)
    (fun k => ?_) (fun s rest hs hrest k => ?_)
  · rfl
  · rfl
  · have hlength := hbody (k + 1)
    rw [Stmt.places_of_loopBody hs, Stmt.size_of_loopBody hs, Place.filterMap_stmt,
      Place.filterMap_pass, List.length_cons]
    omega
  · have hthen := ha (k + 1)
    have helse := hb (k + 1 + sizeOfBody thenBody)
    rw [Stmt.places, Stmt.size, Place.filterMap_stmt, List.filterMap_append, List.length_cons,
      List.length_append]
    omega
  · rfl
  · have hfirst := hs k
    have hothers := hrest (k + s.size)
    rw [placesOf, sizeOfBody, List.filterMap_append, List.length_append]
    omega

/-! ### Points -/

mutual

/-- The points inside the statement with the number `k`: the number of each statement there, with
what stands in its list from it on. -/
def Stmt.points (k : Nat) : Stmt → List (Nat × List Stmt)
  | .act _ | .waitUntil .. => []
  | .repeatTimes _ body | .repeatUntil _ body | .forever body => pointsOf (k + 1) body
  | .branch _ thenBody elseBody =>
    pointsOf (k + 1) thenBody ++ pointsOf (k + 1 + sizeOfBody thenBody) elseBody

/-- The points of a body whose first statement has the number `k`. -/
def pointsOf (k : Nat) : List Stmt → List (Nat × List Stmt)
  | [] => []
  | s :: rest => (k, s :: rest) :: (s.points k ++ pointsOf (k + s.size) rest)

end

theorem Stmt.points_of_loopBody {s : Stmt} {body : List Stmt} (h : s.loopBody? = some body)
    (k : Nat) : s.points k = pointsOf (k + 1) body := by
  cases s with
  | act | waitUntil | branch => cases h
  | repeatTimes | repeatUntil | forever => cases h; rw [points]

theorem Stmt.size_pos (s : Stmt) : 0 < s.size := by
  cases s <;> simp only [size] <;> omega

theorem point_bounds :
    (∀ (s : Stmt) k, ∀ q ∈ s.points k, k < q.1 ∧ q.1 < k + s.size) ∧
    ∀ body k, ∀ q ∈ pointsOf k body, k ≤ q.1 ∧ q.1 < k + sizeOfBody body := by
  refine Stmt.induction (fun a k q hq => ?_) (fun condition syncMouse k q hq => ?_)
    (fun s body hs hbody k q hq => ?_) (fun condition thenBody elseBody ha hb k q hq => ?_)
    (fun k q hq => ?_) (fun s rest hs hrest k q hq => ?_)
  · rw [Stmt.points] at hq
    cases hq
  · rw [Stmt.points] at hq
    cases hq
  · rw [Stmt.points_of_loopBody hs] at hq
    have hbound := hbody (k + 1) q hq
    rw [Stmt.size_of_loopBody hs]
    omega
  · rw [Stmt.points, List.mem_append] at hq
    rw [Stmt.size]
    rcases hq with hq | hq
    · have hbound := ha (k + 1) q hq
      omega
    · have hbound := hb (k + 1 + sizeOfBody thenBody) q hq
      omega
  · rw [pointsOf] at hq
    cases hq
  · have hpos := s.size_pos
    rw [pointsOf, List.mem_cons, List.mem_append] at hq
    rw [sizeOfBody]
    rcases hq with rfl | hq | hq
    · dsimp only
      omega
    · have hbound := hs k q hq
      omega
    · have hbound := hrest (k + s.size) q hq
      omega

end SpriteStage
