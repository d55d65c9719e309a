import SpriteStage.Proofs.Json.Record
import SpriteStage.Script.Json

/-!
Scripts come back from their JSON form if all their numbers are finite.

Decoding may go as deep as a value is nested. What an expression or a body is made of is nested less
deeply than itself (`depth_lt_of_mem_parts`), so the limit is never reached.
-/

namespace SpriteStage

open Json

/-! ### Names -/

@[simp]
theorem ArithOp.ofName?_name (op : ArithOp) : ofName? op.name = some op := by
  cases op <;> rfl

@[simp]
theorem CompareOp.ofName?_name (op : CompareOp) : ofName? op.name = some op := by
  cases op <;> rfl

@[simp]
theorem MathFunction.ofName?_name (f : MathFunction) : ofName? f.name = some f := by
  cases f <;> rfl

@[simp]
theorem Query.ofName?_name (q : Query) : ofName? q.name = some q := by
  cases q <;> rfl

@[simp]
theorem SpeechKind.ofName?_name (k : SpeechKind) : ofName? k.name = some k := by
  cases k <;> rfl

@[simp]
theorem StopScope.ofName?_name (s : StopScope) : ofName? s.name = some s := by
  cases s <;> rfl

theorem Json.depth_pos (j : Json) : 0 < j.depth := by
  cases j <;> simp [depth]

/-! ### Expressions -/

namespace Expr

/-- Are all numbers in the expression finite? -/
def isFinite : Expr → Bool
  | .literal value => value.isFinite
  | .var _ | .sense _ => true
  | .not a | .lengthOf a | .round a | .math _ a | .keyPressed a | .touching a | .distanceTo a =>
    a.isFinite
  | .arith _ a b | .compare _ a b | .and a b | .or a b | .join a b | .letterOf a b | .contains a b
  | .random a b => a.isFinite && b.isFinite

/-- The expressions that an expression is made of. -/
def parts : Expr → List Expr
  | .literal _ | .var _ | .sense _ => []
  | .not a | .lengthOf a | .round a | .math _ a | .keyPressed a | .touching a | .distanceTo a => [a]
  | .arith _ a b | .compare _ a b | .and a b | .or a b | .join a b | .letterOf a b | .contains a b
  | .random a b => [a, b]

theorem isFinite_of_mem_parts {e a : Expr} (h : e.isFinite = true) (ha : a ∈ e.parts) :
    a.isFinite = true := by
  cases e with
  | literal | var | sense => cases ha
  | not | lengthOf | round | math | keyPressed | touching | distanceTo =>
    cases List.mem_singleton.1 ha
    exact h
  | arith | compare | and | or | join | letterOf | contains | random =>
    rw [isFinite, Bool.and_eq_true] at h
    rw [parts, List.mem_cons, List.mem_singleton] at ha
    rcases ha with rfl | rfl
    · exact h.1
    · exact h.2

theorem depth_lt_of_mem_parts {e a : Expr} (ha : a ∈ e.parts) :
    a.toJson.depth < e.toJson.depth := by
  cases e with
  | literal | var | sense => cases ha
  | not | lengthOf | round | math | keyPressed | touching | distanceTo =>
    cases List.mem_singleton.1 ha
    simp only [toJson, Json.record, depth, depthOfFields]
    omega
  | arith | compare | and | or | join | letterOf | contains | random =>
    rw [parts, List.mem_cons, List.mem_singleton] at ha
    simp only [toJson, Json.record, depth, depthOfFields]
    rcases ha with rfl | rfl <;> omega

theorem decode_succ {e : Expr} {fuel : Nat} (standing : Standing) (h : e.isFinite = true)
    (hparts : ∀ a ∈ e.parts, decode .inside fuel a.toJson = some a) :
    decode standing (fuel + 1) e.toJson = some e := by
  cases e with
  | literal value => exact build (Value.ofJson?_toJson h) rfl
  | var => rfl
  | sense query => exact build query.ofName?_name rfl
  | not | lengthOf | round | keyPressed | touching | distanceTo =>
    exact build (hparts _ List.mem_cons_self) rfl
  | math f => exact build f.ofName?_name (build (hparts _ List.mem_cons_self) rfl)
  | and | or | join | letterOf | contains | random =>
    have hright := hparts _ (List.mem_cons_of_mem _ List.mem_cons_self)
    exact build (hparts _ List.mem_cons_self) (build hright rfl)
  | arith op | compare op =>
    have hright := hparts _ (List.mem_cons_of_mem _ List.mem_cons_self)
    exact build op.ofName?_name (build (hparts _ List.mem_cons_self) (build hright rfl))

theorem decode_toJson {e : Expr} {fuel : Nat} (standing : Standing) (h : e.isFinite = true)
    (hfuel : e.toJson.depth ≤ fuel) : decode standing fuel e.toJson = some e := by
  induction fuel generalizing e standing with
  | zero => exact absurd hfuel (Nat.not_le.2 e.toJson.depth_pos)
  | succ fuel ih =>
    refine decode_succ standing h fun a ha => ?_
    have hless := depth_lt_of_mem_parts ha
    exact ih .inside (isFinite_of_mem_parts h ha) (by omega)

theorem read_toJson {e : Expr} (standing : Standing) (h : e.isFinite = true) :
    read standing e.toJson = some e :=
  decode_toJson standing h (Nat.le_refl _)

@[simp]
theorem ofPart?_toJson {e : Expr} (h : e.isFinite = true) : ofPart? e.toJson = some e :=
  read_toJson .inside h

end Expr

/-! ### Statements -/

theorem Stmt.decode_action {a : Action} (standing : Standing) (fuel : Nat)
    (h : ∀ e ∈ a.exprs, e.isFinite = true) :
    Stmt.decode standing (fuel + 1) a.toJson = some (.act a) := by
  have hexprs := fun e he => Expr.ofPart?_toJson (h e he)
  cases a with
  | bounceOnEdge | appear | vanish | showVariable | hideVariable | nextCostume | nextBackground
  | stopAllSounds | resetTimer | syncMouse | yield => rfl
  | moveSteps | rotate | pointInDirection | setSize | changeSize | wait | broadcast | switchCostume
  | switchBackground | setVar | changeVar | playSound =>
    exact build (build (hexprs _ List.mem_cons_self) rfl) rfl
  | moveTo | moveBy | broadcastAndWait =>
    have hsecond := hexprs _ (List.mem_cons_of_mem _ List.mem_cons_self)
    exact build (build (hexprs _ List.mem_cons_self) (build hsecond rfl)) rfl
  | glide secs x y =>
    have hx := hexprs x (List.mem_cons_of_mem _ List.mem_cons_self)
    have hy := hexprs y (List.mem_cons_of_mem _ (List.mem_cons_of_mem _ List.mem_cons_self))
    exact build (build (hexprs secs List.mem_cons_self) (build hx (build hy rfl))) rfl
  | stop scope => exact build (build scope.ofName?_name rfl) rfl
  | speech kind text secs =>
    have htext := hexprs text List.mem_cons_self
    refine build (build kind.ofName?_name (build htext (build ?_ rfl))) rfl
    refine Fields.getOption_option rfl rfl fun e he => hexprs e ?_
    exact List.mem_cons_of_mem _ (Option.mem_toList.2 he)

namespace Stmt

mutual

/-- Are all numbers in the statement and its bodies finite? -/
def isFinite : Stmt → Bool
  | .act a => a.exprs.all Expr.isFinite
  | .waitUntil condition _ => condition.isFinite
  | .repeatTimes e body | .repeatUntil e body => e.isFinite && areFinite body
  | .forever body => areFinite body
  | .branch condition thenBody elseBody =>
    condition.isFinite && areFinite thenBody && areFinite elseBody

def areFinite : List Stmt → Bool
  | [] => true
  | s :: rest => s.isFinite && areFinite rest

end

theorem isFinite_of_mem {s : Stmt} {body : List Stmt} (h : areFinite body = true) (hs : s ∈ body) :
    s.isFinite = true := by
  induction body with
  | nil => cases hs
  | cons first rest ih =>
    rw [areFinite, Bool.and_eq_true] at h
    rcases List.mem_cons.1 hs with rfl | hs
    · exact h.1
    · exact ih h.2 hs

theorem listToJson_eq_map (body : List Stmt) : listToJson body = body.map toJson := by
  induction body with
  | nil => rfl
  | cons s rest ih => rw [listToJson, ih, List.map_cons]

theorem list?_listToJson {decode : Json → Option Stmt} {body : List Stmt}
    (h : ∀ s ∈ body, decode s.toJson = some s) :
    list? decode (.arr (listToJson body)) = some body := by
  rw [listToJson_eq_map]
  exact list?_list h

/-- The statements of the bodies of a statement. -/
def parts : Stmt → List Stmt
  | .act _ | .waitUntil .. => []
  | .repeatTimes _ body | .repeatUntil _ body | .forever body => body
  | .branch _ thenBody elseBody => thenBody ++ elseBody

theorem isFinite_of_mem_parts {s t : Stmt} (h : s.isFinite = true) (ht : t ∈ s.parts) :
    t.isFinite = true := by
  cases s with
  | act | waitUntil => cases ht
  | repeatTimes | repeatUntil =>
    rw [isFinite, Bool.and_eq_true] at h
    exact isFinite_of_mem h.2 ht
  | forever => exact isFinite_of_mem h ht
  | branch =>
    rw [isFinite, Bool.and_eq_true, Bool.and_eq_true] at h
    rcases List.mem_append.1 ht with ht | ht
    · exact isFinite_of_mem h.1.2 ht
    · exact isFinite_of_mem h.2 ht

theorem depth_le_of_mem {s : Stmt} {body : List Stmt} (h : s ∈ body) :
    s.toJson.depth ≤ depthOfItems (listToJson body) := by
  induction body with
  | nil => cases h
  | cons first rest ih =>
    rw [listToJson, depthOfItems]
    rcases List.mem_cons.1 h with rfl | h
    · exact Nat.le_max_left _ _
    · exact Nat.le_trans (ih h) (Nat.le_max_right _ _)

theorem depth_lt_of_mem_parts {s t : Stmt} (ht : t ∈ s.parts) :
    t.toJson.depth < s.toJson.depth := by
  cases s with
  | act | waitUntil => cases ht
  | repeatTimes | repeatUntil | forever =>
    simp only [parts] at ht
    have hbody := depth_le_of_mem ht
    simp only [toJson, Json.record, depth, depthOfFields]
    omega
  | branch =>
    simp only [toJson, Json.record, depth, depthOfFields]
    rcases List.mem_append.1 ht with ht | ht <;> have hbody := depth_le_of_mem ht <;> omega

theorem decode_succ {s : Stmt} {fuel : Nat} (standing : Standing) (h : s.isFinite = true)
    (hparts : ∀ t ∈ s.parts, decode .inside fuel t.toJson = some t) :
    decode standing (fuel + 1) s.toJson = some s := by
  cases s with
  | act a => exact decode_action standing fuel (List.all_eq_true.1 h)
  | waitUntil => exact build (Expr.ofPart?_toJson h) rfl
  | repeatTimes | repeatUntil =>
    rw [isFinite, Bool.and_eq_true] at h
    exact build (Expr.ofPart?_toJson h.1) (build (list?_listToJson hparts) rfl)
  | forever => exact build (list?_listToJson hparts) rfl
  | branch =>
    rw [isFinite, Bool.and_eq_true, Bool.and_eq_true] at h
    have hthen := list?_listToJson fun t ht => hparts t (List.mem_append_left _ ht)
    have helse := list?_listToJson fun t ht => hparts t (List.mem_append_right _ ht)
    exact build (Expr.ofPart?_toJson h.1.1) (build hthen (build helse rfl))

theorem decode_toJson {s : Stmt} {fuel : Nat} (standing : Standing) (h : s.isFinite = true)
    (hfuel : s.toJson.depth ≤ fuel) : decode standing fuel s.toJson = some s := by
  induction fuel generalizing s standing with
  | zero => exact absurd hfuel (Nat.not_le.2 s.toJson.depth_pos)
  | succ fuel ih =>
    refine decode_succ standing h fun t ht => ?_
    have hless := depth_lt_of_mem_parts ht
    exact ih .inside (isFinite_of_mem_parts h ht) (by omega)

theorem read_toJson {s : Stmt} (standing : Standing) (h : s.isFinite = true) :
    read standing s.toJson = some s :=
  decode_toJson standing h (Nat.le_refl _)

end Stmt

/-! ### Scripts and programs -/

def Script.isFinite (s : Script) : Bool :=
  Stmt.areFinite s.body

theorem Script.read_toJson {s : Script} (standing : Standing) (h : s.isFinite = true) :
    read standing s.toJson = some s := by
  refine build (Stmt.list?_listToJson fun t ht => ?_) rfl
  exact Stmt.read_toJson standing (Stmt.isFinite_of_mem h ht)

namespace EntityProgram

def isFinite (p : EntityProgram) : Bool :=
  p.onStart.all Script.isFinite && p.onKey.values.all (·.all Script.isFinite) &&
    p.onClick.all Script.isFinite && p.onMessage.values.all (·.all Script.isFinite)

theorem read_toJson {p : EntityProgram} (standing : Standing) (h : p.isFinite = true) :
    read standing p.toJson = some p := by
  simp only [isFinite, Bool.and_eq_true, List.all_eq_true, Option.all_eq_true] at h
  obtain ⟨⟨⟨hstart, hkey⟩, hclick⟩, hmessage⟩ := h
  have hscript := fun {s : Script} (hs : s.isFinite = true) => Script.read_toJson standing hs
  refine build ?_ (build ?_ (build ?_ (build ?_ rfl)))
  · exact Fields.getOption_option rfl rfl fun s hs => hscript (hstart s hs)
  · exact dict?_dict fun l hl => list?_list fun s hs => hscript (hkey l hl s hs)
  · exact list?_list fun s hs => hscript (hclick s hs)
  · exact dict?_dict fun l hl => list?_list fun s hs => hscript (hmessage l hl s hs)

end EntityProgram

def Program.isFinite (p : Program) : Bool :=
  p.entities.all EntityProgram.isFinite

theorem Program.read_toJson {p : Program} (standing : Standing) (h : p.isFinite = true) :
    read standing p.toJson = some p := by
  refine build (list?_list fun e he => ?_) rfl
  exact EntityProgram.read_toJson standing (List.all_eq_true.1 h e he)

end SpriteStage
