import Mathlib
import SpriteStage.Proofs.Number.Rational
import SpriteStage.Proofs.Script.Refusal

/-!
Comparisons in scripts. Two values are compared as numbers if both look like numbers, and by their
small letters otherwise. Either way the order is that of a linear order (`compareNumbers_of_place`
and the order of texts), but for what is no number, which counts as equal to every number. So one of
the three comparisons holds, and the other way round it is its mirror image.
-/

open Float.Model Float.Model.UnpackedFloat

namespace SpriteStage

/-! ### Doubles in order -/

namespace Number

/-- The rational numbers with an infinity at each end. -/
abbrev Line := WithBot (WithTop ℚ)

/-- The place of a double on the line; what is no number has none. -/
def place? (x : Float) : Option Line :=
  match x.toModel.unpack with
  | .notANumber => none
  | .infinity .negative => some ⊥
  | .infinity .positive => some ⊤
  | _ => (rational? x).map fun q => ((q : WithTop ℚ) : Line)

theorem place?_cases (x : Float) :
    (x.toModel.unpack = .notANumber ∧ place? x = none) ∨
    (x.toModel.unpack = .infinity .negative ∧ place? x = some ⊥) ∨
    (x.toModel.unpack = .infinity .positive ∧ place? x = some ⊤) ∨
    ∃ q, rational? x = some q ∧ place? x = some ((q : WithTop ℚ) : Line) := by
  unfold place?
  cases hx : x.toModel.unpack with
  | notANumber => exact .inl ⟨rfl, rfl⟩
  | infinity s =>
    cases s with
    | negative => exact .inr (.inl ⟨rfl, rfl⟩)
    | positive => exact .inr (.inr (.inl ⟨rfl, rfl⟩))
  | zero s =>
    have hq : rational? x = some 0 := by rw [rational?, hx]; rfl
    exact .inr (.inr (.inr ⟨_, hq, by rw [hq]; rfl⟩))
  | finite s m e hm =>
    have hq : rational? x = some ((s.apply m : ℚ) * 2 ^ e) := by rw [rational?, hx]; rfl
    exact .inr (.inr (.inr ⟨_, hq, by rw [hq]; rfl⟩))

/-- Infinities are beyond all finite doubles. -/
theorem compare_infinity {y : Float} {q : ℚ} (hy : rational? y = some q) :
    (UnpackedFloat.infinity .negative).compare y.toModel.unpack = some .lt ∧
      (UnpackedFloat.infinity .positive).compare y.toModel.unpack = some .gt ∧
      y.toModel.unpack.compare (.infinity .negative) = some .gt ∧
      y.toModel.unpack.compare (.infinity .positive) = some .lt := by
  obtain ⟨s, hy, -⟩ | ⟨s, m, e, hm, hy, -⟩ := rational?_cases hy <;>
  · rw [hy]
    exact ⟨rfl, rfl, rfl, rfl⟩

theorem compare_notANumber (u : UnpackedFloat) :
    UnpackedFloat.notANumber.compare u = none ∧ u.compare .notANumber = none := by
  cases u <;> exact ⟨rfl, rfl⟩

/-- One double is less than another if its place is. -/
theorem lt_iff_place {x y : Float} :
    x < y ↔ ∃ a b, place? x = some a ∧ place? y = some b ∧ a < b := by
  have hends : (UnpackedFloat.infinity .negative).compare (.infinity .negative) = some .eq ∧
      (UnpackedFloat.infinity .negative).compare (.infinity .positive) = some .lt ∧
      (UnpackedFloat.infinity .positive).compare (.infinity .negative) = some .gt ∧
      (UnpackedFloat.infinity .positive).compare (.infinity .positive) = some .eq :=
    ⟨rfl, rfl, rfl, rfl⟩
  rw [lt_iff_compare]
  rcases place?_cases x with ⟨hx, hpx⟩ | ⟨hx, hpx⟩ | ⟨hx, hpx⟩ | ⟨q, hx, hpx⟩
  · simp [hx, hpx, compare_notANumber]
  · rcases place?_cases y with ⟨hy, hpy⟩ | ⟨hy, hpy⟩ | ⟨hy, hpy⟩ | ⟨r, hy, hpy⟩
    · simp [hy, hpy, compare_notANumber]
    · simp [hx, hpx, hy, hpy, hends]
    · simp [hx, hpx, hy, hpy, hends]
    · simp [hx, hpx, hpy, compare_infinity hy]
  · rcases place?_cases y with ⟨hy, hpy⟩ | ⟨hy, hpy⟩ | ⟨hy, hpy⟩ | ⟨r, hy, hpy⟩
    · simp [hy, hpy, compare_notANumber]
    · simp [hx, hpx, hy, hpy, hends]
    · simp [hx, hpx, hy, hpy, hends]
    · simp [hx, hpx, hpy, compare_infinity hy]
  · rcases place?_cases y with ⟨hy, hpy⟩ | ⟨hy, hpy⟩ | ⟨hy, hpy⟩ | ⟨r, hy, hpy⟩
    · simp [hy, hpy, compare_notANumber]
    · simp [hpx, hy, hpy, compare_infinity hx]
    · have hbelow : ((q : WithTop ℚ) : Line) < ⊤ := WithBot.coe_lt_coe.2 (WithTop.coe_lt_top q)
      simp [hpx, hy, hpy, compare_infinity hx, hbelow]
    · simp [hpx, hpy, ← lt_iff_compare, lt_iff hx hy]

theorem not_lt_of_lt {x y : Float} (h : x < y) : ¬ y < x := by
  intro h'
  obtain ⟨a, b, hx, hy, hab⟩ := lt_iff_place.1 h
  obtain ⟨b', a', hy', hx', hba⟩ := lt_iff_place.1 h'
  cases hx.symm.trans hx'
  cases hy.symm.trans hy'
  exact lt_asymm hab hba

end Number

/-! ### Values in order -/

namespace Value

open Number (place?)

/-- Doubles are in the order of their places. -/
theorem compareNumbers_of_place {x y : Float} {a b : Number.Line} (hx : place? x = some a)
    (hy : place? y = some b) : compareNumbers x y = Ord.compare a b := by
  have hlt : ∀ {x y : Float} {a b : Number.Line}, place? x = some a → place? y = some b →
      (x < y ↔ a < b) := by
    intro x y a b hx hy
    rw [Number.lt_iff_place, hx, hy]
    simp
  rcases lt_trichotomy a b with h | rfl | h
  · rw [compareNumbers, if_pos ((hlt hx hy).2 h), compare_lt_iff_lt.2 h]
  · rw [compareNumbers, if_neg (mt (hlt hx hy).1 (lt_irrefl a)),
      if_neg (mt (hlt hy hx).1 (lt_irrefl a)), compare_eq_iff_eq.2 rfl]
  · rw [compareNumbers, if_neg (mt (hlt hx hy).1 h.not_gt), if_pos ((hlt hy hx).2 h),
      compare_gt_iff_gt.2 h]

theorem compareNumbers_of_none {x y : Float} (h : place? x = none ∨ place? y = none) :
    compareNumbers x y = .eq := by
  have hxy : ¬ x < y ∧ ¬ y < x := by
    simp only [Number.lt_iff_place]
    rcases h with h | h <;> simp [h]
  rw [compareNumbers, if_neg hxy.1, if_neg hxy.2]

theorem compareNumbers_swap (x y : Float) : compareNumbers y x = (compareNumbers x y).swap := by
  unfold compareNumbers
  by_cases h : x < y
  · rw [if_pos h, if_pos h, if_neg (Number.not_lt_of_lt h)]
    rfl
  · by_cases h' : y < x
    · rw [if_pos h', if_neg h, if_pos h']
      rfl
    · rw [if_neg h, if_neg h, if_neg h', if_neg h']
      rfl

theorem compareTexts_swap (s t : String) : compareTexts t s = (compareTexts s t).swap :=
  @Std.OrientedCmp.eq_swap String Ord.compare _ _ _

/-- The other way round, values are in the reverse order, since they are compared in the same way:
both as numbers or both as texts. -/
theorem compare_swap (a b : Value) : b.compare a = (a.compare b).swap := by
  unfold compare
  cases a.numericView with
  | none => cases b.numericView <;> exact compareTexts_swap _ _
  | some x =>
    cases b.numericView with
    | none => exact compareTexts_swap _ _
    | some y => exact compareNumbers_swap x y

/-- What is equal to its reverse is the middle. -/
theorem compare_self (a : Value) : a.compare a = .eq := by
  have hself := compare_swap a a
  cases h : a.compare a with
  | eq => rfl
  | lt | gt => rw [h] at hself; cases hself

theorem compare_of_number {a b : Value} {x y : Float} (ha : a.numericView = some x)
    (hb : b.numericView = some y) : a.compare b = compareNumbers x y := by
  simp only [compare, ha, hb]

theorem compare_of_text {a b : Value} (h : a.numericView = none ∨ b.numericView = none) :
    a.compare b = Ord.compare (Text.lower a.toText) (Text.lower b.toText) := by
  unfold compare
  rcases h with h | h
  · rw [h]
    rfl
  · rw [h]
    cases a.numericView <;> rfl

end Value

/-! ### Comparison blocks -/

/-- The comparison that says the same with its operands exchanged. -/
def CompareOp.mirror : CompareOp → CompareOp
  | .lt => .gt
  | .gt => .lt
  | .eq => .eq

/-- The comparison that holds of values in that order. -/
def CompareOp.ofOrdering : Ordering → CompareOp
  | .lt => .lt
  | .gt => .gt
  | .eq => .eq

theorem CompareOp.holds_eq (op : CompareOp) (a b : Value) :
    op.holds a b = decide (op = .ofOrdering (a.compare b)) := by
  cases op <;> cases h : a.compare b <;> simp [holds, Value.looselyEquals, ofOrdering, h]

theorem CompareOp.holds_mirror (op : CompareOp) (a b : Value) :
    op.mirror.holds b a = op.holds a b := by
  rw [holds_eq, holds_eq, Value.compare_swap]
  cases op <;> cases a.compare b <;> rfl

namespace Expr

/-- From a state of the random source the expression evaluates to the value, and leaves a state. -/
def Gives (w : World) (id : EntityId) (e : Expr) (r : SplitMix) (v : Value) (r' : SplitMix) : Prop :=
  (e.eval w id).run.run r = (.ok v, r')

/-- The operands evaluate to the values, one after the other. -/
def OperandsGive (w : World) (id : EntityId) (left right : Expr) (r : SplitMix) (a b : Value)
    (r' : SplitMix) : Prop :=
  ∃ s, left.Gives w id r a s ∧ right.Gives w id s b r'

theorem OperandsGive.compare {w : World} {id : EntityId} {left right : Expr} {a b : Value}
    {r r' : SplitMix} (h : OperandsGive w id left right r a b r') (op : CompareOp) :
    (Expr.compare op left right).Gives w id r (.bool (op.holds a b)) r' := by
  obtain ⟨s, hleft, hright⟩ := h
  rw [Gives, eval, Eval.run_bind, hleft]
  simp only [Eval.run_bind]
  rw [hright]
  rfl

end Expr

/-- The order of two values is the reverse of their order the other way round. It is that of the
numbers that they look like, where what is no number counts as equal, or else that of their small
letters. So of the three comparison blocks of two operands just one is true, and exchanging the
operands turns less into greater and keeps equality. -/
theorem comparison_is_trichotomous (a b : Value) :
    (b.compare a = (a.compare b).swap ∧ a.compare a = .eq) ∧
    (∀ x y, a.numericView = some x → b.numericView = some y →
      (∀ p q, Number.place? x = some p → Number.place? y = some q →
        a.compare b = Ord.compare p q) ∧
      (Number.place? x = none ∨ Number.place? y = none → a.compare b = .eq)) ∧
    (a.numericView = none ∨ b.numericView = none →
      a.compare b = Ord.compare (Text.lower a.toText) (Text.lower b.toText)) ∧
    ∀ w id left right r t, Expr.OperandsGive w id left right r a b t →
      (∃ holding, ∀ op, (Expr.compare op left right).Gives w id r (.bool (op = holding)) t) ∧
      ∀ w' id' left' right' r' t', Expr.OperandsGive w' id' left' right' r' b a t' →
        ∀ op, ∃ truth, (Expr.compare op left right).Gives w id r (.bool truth) t ∧
          (Expr.compare op.mirror left' right').Gives w' id' r' (.bool truth) t' := by
  refine ⟨⟨a.compare_swap b, a.compare_self⟩, fun x y hx hy => ?_, Value.compare_of_text, ?_⟩
  · rw [Value.compare_of_number hx hy]
    exact ⟨fun p q => Value.compareNumbers_of_place, Value.compareNumbers_of_none⟩
  · intro w id left right r t h
    refine ⟨⟨.ofOrdering (a.compare b), fun op => ?_⟩, fun w' id' left' right' r' t' h' op => ?_⟩
    · rw [← CompareOp.holds_eq]
      exact h.compare op
    · have hmirror := h'.compare op.mirror
      rw [CompareOp.holds_mirror] at hmirror
      exact ⟨_, h.compare op, hmirror⟩

-- As texts they would be in the other order.
theorem comparison_is_trichotomous_hexadecimal :
    (Value.text " 0x10").compare (.text "9") = .gt ∧
      ∃ holding, ∀ op, (Expr.compare op (.literal (.text " 0x10")) (.literal (.text "9"))).Gives
        (.empty 0) 0 (.ofSeed 1) (.bool (op = holding)) (.ofSeed 1) := by
  have hgive : Expr.OperandsGive (.empty 0) 0 (.literal (.text " 0x10")) (.literal (.text "9"))
      (.ofSeed 1) (.text " 0x10") (.text "9") (.ofSeed 1) := ⟨_, rfl, rfl⟩
  have hall := comparison_is_trichotomous (.text " 0x10") (.text "9")
  exact ⟨by decide +kernel, (hall.2.2.2 _ _ _ _ _ _ hgive).1⟩

end SpriteStage
