import SpriteStage.Proofs.Number.Rounding

/-!
Arithmetic of doubles. Sums, differences and products of finite doubles, and the conversions from
integers, are the exact results rounded once (`IsRounded`).
-/

open Float.Model Float.Model.UnpackedFloat

namespace SpriteStage.Number

/-! ### Range -/

theorem two_pow_mul_zpow (k : ℕ) (e : ℤ) : (2 : ℚ) ^ k * 2 ^ e = 2 ^ (k + e) := by
  rw [zpow_add₀ (by norm_num), zpow_natCast]

theorem Fits.lt_iff_exponent {m : ℕ} {e : ℤ} (h : Fits m e) :
    (m : ℚ) * 2 ^ e < 2 ^ (1024 : ℤ) ↔ e ≤ 971 := by
  constructor
  · intro hlt
    by_contra he
    have hm : (2 : ℚ) ^ 52 ≤ m := by exact_mod_cast h.full.resolve_right (by omega)
    have hpow : (2 : ℚ) ^ (972 : ℤ) ≤ 2 ^ e := zpow_le_zpow_right₀ (by norm_num) (by omega)
    have hle : (2 : ℚ) ^ 52 * 2 ^ (972 : ℤ) ≤ m * 2 ^ e :=
      mul_le_mul hm hpow (zpow_nonneg zero_le_two _) m.cast_nonneg
    rw [two_pow_mul_zpow] at hle
    exact absurd hlt (not_lt.2 hle)
  · intro he
    have hm : (m : ℚ) < 2 ^ 53 := by exact_mod_cast h.digits
    have hpow : (2 : ℚ) ^ e ≤ 2 ^ (971 : ℤ) := zpow_le_zpow_right₀ (by norm_num) he
    calc (m : ℚ) * 2 ^ e < 2 ^ 53 * 2 ^ e := mul_lt_mul_of_pos_right hm (by positivity)
      _ ≤ 2 ^ 53 * 2 ^ (971 : ℤ) := by gcongr
      _ = 2 ^ (1024 : ℤ) := two_pow_mul_zpow ..

theorem abs_apply_mul (s : Sign) (m : ℕ) (e : ℤ) :
    |((s.apply m : ℤ) : ℚ) * 2 ^ e| = m * 2 ^ e := by
  cases s <;> simp [Sign.apply, abs_mul]

theorem Fits.representable {m : ℕ} {e : ℤ} (h : Fits m e) (s : Sign) :
    Representable (((s.apply m : ℤ) : ℚ) * 2 ^ e) := by
  have hm : |s.apply m| < 2 ^ 53 := by
    have hdigits : (m : ℤ) < 2 ^ 53 := by exact_mod_cast h.digits
    cases s <;> simpa [Sign.apply] using hdigits
  exact ⟨s.apply m, e, hm, h.least, rfl⟩

theorem representable_of_rational? {x : Float} {q : ℚ} (h : rational? x = some q) :
    Representable q ∧ |q| < 2 ^ (1024 : ℤ) := by
  obtain ⟨-, -, rfl⟩ | ⟨s, m, e, -, -, hfits, he, rfl⟩ := rational?_cases h
  · exact ⟨representable_zero, by rw [abs_zero]; positivity⟩
  · rw [abs_apply_mul]
    exact ⟨hfits.representable s, hfits.lt_iff_exponent.2 he⟩

theorem rational?_pack {u : UnpackedFloat} {v : ℚ} (h : Shaped u)
    (hv : unpackedRational u = some v) (hsize : |v| < 2 ^ (1024 : ℤ)) :
    rational? (.ofModel (.pack u)) = some v := by
  have hunpack : (Float.Model.pack u).unpack = u := by
    cases u with
    | zero s => cases s <;> rfl
    | finite s m e hm =>
      obtain rfl := Option.some_inj.1 hv
      rw [abs_apply_mul] at hsize
      exact unpack_pack h (h.lt_iff_exponent.1 hsize)
    | infinity | notANumber => exact h.elim
  show unpackedRational (Float.Model.pack u).unpack = some v
  rw [hunpack, hv]

theorem abs_lt_range {q : ℚ} (h : |q| ≤ 2 ^ 63) : |q| < 2 ^ (1024 : ℤ) := by
  have hpow : (2 : ℚ) ^ (63 : ℤ) < 2 ^ (1024 : ℤ) := zpow_lt_zpow_right₀ (by norm_num) (by decide)
  exact lt_of_le_of_lt (by exact_mod_cast h) hpow

/-! ### Operations -/

/-- The double `x` is `v`, the number next to `q`, unless that is out of range. -/
structure IsRounded (x : Float) (q v : ℚ) : Prop where
  rounds : Rounds q v
  finite : |v| < 2 ^ (1024 : ℤ) → rational? x = some v

theorem RoundsTo.isRounded {q : ℚ} {u : UnpackedFloat} (h : RoundsTo q u) :
    ∃ v, IsRounded (.ofModel (.pack u)) q v := by
  obtain ⟨hshaped, v, hv, hrounds⟩ := h
  exact ⟨v, hrounds, rational?_pack hshaped hv⟩

theorem IsRounded.eq {x : Float} {q v : ℚ} (h : IsRounded x q v) (hq : Representable q)
    (hsize : |q| < 2 ^ (1024 : ℤ)) : rational? x = some q := by
  obtain rfl := h.rounds.eq hq
  exact h.finite hsize

section Between

variable {x low high : Float} {q v a b : ℚ} (h : IsRounded x q v)
  (hlow : rational? low = some a) (hhigh : rational? high = some b)

include h hlow hhigh

theorem IsRounded.finite_of_between (hav : a ≤ v) (hvb : v ≤ b) : rational? x = some v := by
  have hleast := (abs_lt.1 (representable_of_rational? hlow).2).1
  have hmost := (abs_lt.1 (representable_of_rational? hhigh).2).2
  exact h.finite (abs_lt.2 ⟨hleast.trans_le hav, hvb.trans_lt hmost⟩)

theorem IsRounded.between (haq : a ≤ q) (hqb : q ≤ b) :
    rational? x = some v ∧ a ≤ v ∧ v ≤ b := by
  have hav := h.rounds.below a (representable_of_rational? hlow).1 haq
  have hvb := h.rounds.above b (representable_of_rational? hhigh).1 hqb
  exact ⟨h.finite_of_between hlow hhigh hav hvb, hav, hvb⟩

end Between

theorem isRounded_ofInt64 (n : Int64) : ∃ v, IsRounded (ofInt64 n) n.toInt v := by
  have hround := (roundsTo_normalize n.toInt 0 .positive).isRounded
  rwa [zpow_zero, mul_one] at hround

theorem isRounded_toFloat (n : UInt64) : ∃ v, IsRounded n.toFloat n.toNat v := by
  have hround := (roundsTo_normalize n.toNat 0 .positive).isRounded
  rwa [zpow_zero, mul_one] at hround

theorem Fits.roundsTo {m : ℕ} {e : ℤ} (h : Fits m e) (s : Sign) (hm : 0 < m) :
    RoundsTo (((s.apply m : ℤ) : ℚ) * 2 ^ e) (.finite s m e hm) :=
  ⟨h, _, rfl, .refl (h.representable s)⟩

theorem roundsTo_zero (s : Sign) : RoundsTo 0 (.zero s) :=
  ⟨trivial, 0, rfl, .refl representable_zero⟩

theorem apply_shift (s : Sign) (m : ℕ) {e t : ℤ} (h : t ≤ e) :
    ((s.apply (m <<< (e - t).toNat : ℕ) : ℤ) : ℚ) * 2 ^ t = s.apply m * 2 ^ e := by
  have hvalue := shift_value m (e - t).toNat e
  rw [show e - (e - t).toNat = t by omega] at hvalue
  rw [apply_mul, apply_mul s m, Int.cast_natCast, Int.cast_natCast, hvalue]

theorem apply_neg (s : Sign) (n : ℤ) : (-s).apply n = -s.apply n := by
  cases s <;> simp [Sign.apply]

theorem roundsTo_sum (s s' : Sign) (m m' : ℕ) (e e' : ℤ) :
    RoundsTo (s.apply m * 2 ^ e + s'.apply m' * 2 ^ e')
      (UnpackedFloat.normalize Format.binary64 (s.apply (m <<< (e - min e e').toNat : ℕ) +
        s'.apply (m' <<< (e' - min e e').toNat : ℕ)) (min e e') .positive) := by
  have hround := roundsTo_normalize (s.apply (m <<< (e - min e e').toNat : ℕ) +
    s'.apply (m' <<< (e' - min e e').toNat : ℕ)) (min e e') .positive
  rwa [Int.cast_add, add_mul, apply_shift s m (min_le_left _ _),
    apply_shift s' m' (min_le_right _ _)] at hround

section Operations

variable {x y : Float} {a b : ℚ}

theorem isRounded_add (hx : rational? x = some a) (hy : rational? y = some b) :
    ∃ v, IsRounded (x + y) (a + b) v := by
  suffices h : RoundsTo (a + b) (x.toModel.unpack.add Format.binary64 y.toModel.unpack) from
    h.isRounded
  obtain ⟨s, hxu, rfl⟩ | ⟨s, m, e, hm, hxu, hfits, -, rfl⟩ := rational?_cases hx <;>
    obtain ⟨s', hyu, rfl⟩ | ⟨s', m', e', hm', hyu, hfits', -, rfl⟩ := rational?_cases hy <;>
    rw [hxu, hyu]
  · rw [add_zero]
    cases s <;> cases s' <;> exact roundsTo_zero _
  · rw [zero_add]
    exact hfits'.roundsTo s' hm'
  · rw [add_zero]
    exact hfits.roundsTo s hm
  · exact roundsTo_sum s s' m m' e e'

theorem isRounded_sub (hx : rational? x = some a) (hy : rational? y = some b) :
    ∃ v, IsRounded (x - y) (a - b) v := by
  suffices h : RoundsTo (a - b) (x.toModel.unpack.sub Format.binary64 y.toModel.unpack) from
    h.isRounded
  obtain ⟨s, hxu, rfl⟩ | ⟨s, m, e, hm, hxu, hfits, -, rfl⟩ := rational?_cases hx <;>
    obtain ⟨s', hyu, rfl⟩ | ⟨s', m', e', hm', hyu, hfits', -, rfl⟩ := rational?_cases hy <;>
    rw [hxu, hyu]
  · rw [sub_zero]
    cases s <;> cases s' <;> exact roundsTo_zero _
  · have hneg := hfits'.roundsTo (-s') hm'
    rw [apply_neg, Int.cast_neg, neg_mul] at hneg
    rwa [zero_sub]
  · rw [sub_zero]
    exact hfits.roundsTo s hm
  · have hround := roundsTo_sum s (-s') m m' e e'
    rw [apply_neg, apply_neg, Int.cast_neg, neg_mul, ← sub_eq_add_neg, ← sub_eq_add_neg] at hround
    exact hround

theorem Fits.le_exponentFor_mul {m m' : ℕ} {e e' : ℤ} (h : Fits m e) (h' : Fits m' e') :
    e + e' ≤ exponentFor (m * m') (e + e') := by
  have hpos := h.pos
  have hpos' := h'.pos
  by_cases hfull : 2 ^ 52 ≤ m * m'
  · have hlog : 52 ≤ (m * m').log2 := (Nat.le_log2 (by positivity)).2 hfull
    exact le_max_of_le_left (by omega)
  · have hm : ¬ 2 ^ 52 ≤ m := fun hle => hfull (hle.trans (Nat.le_mul_of_pos_right m hpos'))
    have hm' : ¬ 2 ^ 52 ≤ m' := fun hle => hfull (hle.trans (Nat.le_mul_of_pos_left m' hpos))
    have he := h.full.resolve_left hm
    have he' := h'.full.resolve_left hm'
    exact le_max_of_le_right (by omega)

theorem isRounded_mul (hx : rational? x = some a) (hy : rational? y = some b) :
    ∃ v, IsRounded (x * y) (a * b) v := by
  suffices h : RoundsTo (a * b) (x.toModel.unpack.mul Format.binary64 y.toModel.unpack) from
    h.isRounded
  obtain ⟨s, hxu, rfl⟩ | ⟨s, m, e, hm, hxu, hfits, -, rfl⟩ := rational?_cases hx <;>
    obtain ⟨s', hyu, rfl⟩ | ⟨s', m', e', hm', hyu, hfits', -, rfl⟩ := rational?_cases hy <;>
    rw [hxu, hyu]
  · rw [zero_mul]
    exact roundsTo_zero _
  · rw [zero_mul]
    exact roundsTo_zero _
  · rw [mul_zero]
    exact roundsTo_zero _
  · have hround := roundsTo_roundWithAccuracy (s * s') (by positivity : m * m' ≠ 0)
      (hfits.le_exponentFor_mul hfits')
    have hvalue : (((s * s').apply (m * m' : ℕ) : ℤ) : ℚ) * 2 ^ (e + e') =
        s.apply m * 2 ^ e * (s'.apply m' * 2 ^ e') := by
      rw [zpow_add₀ (by norm_num)]
      cases s <;> cases s' <;> simp [Sign.apply] <;> ring
    rw [hvalue] at hround
    exact hround

end Operations

/-! ### Whole numbers -/

theorem Representable.exists_int {q : ℚ} (h : Representable q) (hq : 2 ^ 52 ≤ |q|) :
    ∃ z : ℤ, q = z := by
  obtain ⟨n, e, hn, he, rfl⟩ := h
  rcases le_or_gt 0 e with hpos | hneg
  · obtain ⟨k, rfl⟩ := Int.eq_ofNat_of_zero_le hpos
    exact ⟨n * 2 ^ k, by push_cast; rw [zpow_natCast]⟩
  · have hn' : |(n : ℚ)| < 2 ^ 53 := by exact_mod_cast hn
    have hpow : (2 : ℚ) ^ e ≤ 2 ^ (-1 : ℤ) := zpow_le_zpow_right₀ (by norm_num) (by omega)
    have hlt : |(n : ℚ) * 2 ^ e| < 2 ^ 52 := by
      rw [abs_mul, abs_of_pos (by positivity : (0 : ℚ) < 2 ^ e)]
      calc |(n : ℚ)| * 2 ^ e < 2 ^ 53 * 2 ^ e := mul_lt_mul_of_pos_right hn' (by positivity)
        _ ≤ 2 ^ 53 * 2 ^ (-1 : ℤ) := by gcongr
        _ = 2 ^ 52 := by norm_num
    exact absurd hq (not_le.2 hlt)

theorem Rounds.exists_int {n : ℤ} {v : ℚ} (h : Rounds n v) (hv : Representable v) :
    ∃ z : ℤ, v = z := by
  by_cases hn : |n| < 2 ^ 53
  · exact ⟨n, h.eq (representable_int hn)⟩
  · have hbound : Representable ((2 ^ 52 : ℤ) : ℚ) := representable_int (by decide)
    push_cast at hbound
    refine hv.exists_int (le_abs.2 ?_)
    rcases le_abs.1 (not_lt.1 hn) with hpos | hneg
    · have hpos' : (2 : ℚ) ^ 53 ≤ n := by exact_mod_cast hpos
      exact .inl (h.below _ hbound (by linarith))
    · have hneg' : (2 : ℚ) ^ 53 ≤ -n := by exact_mod_cast hneg
      exact .inr (le_neg_of_le_neg (h.above _ hbound.neg (by linarith)))

theorem roundToInt_eq (s : Sign) (m : ℕ) (e : ℤ) :
    roundToInt s m e = s.apply (m * 2 ^ e.toNat / 2 ^ (-e).toNat : ℕ) := by
  have hshift : (0 - (e - (e - 0).toNat)).toNat = (-e).toNat := by omega
  have hround : roundToInt s m e = s.apply (ExtendedMantissa.ofMantissaAndAccuracy
      (m <<< (e - 0).toNat) .exact >>> (0 - (e - (e - 0).toNat)).toNat).mantissa := rfl
  rw [hround, hshift, shiftRight_exact, Nat.shiftLeft_eq, sub_zero]

theorem apply_div {s : Sign} {n d : ℕ} {z : ℤ} (hd : 0 < d) (h : s.apply n = z * d) :
    s.apply (n / d : ℕ) = z := by
  have hd' : (d : ℤ) ≠ 0 := by exact_mod_cast hd.ne'
  cases s with
  | positive =>
    have hn : (n : ℤ) = z * d := h
    show ((n / d : ℕ) : ℤ) = z
    rw [Int.natCast_ediv, hn, Int.mul_ediv_cancel _ hd']
  | negative =>
    have hn : (n : ℤ) = -z * d := by
      rw [Int.neg_mul, ← h]
      exact (neg_neg _).symm
    show -((n / d : ℕ) : ℤ) = z
    rw [Int.natCast_ediv, hn, Int.mul_ediv_cancel _ hd', neg_neg]

theorem roundToInt_of_eq {s : Sign} {m : ℕ} {e z : ℤ} (h : ((s.apply m : ℤ) : ℚ) * 2 ^ e = z) :
    roundToInt s m e = z := by
  have hsplit : (2 : ℚ) ^ e * 2 ^ (-e).toNat = 2 ^ e.toNat := by
    rw [← zpow_natCast, ← zpow_natCast, ← zpow_add₀ (by norm_num)]
    congr 1
    omega
  have hscaled : ((s.apply (m * 2 ^ e.toNat : ℕ) : ℤ) : ℚ) = z * (2 ^ (-e).toNat : ℕ) := by
    have hfactor := apply_mul s (m * 2 ^ e.toNat : ℕ) 1
    rw [mul_one] at hfactor
    rw [hfactor, ← h, apply_mul s m]
    push_cast
    rw [← hsplit]
    ring
  rw [roundToInt_eq]
  exact apply_div (Nat.two_pow_pos _) (by exact_mod_cast hscaled)

/-- A whole double becomes the nearest 64-bit integer. -/
theorem toInt_toInt64 {x : Float} {z : ℤ} (h : rational? x = some (z : ℚ)) :
    (toInt64 x).toInt = max (-2 ^ 63) (min z (2 ^ 63 - 1)) := by
  have htoInt : x.toModel.unpack.toInt Int64.minValue.toInt Int64.maxValue.toInt = z := by
    obtain ⟨s, hxu, hz⟩ | ⟨s, m, e, hm, hxu, -, -, hz⟩ := rational?_cases h
    · rw [hxu]
      exact_mod_cast hz.symm
    · rw [hxu]
      exact roundToInt_of_eq hz.symm
  have hmin : Int64.minValue.toInt = -2 ^ 63 := by decide
  have hmax : Int64.maxValue.toInt = 2 ^ 63 - 1 := by decide
  have hclamp : toInt64 x = Int64.ofIntClamp z := congrArg Int64.ofIntClamp htoInt
  rw [hclamp]
  by_cases hlow : -2 ^ 63 ≤ z
  · by_cases hhigh : z ≤ 2 ^ 63 - 1
    · rw [Int64.toInt_ofIntClamp (by omega) (by omega)]
      omega
    · unfold Int64.ofIntClamp
      rw [dif_pos (by omega), dif_neg (by omega), hmax]
      omega
  · unfold Int64.ofIntClamp
    rw [dif_neg (by omega), hmin]
    omega

/-! ### Signs -/


theorem representable_two_pow (k : ℕ) : Representable (2 ^ k) :=
  ⟨1, k, by decide, by omega, by rw [zpow_natCast]; simp⟩

theorem Representable.exists_units {q : ℚ} (h : Representable q) :
    ∃ z : ℤ, q = z * 2 ^ (-1074 : ℤ) := by
  obtain ⟨n, e, -, he, rfl⟩ := h
  refine ⟨n * 2 ^ (e + 1074).toNat, ?_⟩
  have hexponent : e = ((e + 1074).toNat : ℤ) + (-1074 : ℤ) := by omega
  rw [Int.cast_mul, Int.cast_pow, Int.cast_ofNat, mul_assoc, two_pow_mul_zpow, ← hexponent]

/-- Rounding keeps the sign of a sum of two doubles, which is no smaller than the least of them. -/
theorem Rounds.nonpos_iff {a b v : ℚ} (ha : Representable a) (hb : Representable b)
    (h : Rounds (a + b) v) : v ≤ 0 ↔ a + b ≤ 0 := by
  refine ⟨fun hv => ?_, h.above 0 representable_zero⟩
  by_contra hpos
  obtain ⟨y, hy⟩ := ha.exists_units
  obtain ⟨z, hz⟩ := hb.exists_units
  have hunit : (0 : ℚ) < 2 ^ (-1074 : ℤ) := by positivity
  have hsum : a + b = ((y + z : ℤ) : ℚ) * 2 ^ (-1074 : ℤ) := by
    rw [hy, hz, Int.cast_add, add_mul]
  have hcount : 0 < y + z := by
    rw [hsum, not_le] at hpos
    exact_mod_cast pos_of_mul_pos_left hpos hunit.le
  have hone : (1 : ℚ) ≤ ((y + z : ℤ) : ℚ) := by exact_mod_cast hcount
  have hleast : (2 : ℚ) ^ (-1074 : ℤ) ≤ v := by
    refine h.below _ ⟨1, -1074, by decide, le_rfl, by simp⟩ ?_
    rw [hsum]
    exact le_mul_of_one_le_left hunit.le hone
  exact absurd hv (not_le.2 (hunit.trans_le hleast))

theorem Rounds.abs_le_two_pow {q v : ℚ} {k : ℕ} (h : Rounds q v) (hq : |q| ≤ 2 ^ k) :
    |v| ≤ 2 ^ k :=
  abs_le.2 ⟨h.below _ (representable_two_pow k).neg (abs_le.1 hq).1,
    h.above _ (representable_two_pow k) (abs_le.1 hq).2⟩

theorem rational?_neg {x : Float} {a : ℚ} (hx : rational? x = some a) :
    rational? (-x) = some (-a) := by
  have hsize := (representable_of_rational? hx).2
  obtain ⟨s, hxu, rfl⟩ | ⟨s, m, e, hm, hxu, hfits, -, rfl⟩ := rational?_cases hx
  · have hneg : -x = .ofModel (.pack (.zero (-s))) := by
      change Float.ofModel (.pack x.toModel.unpack.neg) = _
      rw [hxu]
      rfl
    rw [hneg]
    exact rational?_pack trivial (by simp [unpackedRational]) (by simp)
  · have hneg : -x = .ofModel (.pack (.finite (-s) m e hm)) := by
      change Float.ofModel (.pack x.toModel.unpack.neg) = _
      rw [hxu]
      rfl
    rw [hneg]
    exact rational?_pack hfits (by simp [unpackedRational, apply_neg]) (by rwa [abs_neg])

section Signs

variable {x y : Float} {a b : ℚ} {k : ℕ}

theorem exists_rational?_add (hx : rational? x = some a) (hy : rational? y = some b)
    (h : |a + b| ≤ 2 ^ k) (hk : k ≤ 63) :
    ∃ v, rational? (x + y) = some v ∧ |v| ≤ 2 ^ k ∧ (v ≤ 0 ↔ a + b ≤ 0) := by
  obtain ⟨v, hv⟩ := isRounded_add hx hy
  have hsize := hv.rounds.abs_le_two_pow h
  have hrange : (2 : ℚ) ^ k ≤ 2 ^ 63 := pow_le_pow_right₀ (by norm_num) hk
  exact ⟨v, hv.finite (abs_lt_range (hsize.trans hrange)), hsize,
    hv.rounds.nonpos_iff (representable_of_rational? hx).1 (representable_of_rational? hy).1⟩

theorem exists_rational?_sub (hx : rational? x = some a) (hy : rational? y = some b)
    (h : |a - b| ≤ 2 ^ k) (hk : k ≤ 63) :
    ∃ v, rational? (x - y) = some v ∧ |v| ≤ 2 ^ k ∧ (v ≤ 0 ↔ a ≤ b) ∧ (b ≤ a → 0 ≤ v) := by
  obtain ⟨v, hv⟩ := isRounded_sub hx hy
  have hsize := hv.rounds.abs_le_two_pow h
  have hrange : (2 : ℚ) ^ k ≤ 2 ^ 63 := pow_le_pow_right₀ (by norm_num) hk
  have hneg := (representable_of_rational? hy).1.neg
  have hsign := Rounds.nonpos_iff (representable_of_rational? hx).1 hneg
    (by rw [← sub_eq_add_neg]; exact hv.rounds)
  refine ⟨v, hv.finite (abs_lt_range (hsize.trans hrange)), hsize, ?_, fun hle => ?_⟩
  · rw [hsign, ← sub_eq_add_neg, sub_nonpos]
  · exact hv.rounds.below 0 representable_zero (sub_nonneg.2 hle)

end Signs

end SpriteStage.Number
