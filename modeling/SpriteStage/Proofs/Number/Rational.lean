import Mathlib
import SpriteStage.Number.Binary

/-!
The rational numbers behind doubles. A finite double is a whole number of at most 53 binary digits,
times a power of two that is not too small (`Fits`); its bits, its unpacked form and its order all
follow from this number (`rational?`).
-/

open Float.Model Float.Model.UnpackedFloat

namespace SpriteStage.Number

def unpackedRational : UnpackedFloat → Option ℚ
  | .zero _ => some 0
  | .finite s m e _ => some (s.apply m * 2 ^ e)
  | _ => none

/-- The number that a finite double stands for. -/
def rational? (x : Float) : Option ℚ :=
  unpackedRational x.toModel.unpack

/-- A mantissa and an exponent of a double in the one form in which it is unpacked: with all digits,
unless the exponent is as small as can be. -/
structure Fits (m : ℕ) (e : ℤ) : Prop where
  pos : 0 < m
  digits : m < 2 ^ 53
  least : -1074 ≤ e
  full : 2 ^ 52 ≤ m ∨ e = -1074

/-! ### Bits -/

theorem toNat_unpackExponent (b : BitVec 64) :
    (@unpackExponent Format.binary64 b).toNat = b.toNat / 2 ^ 52 % 2 ^ 11 := by
  simp [unpackExponent, Nat.shiftRight_eq_div_pow]

theorem toNat_unpackMantissa (b : BitVec 64) :
    (@unpackMantissa Format.binary64 b).toNat = b.toNat % 2 ^ 52 := by
  simp [unpackMantissa]

theorem toNat_implicit (m : BitVec 52) : (1#1 ++ m).toNat = 2 ^ 52 + m.toNat := by
  have hor := Nat.two_pow_add_eq_or_of_lt m.isLt 1
  rw [BitVec.toNat_append, Nat.shiftLeft_eq, Nat.mul_comm, ← Nat.mul_one (2 ^ 52), hor]
  rfl

theorem unpackExponent_ne {b : BitVec 64} (h : @unpackExponent Format.binary64 b ≠ -1#_) :
    b.toNat / 2 ^ 52 % 2 ^ 11 ≠ 2047 := by
  intro he
  refine h (BitVec.eq_of_toNat_eq ?_)
  rw [toNat_unpackExponent, he]
  rfl

theorem unpackExponent_eq_zero {b : BitVec 64} :
    @unpackExponent Format.binary64 b = 0#_ ↔ b.toNat / 2 ^ 52 % 2 ^ 11 = 0 := by
  rw [← BitVec.toNat_inj, toNat_unpackExponent]
  rfl

theorem unpack_finite {x : Float} {s : Sign} {m : ℕ} {e : ℤ} {h : 0 < m}
    (hx : x.toModel.unpack = .finite s m e h) :
    magnitude x = ⟨m, e⟩ ∧ Fits m e ∧ e ≤ 971 := by
  have hfraction : x.toBits.toNat % 2 ^ 52 < 2 ^ 52 := Nat.mod_lt _ (by decide)
  have hfield : x.toBits.toNat / 2 ^ 52 % 2 ^ 11 < 2 ^ 11 := Nat.mod_lt _ (by decide)
  have hbias : (Format.binary64.exponentBias : ℤ) +
      Format.binary64.mantissaBitsWithoutImplicit = 1075 := by decide
  unfold Float.Model.unpack UnpackedFloat.unpack at hx
  dsimp only at hx
  split at hx
  · split at hx <;> cases hx
  next hexp =>
    have hlimit : x.toBits.toNat / 2 ^ 52 % 2 ^ 11 ≠ 2047 := unpackExponent_ne hexp
    split at hx
    next hzero =>
      split at hx
      · cases hx
      next hman =>
        injection hx with _ hm he
        rw [toNat_unpackMantissa] at hm
        rw [hbias, hzero] at he
        have hm' : x.toBits.toNat % 2 ^ 52 = m := hm
        have he' : e = -1074 := he.symm
        refine ⟨?_, ⟨h, by omega, by omega, .inr he'⟩, by omega⟩
        rw [← hm', he']
        exact if_pos (unpackExponent_eq_zero.1 hzero)
    next hzero =>
      injection hx with _ hm he
      rw [toNat_implicit, toNat_unpackMantissa] at hm
      rw [hbias, toNat_unpackExponent] at he
      have hm' : 2 ^ 52 + x.toBits.toNat % 2 ^ 52 = m := hm
      have he' : ((x.toBits.toNat / 2 ^ 52 % 2 ^ 11 : ℕ) : ℤ) - 1075 = e := he
      have hpos : x.toBits.toNat / 2 ^ 52 % 2 ^ 11 ≠ 0 :=
        fun hz => hzero (unpackExponent_eq_zero.2 hz)
      refine ⟨?_, ⟨h, by omega, by omega, .inl (by omega)⟩, by omega⟩
      rw [← hm', ← he']
      exact if_neg hpos

theorem rational?_cases {x : Float} {q : ℚ} (h : rational? x = some q) :
    (∃ s, x.toModel.unpack = .zero s ∧ q = 0) ∨
      ∃ s m e, ∃ hm : 0 < m, x.toModel.unpack = .finite s m e hm ∧ Fits m e ∧ e ≤ 971 ∧
        q = s.apply m * 2 ^ e := by
  unfold rational? at h
  cases hx : x.toModel.unpack with
  | infinity | notANumber => simp [hx, unpackedRational] at h
  | zero s =>
    rw [hx] at h
    exact .inl ⟨s, rfl, (Option.some_inj.1 h).symm⟩
  | finite s m e hm =>
    rw [hx] at h
    obtain ⟨-, hfits, he⟩ := unpack_finite hx
    exact .inr ⟨s, m, e, hm, rfl, hfits, he, (Option.some_inj.1 h).symm⟩

theorem exists_int_of_isWhole {x : Float} (h : isWhole x = true) :
    ∃ z : ℤ, rational? x = some (z : ℚ) := by
  obtain ⟨hfinite, hwhole⟩ := Bool.and_eq_true_iff.1 h
  unfold rational?
  change x.toModel.unpack.isFinite = true at hfinite
  cases hx : x.toModel.unpack with
  | infinity | notANumber =>
    rw [hx] at hfinite
    cases hfinite
  | zero s => exact ⟨0, by simp [unpackedRational]⟩
  | finite s m e hm =>
    obtain ⟨hmagnitude, -, -⟩ := unpack_finite hx
    rw [hmagnitude] at hwhole
    cases e with
    | ofNat k => exact ⟨s.apply m * 2 ^ k, by simp [unpackedRational]⟩
    | negSucc k =>
      have hmod : m % 2 ^ (k + 1) = 0 := by simpa [Binary.isWhole, twoTo] using hwhole
      obtain ⟨c, hc⟩ := Nat.dvd_of_mod_eq_zero hmod
      refine ⟨s.apply c, ?_⟩
      have hpow : (2 : ℚ) ^ (k + 1) ≠ 0 := by positivity
      cases s <;> simp [unpackedRational, Sign.apply, hc, zpow_negSucc] <;> field_simp

/-! ### Packing -/

theorem unpackSign_packComponents (f : Format) (s : Sign) (e : BitVec f.exponentBits)
    (m : BitVec f.mantissaBitsWithoutImplicit) :
    unpackSign (packComponents f s e m) = s.toBitVec := by
  ext i hi
  obtain rfl := Nat.lt_one_iff.1 hi
  simp [unpackSign, packComponents, BitVec.getLsbD_append, BitVec.getElem_append]

theorem ofBitVec_toBitVec (s : Sign) : Sign.ofBitVec s.toBitVec = s := by
  cases s <;> rfl

theorem ofNat_eleven {k : ℕ} (h : k < 2047) :
    (BitVec.ofNat 11 k).toNat = k ∧ BitVec.ofNat 11 k ≠ -1#11 := by
  have hk : (BitVec.ofNat 11 k).toNat = k := by
    rw [BitVec.toNat_ofNat]
    omega
  refine ⟨hk, fun he => ?_⟩
  have htop : (BitVec.ofNat 11 k).toNat = 2047 := by
    rw [he]
    rfl
  omega

/-- What fits a double is not changed by it. -/
theorem unpack_pack {s : Sign} {m : ℕ} {e : ℤ} {hm : 0 < m} (h : Fits m e) (he : e ≤ 971) :
    (Float.Model.pack (.finite s m e hm)).unpack = .finite s m e hm := by
  obtain ⟨-, hdigits, hleast, hfull⟩ := h
  have hbias : (Format.binary64.exponentBias : ℤ) = 1023 := by decide
  have hbits : Format.binary64.mantissaBits = 53 := rfl
  obtain ⟨hk, htop⟩ := ofNat_eleven (k := (e + 1075).toNat) (by omega)
  have hbiased : (e + 1023 + (52 : ℕ)).toNat = (e + 1075).toNat := by omega
  unfold Float.Model.unpack Float.Model.pack UnpackedFloat.pack
  dsimp only
  rw [hbias, hbits, hbiased, if_neg (by show ¬ 2 ^ 11 ≤ _; omega)]
  by_cases hnormal : 2 ^ 52 ≤ m
  · have hlog : m.log2 + 1 = 53 := by
      rw [(Nat.log2_eq_iff hm.ne').2 ⟨hnormal, hdigits⟩]
    have hzero : BitVec.ofNat 11 (e + 1075).toNat ≠ 0#11 := by
      intro h0
      rw [h0] at hk
      change 0 = _ at hk
      omega
    rw [if_pos hlog]
    unfold UnpackedFloat.unpack
    simp only [unpackMantissa_packComponents, unpackExponent_packComponents,
      unpackSign_packComponents, ofBitVec_toBitVec, if_neg htop, if_neg hzero, hk, hbias,
      toNat_implicit, UnpackedFloat.finite.injEq, true_and]
    rw [BitVec.toNat_ofNat]
    omega
  · have hlog : ¬ m.log2 + 1 = 53 := by
      have hlt : m.log2 < 52 := (Nat.log2_lt hm.ne').2 (by omega)
      omega
    have hm52 : (BitVec.ofNat 52 m).toNat = m := by
      rw [BitVec.toNat_ofNat]
      omega
    have hzero : ¬ BitVec.ofNat 52 m = 0#52 := by
      intro h0
      rw [h0] at hm52
      change 0 = m at hm52
      omega
    rw [if_neg hlog]
    unfold UnpackedFloat.unpack
    simp only [unpackMantissa_packComponents, unpackExponent_packComponents,
      unpackSign_packComponents, ofBitVec_toBitVec, if_neg (by decide : ¬ 0#11 = -1#11), if_true,
      dif_neg hzero, hm52, hbias, UnpackedFloat.finite.injEq, true_and]
    rw [hfull.resolve_left hnormal]
    decide

/-! ### Order -/

theorem Fits.lt_of_exponent_lt {m m' : ℕ} {e e' : ℤ} (h : Fits m e) (h' : Fits m' e')
    (he : e < e') : (m : ℚ) * 2 ^ e < m' * 2 ^ e' := by
  have hm : (m : ℚ) < 2 ^ 53 := by exact_mod_cast h.digits
  have hm' : (2 : ℚ) ^ 52 ≤ m' := by
    have hleast := h.least
    have hfull : 2 ^ 52 ≤ m' := h'.full.resolve_right (by omega)
    exact_mod_cast hfull
  have hpow : (2 : ℚ) ^ (e + 1) ≤ 2 ^ e' := zpow_le_zpow_right₀ (by norm_num) (by omega)
  calc (m : ℚ) * 2 ^ e < 2 ^ 53 * 2 ^ e := mul_lt_mul_of_pos_right hm (by positivity)
    _ = 2 ^ 52 * 2 ^ (e + 1) := by
      rw [zpow_add_one₀ (by norm_num)]
      ring
    _ ≤ m' * 2 ^ e' := mul_le_mul hm' hpow (by positivity) (by positivity)

theorem Fits.compare_eq {m m' : ℕ} {e e' : ℤ} (h : Fits m e) (h' : Fits m' e') :
    (compare e e').then (compare m m') = compare ((m : ℚ) * 2 ^ e) (m' * 2 ^ e') := by
  rcases lt_trichotomy e e' with he | rfl | he
  · rw [compare_lt_iff_lt.2 he, compare_lt_iff_lt.2 (h.lt_of_exponent_lt h' he)]
    rfl
  · have hpow : (0 : ℚ) < 2 ^ e := by positivity
    rw [compare_eq_iff_eq.2 rfl]
    rcases lt_trichotomy m m' with hm | rfl | hm
    · have hm' : (m : ℚ) < m' := by exact_mod_cast hm
      rw [compare_lt_iff_lt.2 hm, compare_lt_iff_lt.2 (mul_lt_mul_of_pos_right hm' hpow)]
      rfl
    · rw [compare_eq_iff_eq.2 rfl, compare_eq_iff_eq.2 rfl]
      rfl
    · have hm' : (m' : ℚ) < m := by exact_mod_cast hm
      rw [compare_gt_iff_gt.2 hm, compare_gt_iff_gt.2 (mul_lt_mul_of_pos_right hm' hpow)]
      rfl
  · rw [compare_gt_iff_gt.2 he, compare_gt_iff_gt.2 (h'.lt_of_exponent_lt h he)]
    rfl

theorem compare_neg_neg (a b : ℚ) : compare (-a) (-b) = (compare a b).swap := by
  rcases lt_trichotomy a b with h | rfl | h
  · rw [compare_lt_iff_lt.2 h, compare_gt_iff_gt.2 (neg_lt_neg h)]
    rfl
  · rw [compare_eq_iff_eq.2 rfl, compare_eq_iff_eq.2 rfl]
    rfl
  · rw [compare_gt_iff_gt.2 h, compare_lt_iff_lt.2 (neg_lt_neg h)]
    rfl

theorem compare_rational {x y : Float} {a b : ℚ} (hx : rational? x = some a)
    (hy : rational? y = some b) : x.toModel.compare y.toModel = some (compare a b) := by
  have hpos : ∀ {m : ℕ} {e : ℤ}, 0 < m → (0 : ℚ) < m * 2 ^ e := by
    intro m e hm
    have hm' : (0 : ℚ) < m := by exact_mod_cast hm
    positivity
  unfold Float.Model.compare
  obtain ⟨s, hxu, rfl⟩ | ⟨s, m, e, hm, hxu, hfits, -, rfl⟩ := rational?_cases hx
  · obtain ⟨s', hyu, rfl⟩ | ⟨s', m', e', hm', hyu, hfits', -, rfl⟩ := rational?_cases hy
    · rw [hxu, hyu, compare_eq_iff_eq.2 rfl]
      rfl
    · have hpos' := hpos (e := e') hm'
      rw [hxu, hyu]
      cases s' with
      | positive => rw [compare_lt_iff_lt.2 (by simpa [Sign.apply] using hpos')]; rfl
      | negative => rw [compare_gt_iff_gt.2 (by simpa [Sign.apply] using hpos')]; rfl
  · have hpos₁ := hpos (e := e) hm
    obtain ⟨s', hyu, rfl⟩ | ⟨s', m', e', hm', hyu, hfits', -, rfl⟩ := rational?_cases hy
    · rw [hxu, hyu]
      cases s with
      | positive => rw [compare_gt_iff_gt.2 (by simpa [Sign.apply] using hpos₁)]; rfl
      | negative => rw [compare_lt_iff_lt.2 (by simpa [Sign.apply] using hpos₁)]; rfl
    · have hpos' := hpos (e := e') hm'
      have hsame := hfits.compare_eq hfits'
      rw [hxu, hyu]
      cases s <;> cases s' <;> simp only [Sign.apply, Int.cast_neg, Int.cast_natCast, neg_mul]
      · rw [compare_neg_neg, ← hsame]
        rfl
      · rw [compare_lt_iff_lt.2 (by linarith)]
        rfl
      · rw [compare_gt_iff_gt.2 (by linarith)]
        rfl
      · rw [← hsame]
        rfl

theorem le_iff {x y : Float} {a b : ℚ} (hx : rational? x = some a) (hy : rational? y = some b) :
    x ≤ y ↔ a ≤ b := by
  have hcompare : x.toModel.unpack.compare y.toModel.unpack = some (compare a b) :=
    compare_rational hx hy
  have hle : x ≤ y ↔ ((x.toModel.unpack.compare y.toModel.unpack).any (·.isLE)) = true := by
    show decide _ = true ↔ _
    rw [decide_eq_true_eq]
    rfl
  rw [hle, hcompare, Option.any_some, Ordering.isLE_iff_ne_gt]
  exact compare_le_iff_le

theorem lt_iff_compare {x y : Float} :
    x < y ↔ x.toModel.unpack.compare y.toModel.unpack = some .lt := by
  have hlt : x < y ↔ (x.toModel.unpack.compare y.toModel.unpack == some .lt) = true := by
    show decide _ = true ↔ _
    rw [decide_eq_true_eq]
    rfl
  rw [hlt, beq_iff_eq]

theorem lt_iff {x y : Float} {a b : ℚ} (hx : rational? x = some a) (hy : rational? y = some b) :
    x < y ↔ a < b := by
  have hcompare : x.toModel.unpack.compare y.toModel.unpack = some (compare a b) :=
    compare_rational hx hy
  rw [lt_iff_compare, hcompare, Option.some_inj, compare_lt_iff_lt]

end SpriteStage.Number
