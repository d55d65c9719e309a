import SpriteStage.Proofs.Number.Rational

/-!
Rounding to doubles. The rounding functions of the float model divide a mantissa by a power of two
and round the quotient as `roundDiv` does; what follows for the numbers is collected in `Rounds`.
-/

open Float.Model Float.Model.UnpackedFloat

namespace SpriteStage.Number

theorem shiftRight_exact (m k : ℕ) :
    ExtendedMantissa.ofMantissaAndAccuracy m .exact >>> k =
      ⟨m / 2 ^ k, decide (2 ^ k ≤ 2 * (m % 2 ^ k)),
        decide (m % 2 ^ k ≠ 0 ∧ 2 * (m % 2 ^ k) ≠ 2 ^ k)⟩ := by
  induction k with
  | zero =>
    show ExtendedMantissa.ofMantissaAndAccuracy m .exact = _
    simp [ExtendedMantissa.ofMantissaAndAccuracy, Nat.mod_one]
  | succ k ih =>
    show (ExtendedMantissa.ofMantissaAndAccuracy m .exact >>> k).shiftRightOne = _
    have hpos : 0 < 2 ^ k := Nat.two_pow_pos k
    have hlt := Nat.mod_lt m hpos
    have hmod : m % 2 ^ (k + 1) = 2 ^ k * (m / 2 ^ k % 2) + m % 2 ^ k := by
      rw [pow_succ, Nat.mod_mul]
      omega
    have hdiv : m / 2 ^ (k + 1) = m / 2 ^ k / 2 := by rw [pow_succ, Nat.div_div_eq_div_mul]
    rw [ih, ExtendedMantissa.shiftRightOne, hdiv, hmod, pow_succ]
    dsimp only
    have hbit : m / 2 ^ k % 2 = 0 ∨ m / 2 ^ k % 2 = 1 := by omega
    generalize m / 2 ^ k = d at hbit ⊢
    generalize m % 2 ^ k = r at hlt ⊢
    generalize 2 ^ k = p at hpos hlt ⊢
    rw [ExtendedMantissa.mk.injEq]
    refine ⟨rfl, Bool.eq_iff_iff.2 ?_, Bool.eq_iff_iff.2 ?_⟩
    · simp only [bne_iff_ne, decide_eq_true_eq]
      rcases hbit with hbit | hbit <;> rw [hbit] <;> omega
    · simp only [Bool.or_eq_true, decide_eq_true_eq]
      rcases hbit with hbit | hbit <;> rw [hbit] <;> omega

theorem roundedMantissa_shiftRight (m k : ℕ) :
    (ExtendedMantissa.ofMantissaAndAccuracy m .exact >>> k).roundedMantissa =
      roundDiv m (2 ^ k) := by
  have hlt := Nat.mod_lt m (Nat.two_pow_pos k)
  rw [shiftRight_exact]
  unfold roundDiv
  generalize m / 2 ^ k = q
  generalize m % 2 ^ k = r at hlt ⊢
  generalize 2 ^ k = p at hlt ⊢
  dsimp only
  rcases lt_trichotomy (2 * r) p with hhalf | hhalf | hhalf
  · have hround : decide (p ≤ 2 * r) = false := decide_eq_false (by omega)
    rw [hround, if_pos (.inl hhalf)]
    cases decide (r ≠ 0 ∧ 2 * r ≠ p) <;> rfl
  · have hround : decide (p ≤ 2 * r) = true := decide_eq_true (by omega)
    have hsticky : decide (r ≠ 0 ∧ 2 * r ≠ p) = false := decide_eq_false (by omega)
    rw [hround, hsticky]
    show q + q % 2 = _
    split <;> omega
  · have hround : decide (p ≤ 2 * r) = true := decide_eq_true (by omega)
    have hsticky : decide (r ≠ 0 ∧ 2 * r ≠ p) = true := decide_eq_true (by omega)
    rw [hround, hsticky, if_neg (by omega)]
    rfl

/-! ### Mantissa and exponent -/

/-- The exponent of the double next to `m * 2 ^ e`. -/
def exponentFor (m : ℕ) (e : ℤ) : ℤ :=
  max (m.log2 + e - 52) (-1074)

theorem targetExponent_eq (m : ℕ) (e : ℤ) :
    Format.binary64.targetExponent (totalExponent m e) = exponentFor m e := by
  have hleast : Format.binary64.minExponent = -1074 := by decide
  have hbits : (Format.binary64.mantissaBits : ℤ) = 53 := rfl
  rw [Format.targetExponent, totalExponent, exponentFor, hleast, hbits]
  congr 1
  omega

/-- The mantissa of that double. -/
def mantissaFor (m : ℕ) (e : ℤ) : ℕ :=
  roundDiv m (2 ^ (exponentFor m e - e).toNat)

theorem le_roundDiv {a n d : ℕ} (hd : 0 < d) (h : a * d ≤ n) : a ≤ roundDiv n d := by
  have hdiv : a ≤ n / d := (Nat.le_div_iff_mul_le hd).2 h
  unfold roundDiv
  dsimp only
  split <;> omega

theorem roundDiv_le {a n d : ℕ} (hd : 0 < d) (h : 2 * n < (2 * a + 1) * d) :
    roundDiv n d ≤ a := by
  have hnear := (roundDiv_near n hd).2
  have hlt : 2 * (d * roundDiv n d) < 2 * (d * (a + 1)) := by
    have hexpand : 2 * (d * (a + 1)) = (2 * a + 1) * d + d := by ring
    omega
  have hlt' : d * roundDiv n d < d * (a + 1) := by omega
  exact Nat.lt_succ_iff.1 (Nat.lt_of_mul_lt_mul_left hlt')

theorem succ_le_roundDiv {a n d : ℕ} (hd : 0 < d) (hodd : a % 2 = 1)
    (h : (2 * a + 1) * d ≤ 2 * n) : a + 1 ≤ roundDiv n d := by
  have hexpand : (2 * a + 1) * d = 2 * (a * d) + d := by ring
  have hle : a ≤ n / d := (Nat.le_div_iff_mul_le hd).2 (by omega)
  have hdm := Nat.div_add_mod n d
  unfold roundDiv
  dsimp only
  rcases hle.lt_or_eq with hlt | heq
  · split <;> omega
  · rw [← heq, Nat.mul_comm] at hdm
    rw [← heq, if_neg (by omega)]

theorem lt_shift {m : ℕ} {e : ℤ} (he : e ≤ exponentFor m e) :
    m < 2 ^ 53 * 2 ^ (exponentFor m e - e).toNat := by
  have hshift : m.log2 + 1 ≤ 53 + (exponentFor m e - e).toNat := by
    have hmax : (m.log2 : ℤ) + e - 52 ≤ exponentFor m e := le_max_left _ _
    omega
  calc m < 2 ^ (m.log2 + 1) := Nat.lt_log2_self
    _ ≤ 2 ^ (53 + (exponentFor m e - e).toNat) := Nat.pow_le_pow_right (by decide) hshift
    _ = 2 ^ 53 * 2 ^ (exponentFor m e - e).toNat := Nat.pow_add ..

theorem mantissaFor_le {m : ℕ} {e : ℤ} (he : e ≤ exponentFor m e) :
    mantissaFor m e ≤ 2 ^ 53 := by
  have hlt := lt_shift he
  exact roundDiv_le (Nat.two_pow_pos _) (by omega)

theorem exponentFor_of_lt {c : ℕ} {t : ℤ} (hc : c < 2 ^ 53) (ht : -1074 ≤ t) :
    exponentFor c t ≤ t := by
  have hlog : c.log2 < 53 := by
    by_cases hzero : c = 0
    · simp [hzero]
    · exact (Nat.log2_lt hzero).2 hc
  exact max_le (by omega) ht

theorem shiftToTargetExponent_eq (m : ℕ) (e : ℤ) :
    shiftToTargetExponent Format.binary64 m e .exact =
      (ExtendedMantissa.ofMantissaAndAccuracy m .exact >>> (exponentFor m e - e).toNat,
        e + (exponentFor m e - e).toNat) := by
  rw [shiftToTargetExponent, targetExponent_eq]
  rfl

theorem shiftToTargetExponent_of_lt {c : ℕ} {t : ℤ} (hc : c < 2 ^ 53) (ht : -1074 ≤ t) :
    shiftToTargetExponent Format.binary64 c t .exact = (⟨c, false, false⟩, t) := by
  have hstay : (exponentFor c t - t).toNat = 0 := by
    have hle := exponentFor_of_lt hc ht
    omega
  rw [shiftToTargetExponent_eq, hstay, Nat.cast_zero, add_zero]
  rfl

theorem shiftToTargetExponent_carry {t : ℤ} (ht : -1074 ≤ t) :
    shiftToTargetExponent Format.binary64 (2 ^ 53) t .exact = (⟨2 ^ 52, false, false⟩, t + 1) := by
  have hexponent : exponentFor (2 ^ 53) t = t + 1 := by
    rw [exponentFor, Nat.log2_two_pow]
    omega
  have hone : (exponentFor (2 ^ 53) t - t).toNat = 1 := by omega
  rw [shiftToTargetExponent_eq, hone]
  rfl

theorem roundWithAccuracy_eq (s : Sign) {m : ℕ} {e : ℤ} (he : e ≤ exponentFor m e) :
    roundWithAccuracy Format.binary64 s m e .exact =
      if h : mantissaFor m e = 0 then .zero s
      else if mantissaFor m e < 2 ^ 53 then
        .finite s (mantissaFor m e) (exponentFor m e) (Nat.pos_of_ne_zero h)
      else .finite s (2 ^ 52) (exponentFor m e + 1) (by decide) := by
  have hleast : -1074 ≤ exponentFor m e := le_max_right _ _
  have hle := mantissaFor_le he
  have hfirst : shiftToTargetExponent Format.binary64 m e .exact =
      (ExtendedMantissa.ofMantissaAndAccuracy m .exact >>> (exponentFor m e - e).toNat,
        exponentFor m e) := by
    have hexponent : e + (exponentFor m e - e).toNat = exponentFor m e := by omega
    rw [shiftToTargetExponent_eq, hexponent]
  have hrounded : roundDiv m (2 ^ (exponentFor m e - e).toNat) = mantissaFor m e := rfl
  unfold roundWithAccuracy
  simp only [hfirst, roundedMantissa_shiftRight, hrounded]
  by_cases hlt : mantissaFor m e < 2 ^ 53
  · simp only [shiftToTargetExponent_of_lt hlt hleast, hlt, if_true]
  · have htop : mantissaFor m e = 2 ^ 53 := by omega
    simp only [htop, shiftToTargetExponent_carry hleast]
    rfl

theorem full_or_least {m : ℕ} {e : ℤ} (hm : m ≠ 0) (he : e ≤ exponentFor m e) :
    2 ^ 52 * 2 ^ (exponentFor m e - e).toNat ≤ m ∨ exponentFor m e = -1074 := by
  by_cases hleast : exponentFor m e = -1074
  · exact .inr hleast
  · left
    have hlog : 52 + (exponentFor m e - e).toNat = m.log2 := by
      unfold exponentFor at he hleast ⊢
      omega
    rw [← Nat.pow_add, hlog]
    exact Nat.log2_self_le hm

def Shaped : UnpackedFloat → Prop
  | .zero _ => True
  | .finite _ m e _ => Fits m e
  | _ => False

theorem shaped_roundWithAccuracy (s : Sign) {m : ℕ} {e : ℤ} (hm : m ≠ 0)
    (he : e ≤ exponentFor m e) :
    Shaped (roundWithAccuracy Format.binary64 s m e .exact) ∧
      unpackedRational (roundWithAccuracy Format.binary64 s m e .exact) =
        some (((s.apply (mantissaFor m e) : ℤ) : ℚ) * 2 ^ exponentFor m e) := by
  have hleast : -1074 ≤ exponentFor m e := le_max_right _ _
  have hle := mantissaFor_le he
  rw [roundWithAccuracy_eq s he]
  split
  next hzero =>
    refine ⟨trivial, ?_⟩
    rw [hzero]
    cases s <;> simp [unpackedRational, Sign.apply]
  next hzero =>
    split
    next hlt =>
      refine ⟨⟨Nat.pos_of_ne_zero hzero, hlt, hleast, ?_⟩, rfl⟩
      exact (full_or_least hm he).imp_left (le_roundDiv (Nat.two_pow_pos _))
    next hlt =>
      have htop : mantissaFor m e = 2 ^ 53 := by omega
      refine ⟨⟨by decide, by decide, by omega, .inl le_rfl⟩, ?_⟩
      rw [htop, unpackedRational, zpow_add_one₀ (by norm_num)]
      cases s <;> simp [Sign.apply] <;> ring

/-! ### Neighbours -/

def Representable (q : ℚ) : Prop :=
  ∃ n e : ℤ, |n| < 2 ^ 53 ∧ -1074 ≤ e ∧ q = n * 2 ^ e

/-- The number `v` is next to `q`: no representable number lies between them, and of two positive
neighbours it is the nearer one, or between an odd and an even one the even one. -/
structure Rounds (q v : ℚ) : Prop where
  below : ∀ r, Representable r → r ≤ q → r ≤ v
  above : ∀ r, Representable r → q ≤ r → v ≤ r
  down : ∀ (n : ℕ) (e : ℤ), 2 ^ 52 ≤ n → n < 2 ^ 53 → -1074 ≤ e → q < (n + 1 / 2) * 2 ^ e →
    v ≤ n * 2 ^ e
  up : ∀ (n : ℕ) (e : ℤ), 2 ^ 52 ≤ n → n < 2 ^ 53 → n % 2 = 1 → -1074 ≤ e →
    (n + 1 / 2) * 2 ^ e ≤ q → (n + 1) * 2 ^ e ≤ v

/-- A representable number is a multiple of a power of two, or small against it. -/
theorem Representable.multiple_or_lt {r : ℚ} (h : Representable r) (hr : 0 ≤ r) (t : ℤ) :
    (∃ a : ℕ, r = a * 2 ^ t) ∨ -1074 < t ∧ r < 2 ^ 52 * 2 ^ t := by
  obtain ⟨n, e, hn, he, rfl⟩ := h
  have hpow : (0 : ℚ) < 2 ^ e := by positivity
  have hn0 : 0 ≤ n := by
    have := nonneg_of_mul_nonneg_left hr hpow
    exact_mod_cast this
  rcases le_or_gt t e with ht | ht
  · refine .inl ⟨n.toNat * 2 ^ (e - t).toNat, ?_⟩
    have hcast : ((n.toNat : ℕ) : ℚ) = n := by exact_mod_cast Int.toNat_of_nonneg hn0
    have hsplit : (2 : ℚ) ^ e = 2 ^ (e - t).toNat * 2 ^ t := by
      rw [← zpow_natCast, ← zpow_add₀ (by norm_num)]
      congr 1
      omega
    push_cast
    rw [hcast, hsplit, mul_assoc]
  · refine .inr ⟨by omega, ?_⟩
    have hn' : (n : ℚ) < 2 ^ 53 := by exact_mod_cast (abs_lt.1 hn).2
    have hle : (2 : ℚ) ^ (e + 1) ≤ 2 ^ t := zpow_le_zpow_right₀ (by norm_num) (by omega)
    calc (n : ℚ) * 2 ^ e < 2 ^ 53 * 2 ^ e := mul_lt_mul_of_pos_right hn' hpow
      _ = 2 ^ 52 * 2 ^ (e + 1) := by
        rw [zpow_add_one₀ (by norm_num)]
        ring
      _ ≤ 2 ^ 52 * 2 ^ t := by gcongr

section Grid

variable {m : ℕ} {e : ℤ}

theorem zpow_exponentFor (he : e ≤ exponentFor m e) :
    (2 : ℚ) ^ exponentFor m e = 2 ^ (exponentFor m e - e).toNat * 2 ^ e := by
  rw [← zpow_natCast, ← zpow_add₀ (by norm_num)]
  congr 1
  omega

theorem le_mantissaFor (he : e ≤ exponentFor m e) {a : ℕ}
    (h : (a : ℚ) * 2 ^ exponentFor m e ≤ m * 2 ^ e) : a ≤ mantissaFor m e := by
  have hunit : (0 : ℚ) < 2 ^ e := by positivity
  rw [zpow_exponentFor he, ← mul_assoc] at h
  have hnat : a * 2 ^ (exponentFor m e - e).toNat ≤ m := by
    exact_mod_cast le_of_mul_le_mul_right h hunit
  exact le_roundDiv (Nat.two_pow_pos _) hnat

theorem mantissaFor_le_of_lt (he : e ≤ exponentFor m e) {a : ℕ}
    (h : (m : ℚ) * 2 ^ e < (a + 1 / 2) * 2 ^ exponentFor m e) : mantissaFor m e ≤ a := by
  have hunit : (0 : ℚ) < 2 ^ e := by positivity
  rw [zpow_exponentFor he, ← mul_assoc] at h
  have hlt := lt_of_mul_lt_mul_right h hunit.le
  have htwice : (2 : ℚ) * m < (2 * a + 1) * 2 ^ (exponentFor m e - e).toNat := by linarith
  exact roundDiv_le (Nat.two_pow_pos _) (by exact_mod_cast htwice)

theorem succ_le_mantissaFor (he : e ≤ exponentFor m e) {a : ℕ} (hodd : a % 2 = 1)
    (h : (a + 1 / 2 : ℚ) * 2 ^ exponentFor m e ≤ m * 2 ^ e) : a + 1 ≤ mantissaFor m e := by
  have hunit : (0 : ℚ) < 2 ^ e := by positivity
  rw [zpow_exponentFor he, ← mul_assoc] at h
  have hle := le_of_mul_le_mul_right h hunit
  have htwice : ((2 * a + 1 : ℕ) : ℚ) * 2 ^ (exponentFor m e - e).toNat ≤ 2 * m := by
    push_cast
    linarith
  exact succ_le_roundDiv (Nat.two_pow_pos _) hodd (by exact_mod_cast htwice)

theorem binade_le (hm : m ≠ 0) (he : e ≤ exponentFor m e) (h : -1074 < exponentFor m e) :
    (2 : ℚ) ^ 52 * 2 ^ exponentFor m e ≤ m * 2 ^ e := by
  have hnat := (full_or_least hm he).resolve_right (by omega)
  have hle : (2 : ℚ) ^ 52 * 2 ^ (exponentFor m e - e).toNat ≤ m := by exact_mod_cast hnat
  rw [zpow_exponentFor he, ← mul_assoc]
  gcongr

theorem lt_binade (he : e ≤ exponentFor m e) :
    (m : ℚ) * 2 ^ e < 2 ^ 53 * 2 ^ exponentFor m e := by
  have hlt : (m : ℚ) < 2 ^ 53 * 2 ^ (exponentFor m e - e).toNat := by exact_mod_cast lt_shift he
  rw [zpow_exponentFor he, ← mul_assoc]
  gcongr

theorem binade_mono {s t : ℤ} (h : s < t) : (2 : ℚ) ^ 53 * 2 ^ s ≤ 2 ^ 52 * 2 ^ t := by
  have hpow : (2 : ℚ) ^ (s + 1) ≤ 2 ^ t := zpow_le_zpow_right₀ (by norm_num) (by omega)
  calc (2 : ℚ) ^ 53 * 2 ^ s = 2 ^ 52 * 2 ^ (s + 1) := by
        rw [zpow_add_one₀ (by norm_num)]
        ring
    _ ≤ 2 ^ 52 * 2 ^ t := by gcongr

theorem rounds_mantissaFor (hm : m ≠ 0) (he : e ≤ exponentFor m e) :
    Rounds (m * 2 ^ e) (mantissaFor m e * 2 ^ exponentFor m e) := by
  have hgrid : ∀ {a b : ℕ}, a ≤ b → (a : ℚ) * 2 ^ exponentFor m e ≤ b * 2 ^ exponentFor m e := by
    intro a b h
    gcongr
  have hfull : -1074 < exponentFor m e →
      (2 : ℚ) ^ 52 * 2 ^ exponentFor m e ≤ mantissaFor m e * 2 ^ exponentFor m e := by
    intro hlt
    have hle : 2 ^ 52 ≤ mantissaFor m e :=
      le_mantissaFor he (by exact_mod_cast binade_le hm he hlt)
    exact_mod_cast hgrid hle
  constructor
  case below =>
    intro r hr hrq
    rcases lt_or_ge r 0 with hneg | hpos
    · exact hneg.le.trans (by positivity)
    · rcases hr.multiple_or_lt hpos (exponentFor m e) with ⟨a, rfl⟩ | ⟨hlt, hsmall⟩
      · exact hgrid (le_mantissaFor he hrq)
      · exact hsmall.le.trans (hfull hlt)
  case above =>
    intro r hr hqr
    have hpos : 0 ≤ r := le_trans (by positivity) hqr
    rcases hr.multiple_or_lt hpos (exponentFor m e) with ⟨a, rfl⟩ | ⟨hlt, hsmall⟩
    · have hunit : (0 : ℚ) < 2 ^ exponentFor m e := by positivity
      exact hgrid (mantissaFor_le_of_lt he (by linarith))
    · exact absurd (binade_le hm he hlt) (by linarith)
  -- the grid of `q` is finer than that of the neighbours, the same, or coarser
  case down =>
    intro n b hn hn' hb hq
    have hn₁ : (2 : ℚ) ^ 52 ≤ n := by exact_mod_cast hn
    have hn₂ : (n : ℚ) + 1 ≤ 2 ^ 53 := by exact_mod_cast hn'
    rcases lt_trichotomy (exponentFor m e) b with ht | rfl | ht
    · calc (mantissaFor m e : ℚ) * 2 ^ exponentFor m e ≤ 2 ^ 53 * 2 ^ exponentFor m e := by
            exact_mod_cast hgrid (mantissaFor_le he)
        _ ≤ 2 ^ 52 * 2 ^ b := binade_mono ht
        _ ≤ n * 2 ^ b := by gcongr
    · exact hgrid (mantissaFor_le_of_lt he hq)
    · have hle : (n + 1 / 2) * (2 : ℚ) ^ b ≤ 2 ^ 53 * 2 ^ b := by
        gcongr
        linarith
      exact absurd hq (not_lt.2 (hle.trans ((binade_mono ht).trans (binade_le hm he (by omega)))))
  case up =>
    intro n b hn hn' hodd hb hq
    have hn₁ : (2 : ℚ) ^ 52 ≤ n := by exact_mod_cast hn
    have hn₂ : (n : ℚ) + 1 ≤ 2 ^ 53 := by exact_mod_cast hn'
    rcases lt_trichotomy (exponentFor m e) b with ht | rfl | ht
    · have hle : (2 : ℚ) ^ 52 * 2 ^ b ≤ (n + 1 / 2) * 2 ^ b := by
        gcongr
        linarith
      exact absurd (lt_binade he) (not_lt.2 ((binade_mono ht).trans (hle.trans hq)))
    · exact_mod_cast hgrid (succ_le_mantissaFor he hodd hq)
    · have hle : (n + 1 : ℚ) * 2 ^ b ≤ 2 ^ 53 * 2 ^ b := by gcongr
      exact hle.trans ((binade_mono ht).trans (hfull (by omega)))

end Grid

theorem Representable.neg {r : ℚ} (h : Representable r) : Representable (-r) := by
  obtain ⟨n, e, hn, he, rfl⟩ := h
  exact ⟨-n, e, by rwa [abs_neg], he, by push_cast; ring⟩

theorem representable_int {n : ℤ} (h : |n| < 2 ^ 53) : Representable n :=
  ⟨n, 0, h, by decide, by simp⟩

theorem representable_zero : Representable 0 := by
  simpa using representable_int (n := 0) (by decide)

theorem Rounds.refl {q : ℚ} (h : Representable q) : Rounds q q := by
  refine ⟨fun r _ hr => hr, fun r _ hr => hr, fun n e hn _ _ hq => ?_,
    fun n e hn _ _ _ hq => ?_⟩
  · have hn₁ : (2 : ℚ) ^ 52 ≤ n := by exact_mod_cast hn
    have hunit : (0 : ℚ) < 2 ^ e := by positivity
    rcases le_or_gt q 0 with hneg | hpos
    · exact hneg.trans (by positivity)
    · rcases h.multiple_or_lt hpos.le e with ⟨a, rfl⟩ | ⟨-, hsmall⟩
      · have hlt : (a : ℚ) < n + 1 := by linarith [lt_of_mul_lt_mul_right hq hunit.le]
        have hle : a ≤ n := Nat.lt_succ_iff.1 (by exact_mod_cast hlt)
        gcongr
      · exact hsmall.le.trans (by gcongr)
  · have hn₁ : (2 : ℚ) ^ 52 ≤ n := by exact_mod_cast hn
    have hunit : (0 : ℚ) < 2 ^ e := by positivity
    have hpos : (0 : ℚ) ≤ (n + 1 / 2) * 2 ^ e := by positivity
    rcases h.multiple_or_lt (hpos.trans hq) e with ⟨a, rfl⟩ | ⟨-, hsmall⟩
    · have hlt : (n : ℚ) < a := by linarith [le_of_mul_le_mul_right hq hunit]
      have hle : n + 1 ≤ a := by exact_mod_cast hlt
      have hle' : (n + 1 : ℚ) ≤ a := by exact_mod_cast hle
      gcongr
    · have hle : (2 : ℚ) ^ 52 * 2 ^ e ≤ (n + 1 / 2) * 2 ^ e := by
        gcongr
        linarith
      exact absurd (hle.trans hq) (not_le.2 hsmall)

theorem Rounds.eq {q v : ℚ} (h : Rounds q v) (hq : Representable q) : v = q :=
  le_antisymm (h.above q hq le_rfl) (h.below q hq le_rfl)

theorem Rounds.neg {q v : ℚ} (h : Rounds q v) (hq : 0 ≤ q) : Rounds (-q) (-v) := by
  refine ⟨fun r hr hrq => ?_, fun r hr hqr => ?_, fun n e _ _ _ _ => ?_,
    fun n e _ _ _ _ hle => ?_⟩
  · exact le_neg_of_le_neg (h.above _ hr.neg (le_neg_of_le_neg hrq))
  · exact neg_le_of_neg_le (h.below _ hr.neg (neg_le_of_neg_le hqr))
  · have hv : 0 ≤ v := h.below 0 representable_zero hq
    have hn : (0 : ℚ) ≤ n * 2 ^ e := by positivity
    linarith
  · have hn : (0 : ℚ) < (n + 1 / 2) * 2 ^ e := by positivity
    exact absurd (hn.trans_le hle) (by linarith)

/-! ### Rounding functions -/

/-- The unpacked `u` is in shape and stands for the double next to `q`. -/
def RoundsTo (q : ℚ) (u : UnpackedFloat) : Prop :=
  Shaped u ∧ ∃ v, unpackedRational u = some v ∧ Rounds q v

theorem apply_mul (s : Sign) (n : ℤ) (q : ℚ) :
    ((s.apply n : ℤ) : ℚ) * q = (s.apply 1 : ℤ) * (n * q) := by
  cases s <;> simp [Sign.apply]

theorem roundsTo_roundWithAccuracy (s : Sign) {m : ℕ} {e : ℤ} (hm : m ≠ 0)
    (he : e ≤ exponentFor m e) :
    RoundsTo (((s.apply m : ℤ) : ℚ) * 2 ^ e) (roundWithAccuracy Format.binary64 s m e .exact) := by
  obtain ⟨hshaped, hvalue⟩ := shaped_roundWithAccuracy s hm he
  refine ⟨hshaped, _, hvalue, ?_⟩
  have hrounds := rounds_mantissaFor hm he
  cases s with
  | positive => exact hrounds
  | negative =>
    have hneg := hrounds.neg (by positivity)
    simpa only [Sign.apply, Int.cast_neg, Int.cast_natCast, neg_mul] using hneg

theorem log2_mul_two_pow {m : ℕ} (hm : m ≠ 0) (k : ℕ) : (m * 2 ^ k).log2 = m.log2 + k := by
  refine (Nat.log2_eq_iff (by positivity)).2 ⟨?_, ?_⟩
  · rw [Nat.pow_add]
    exact Nat.mul_le_mul_right _ (Nat.log2_self_le hm)
  · rw [Nat.add_right_comm, Nat.pow_add]
    exact Nat.mul_lt_mul_of_pos_right Nat.lt_log2_self (Nat.two_pow_pos k)

theorem exponentFor_shift {m : ℕ} (hm : m ≠ 0) (e : ℤ) (k : ℕ) :
    exponentFor (m <<< k) (e - k) = exponentFor m e := by
  rw [exponentFor, exponentFor, Nat.shiftLeft_eq, log2_mul_two_pow hm]
  push_cast
  congr 1
  omega

theorem shift_value (m k : ℕ) (e : ℤ) :
    ((m <<< k : ℕ) : ℚ) * 2 ^ (e - k) = m * 2 ^ e := by
  rw [Nat.shiftLeft_eq, zpow_sub₀ (by norm_num), zpow_natCast]
  push_cast
  field_simp

theorem roundsTo_round (s : Sign) {m : ℕ} (hm : m ≠ 0) (e : ℤ) :
    RoundsTo (((s.apply m : ℤ) : ℚ) * 2 ^ e) (round Format.binary64 s m e) := by
  have hround : round Format.binary64 s m e =
      roundWithAccuracy Format.binary64 s (m <<< (e - exponentFor m e).toNat)
        (e - (e - exponentFor m e).toNat) .exact := by
    rw [UnpackedFloat.round, targetExponent_eq]
    rfl
  have hshift := exponentFor_shift hm e (e - exponentFor m e).toNat
  have hvalue := shift_value m (e - exponentFor m e).toNat e
  have hpos : m <<< (e - exponentFor m e).toNat ≠ 0 := by
    rw [Nat.shiftLeft_eq]
    positivity
  have hrounded := roundsTo_roundWithAccuracy s hpos (e := e - (e - exponentFor m e).toNat)
    (by rw [hshift]; omega)
  rw [hround]
  convert hrounded using 1
  rw [apply_mul, apply_mul s (m <<< _ : ℕ), Int.cast_natCast, Int.cast_natCast, hvalue]

theorem roundsTo_normalize (n e : ℤ) (s : Sign) :
    RoundsTo (n * 2 ^ e) (UnpackedFloat.normalize Format.binary64 n e s) := by
  unfold UnpackedFloat.normalize
  rcases lt_trichotomy n 0 with hn | rfl | hn
  · have happly : Sign.negative.apply (-n).toNat = n := by
      rw [Sign.apply]
      omega
    rw [compare_lt_iff_lt.2 hn]
    have hround := roundsTo_round .negative (by omega : (-n).toNat ≠ 0) e
    rwa [happly] at hround
  · rw [compare_eq_iff_eq.2 rfl]
    exact ⟨trivial, 0, rfl, by simpa using Rounds.refl representable_zero⟩
  · have happly : Sign.positive.apply n.toNat = n := by
      rw [Sign.apply]
      omega
    rw [compare_gt_iff_gt.2 hn]
    have hround := roundsTo_round .positive (by omega : n.toNat ≠ 0) e
    rwa [happly] at hround

end SpriteStage.Number
