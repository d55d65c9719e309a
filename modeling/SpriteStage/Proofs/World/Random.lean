import SpriteStage.Proofs.Number.Arithmetic
import SpriteStage.World.Sensing

/-!
Random numbers. A draw between 64-bit integers is the lower bound and a remainder, without overflow.
A draw between two integer values is an integer between them if they are close together; if they
are far apart it is a share of their distance, rounded three times, and still between them.
-/

open SpriteStage.Number

namespace SpriteStage

namespace SplitMix

theorem toInt_toInt64 (n : UInt64) : n.toInt64.toInt = (n.toNat : ℤ).bmod (2 ^ 64) :=
  BitVec.toInt_eq_toNat_bmod n.toBitVec

theorem toNat_toUInt64 (n : Int64) : (n.toUInt64.toNat : ℤ) = n.toInt % (2 ^ 64 : ℕ) := by
  have hlt := n.toUInt64.toNat_lt
  have hbits : n.toInt = (n.toUInt64.toNat : ℤ).bmod (2 ^ 64) :=
    BitVec.toInt_eq_toNat_bmod n.toBitVec
  rw [hbits, Int.bmod_emod]
  omega

theorem toNat_width {low high : Int64} (h : low.toInt ≤ high.toInt) :
    ((high - low).toUInt64.toNat : ℤ) = high.toInt - low.toInt := by
  have hlow := low.le_toInt
  have hhigh := high.toInt_lt
  rw [toNat_toUInt64, Int64.toInt_sub, Int.bmod_emod]
  omega

theorem toInt_drawBetween (r : SplitMix) {low high : Int64} (h : low.toInt ≤ high.toInt) :
    (r.drawBetween low high).1.toInt =
      low.toInt + (r.draw.1.toNat : ℤ) % (high.toInt - low.toInt + 1) := by
  have hlow := low.le_toInt
  have hhigh := high.toInt_lt
  have hbits := r.draw.1.toNat_lt
  have hwidth := toNat_width h
  have hspan := UInt64.toNat_add (high - low).toUInt64 1
  have hone : (1 : UInt64).toNat = 1 := rfl
  have hrest : ((r.draw.1 % ((high - low).toUInt64 + 1)).toNat : ℤ) =
      r.draw.1.toNat % (high.toInt - low.toInt + 1) := by
    rw [UInt64.toNat_mod, hspan, hone]
    rcases Nat.lt_or_ge ((high - low).toUInt64.toNat + 1) (2 ^ 64) with hlt | hge
    · rw [Nat.mod_eq_of_lt hlt, ← hwidth]
      rfl
    -- the span of all integers wraps to zero, and the remainder by zero keeps all bits
    · have hfull : high.toInt - low.toInt + 1 = 2 ^ 64 := by omega
      have hzero : ((high - low).toUInt64.toNat + 1) % 2 ^ 64 = 0 := by omega
      rw [hzero, Nat.mod_zero, hfull]
      omega
  have hpos : 0 ≤ (r.draw.1.toNat : ℤ) % (high.toInt - low.toInt + 1) :=
    Int.emod_nonneg _ (by omega)
  have hle : (r.draw.1.toNat : ℤ) % (high.toInt - low.toInt + 1) < high.toInt - low.toInt + 1 :=
    Int.emod_lt_of_pos _ (by omega)
  show (low + (r.draw.1 % ((high - low).toUInt64 + 1)).toInt64).toInt = _
  rw [Int64.toInt_add, toInt_toInt64, hrest, Int.add_bmod_bmod, Int.bmod_eq_of_le] <;> omega

theorem drawBetween_bounds (r : SplitMix) {low high : Int64} (h : low.toInt ≤ high.toInt) :
    low.toInt ≤ (r.drawBetween low high).1.toInt ∧
      (r.drawBetween low high).1.toInt ≤ high.toInt := by
  have hdraw := r.toInt_drawBetween h
  have hpos := Int.emod_nonneg (r.draw.1.toNat : ℤ) (by omega : high.toInt - low.toInt + 1 ≠ 0)
  have hlt := Int.emod_lt_of_pos (r.draw.1.toNat : ℤ) (by omega : 0 < high.toInt - low.toInt + 1)
  omega

/-! ### Words -/

/-- A word together with its shift can be any word, if three shifts reach past the top: two more of
them undo the first. -/
theorem exists_xor_shiftRight (shift : UInt64) (hfew : shift.toNat < 64)
    (hmany : 64 ≤ 3 * shift.toNat) (bits : UInt64) : ∃ z, z ^^^ (z >>> shift) = bits := by
  let y := bits.toBitVec
  let z := y ^^^ (y >>> shift.toNat) ^^^ (y >>> (2 * shift.toNat))
  have hz : z ^^^ (z >>> shift.toNat) = y := by
    apply BitVec.eq_of_getLsbD_eq
    intro i _
    have htop : y.getLsbD (shift.toNat + (2 * shift.toNat + i)) = false :=
      BitVec.getLsbD_of_ge y _ (by omega)
    have hone : shift.toNat + (shift.toNat + i) = 2 * shift.toNat + i := by omega
    have htwo : 2 * shift.toNat + (shift.toNat + i) = shift.toNat + (2 * shift.toNat + i) := by
      omega
    simp only [z, BitVec.getLsbD_xor, BitVec.getLsbD_ushiftRight, hone, htwo, htop]
    cases y.getLsbD i <;> cases y.getLsbD (shift.toNat + i) <;>
      cases y.getLsbD (2 * shift.toNat + i) <;> rfl
  refine ⟨⟨z⟩, UInt64.toBitVec_inj.1 ?_⟩
  have hshift : (shift.toBitVec % 64).toNat = shift.toNat := Nat.mod_eq_of_lt hfew
  rw [UInt64.toBitVec_xor, UInt64.toBitVec_shiftRight, BitVec.ushiftRight_eq', hshift]
  exact hz

theorem exists_mix (bits : UInt64) : ∃ z, mix z = bits := by
  -- each factor has an inverse among the words
  have hunit₁ : (0x96DE1B173F119089 : UInt64) * 0xBF58476D1CE4E5B9 = 1 := by decide
  have hunit₂ : (0x319642B2D24D8EC3 : UInt64) * 0x94D049BB133111EB = 1 := by decide
  obtain ⟨z₃, h₃⟩ := exists_xor_shiftRight 31 (by decide) (by decide) bits
  obtain ⟨z₂, h₂⟩ := exists_xor_shiftRight 27 (by decide) (by decide) (z₃ * 0x319642B2D24D8EC3)
  obtain ⟨z₁, h₁⟩ := exists_xor_shiftRight 30 (by decide) (by decide) (z₂ * 0x96DE1B173F119089)
  refine ⟨z₁, ?_⟩
  simp only [mix, h₁, UInt64.mul_assoc, hunit₁, UInt64.mul_one, h₂, hunit₂, h₃]

/-- Every word is the draw of some state. -/
theorem exists_draw (bits : UInt64) : ∃ r : SplitMix, r.draw.1 = bits := by
  obtain ⟨z, hz⟩ := exists_mix bits
  exact ⟨⟨z - step⟩, by rw [draw, UInt64.sub_add_cancel, hz]⟩

/-! ### Checked words -/

/-- The difference of signed words, unless it overflows. -/
def subtract? (a b : Int64) : Option Int64 :=
  if a.toBitVec.ssubOverflow b.toBitVec then none else some (a - b)

/-- The sum of signed words, unless it overflows. -/
def addSigned? (a b : Int64) : Option Int64 :=
  if a.toBitVec.saddOverflow b.toBitVec then none else some (a + b)

/-- The sum of unsigned words, unless it overflows. -/
def addUnsigned? (a b : UInt64) : Option UInt64 :=
  if a.toBitVec.uaddOverflow b.toBitVec then none else some (a + b)

/-- The remainder of unsigned words, unless it is by zero. -/
def remainder? (a b : UInt64) : Option UInt64 :=
  if b = 0 then none else some (a % b)

/-- A signed word as an unsigned one, unless its bits then stand for another number. -/
def toUnsigned? (a : Int64) : Option UInt64 :=
  if a < 0 then none else some a.toUInt64

/-- An unsigned word as a signed one, unless its bits then stand for another number. -/
def toSigned? (a : UInt64) : Option Int64 :=
  if a.toInt64 < 0 then none else some a.toInt64

theorem subtract?_eq_some_iff {a b c : Int64} :
    subtract? a b = some c ↔ c.toInt = a.toInt - b.toInt := by
  have hlow := c.le_toInt
  have hhigh := c.toInt_lt
  have hover : a.toBitVec.ssubOverflow b.toBitVec = true ↔
      2 ^ 63 ≤ a.toInt - b.toInt ∨ a.toInt - b.toInt < -2 ^ 63 := by
    simp [BitVec.ssubOverflow]
  rw [subtract?]
  split
  next h =>
    have hout := hover.1 h
    exact ⟨nofun, fun hc => by omega⟩
  next h =>
    have hexact : (a - b).toInt = a.toInt - b.toInt := BitVec.toInt_sub_of_not_ssubOverflow h
    rw [Option.some_inj, ← Int64.toInt_inj, hexact, eq_comm]

theorem addSigned?_eq_some_iff {a b c : Int64} :
    addSigned? a b = some c ↔ c.toInt = a.toInt + b.toInt := by
  have hlow := c.le_toInt
  have hhigh := c.toInt_lt
  have hover : a.toBitVec.saddOverflow b.toBitVec = true ↔
      2 ^ 63 ≤ a.toInt + b.toInt ∨ a.toInt + b.toInt < -2 ^ 63 := by
    simp [BitVec.saddOverflow]
  rw [addSigned?]
  split
  next h =>
    have hout := hover.1 h
    exact ⟨nofun, fun hc => by omega⟩
  next h =>
    have hexact : (a + b).toInt = a.toInt + b.toInt := BitVec.toInt_add_of_not_saddOverflow h
    rw [Option.some_inj, ← Int64.toInt_inj, hexact, eq_comm]

theorem addUnsigned?_eq_some_iff {a b c : UInt64} :
    addUnsigned? a b = some c ↔ c.toNat = a.toNat + b.toNat := by
  have hlt := c.toNat_lt
  have hover : a.toBitVec.uaddOverflow b.toBitVec = true ↔ 2 ^ 64 ≤ a.toNat + b.toNat := by
    simp [BitVec.uaddOverflow]
  rw [addUnsigned?]
  split
  next h =>
    have hout := hover.1 h
    exact ⟨nofun, fun hc => by omega⟩
  next h =>
    have hin := mt hover.2 h
    have hexact : (a + b).toNat = a.toNat + b.toNat := by
      rw [UInt64.toNat_add]
      exact Nat.mod_eq_of_lt (by omega)
    rw [Option.some_inj, ← UInt64.toNat_inj, hexact, eq_comm]

theorem remainder?_eq_some_iff {a b c : UInt64} :
    remainder? a b = some c ↔ b.toNat ≠ 0 ∧ c.toNat = a.toNat % b.toNat := by
  have hzero : b = 0 ↔ b.toNat = 0 := by rw [← UInt64.toNat_inj]; rfl
  rw [remainder?]
  split
  next h => exact ⟨nofun, fun hc => absurd (hzero.1 h) hc.1⟩
  next h =>
    rw [Option.some_inj, ← UInt64.toNat_inj, UInt64.toNat_mod, eq_comm]
    exact ⟨fun hc => ⟨mt hzero.2 h, hc⟩, And.right⟩

theorem toUnsigned?_eq_some_iff {a : Int64} {b : UInt64} :
    toUnsigned? a = some b ↔ (b.toNat : ℤ) = a.toInt := by
  have hhigh := a.toInt_lt
  have hbits := toNat_toUInt64 a
  have hneg : a < 0 ↔ a.toInt < 0 := Int64.lt_iff_toInt_lt
  rw [toUnsigned?]
  split
  next h =>
    have hnegative := hneg.1 h
    exact ⟨nofun, fun hb => by omega⟩
  next h =>
    have hnonneg := mt hneg.2 h
    rw [Option.some_inj, ← UInt64.toNat_inj]
    omega

theorem toSigned?_eq_some_iff {a : UInt64} {b : Int64} :
    toSigned? a = some b ↔ b.toInt = a.toNat := by
  have hlt := a.toNat_lt
  have hhigh := b.toInt_lt
  have hbits := toInt_toInt64 a
  have hneg : a.toInt64 < 0 ↔ a.toInt64.toInt < 0 := Int64.lt_iff_toInt_lt
  rw [Int.bmod_def] at hbits
  rw [toSigned?]
  split
  next h =>
    have hnegative := hneg.1 h
    exact ⟨nofun, fun hb => by omega⟩
  next h =>
    have hnonneg := mt hneg.2 h
    rw [Option.some_inj, ← Int64.toInt_inj]
    omega

/-- A draw between two bounds that gives up where a step of it leaves the words. -/
def drawBetween? (r : SplitMix) (low high : Int64) : Option (Int64 × SplitMix) := do
  let width ← toUnsigned? (← subtract? high low)
  let span ← addUnsigned? width 1
  let (bits, r) := r.draw
  let rest ← toSigned? (← remainder? bits span)
  return (← addSigned? low rest, r)

/-- No step of a draw leaves the words if the bounds are less than `2 ^ 63` apart, and only then. -/
theorem drawBetween?_eq_some_iff (r : SplitMix) {low high : Int64} (h : low.toInt ≤ high.toInt) :
    r.drawBetween? low high = some (r.drawBetween low high) ↔
      high.toInt - low.toInt ≤ 2 ^ 63 - 1 := by
  constructor
  · intro hdraw
    obtain ⟨width, hwidth, -⟩ := Option.bind_eq_some_iff.1 hdraw
    have hexact := subtract?_eq_some_iff.1 hwidth
    have hlt := width.toInt_lt
    omega
  · intro hnarrow
    have hlow := low.le_toInt
    have hhigh := high.toInt_lt
    have hone : (1 : UInt64).toNat = 1 := rfl
    have hwidth := toNat_width h
    have hdifference : subtract? high low = some (high - low) := by
      rw [subtract?_eq_some_iff, Int64.toInt_sub, Int.bmod_eq_of_le] <;> omega
    have hunsigned : toUnsigned? (high - low) = some (high - low).toUInt64 := by
      rw [toUnsigned?_eq_some_iff, hwidth, subtract?_eq_some_iff.1 hdifference]
    simp only [drawBetween?, drawBetween, hdifference, hunsigned, Option.bind_eq_bind,
      Option.bind_some]
    generalize hs : (high - low).toUInt64 + 1 = span
    have hspan : span.toNat = (high - low).toUInt64.toNat + 1 := by
      rw [← hs, UInt64.toNat_add, hone]
      omega
    have hsuccessor : addUnsigned? (high - low).toUInt64 1 = some span := by
      rw [addUnsigned?_eq_some_iff, hspan, hone]
    rw [hsuccessor, Option.bind_some]
    rcases r.draw with ⟨bits, next⟩
    have hremainder : remainder? bits span = some (bits % span) :=
      remainder?_eq_some_iff.2 ⟨by omega, UInt64.toNat_mod bits span⟩
    have hrest : (bits % span).toNat < span.toNat := by
      rw [UInt64.toNat_mod]
      exact Nat.mod_lt _ (by omega)
    have hsigned : toSigned? (bits % span) = some (bits % span).toInt64 := by
      rw [toSigned?_eq_some_iff, toInt_toInt64, Int.bmod_eq_of_le] <;> omega
    have hsum : addSigned? low (bits % span).toInt64 = some (low + (bits % span).toInt64) := by
      rw [addSigned?_eq_some_iff, Int64.toInt_add, toSigned?_eq_some_iff.1 hsigned,
        Int.bmod_eq_of_le] <;> omega
    simp only [hremainder, hsigned, hsum, Option.bind_some]
    rfl

/-- Every number between the bounds is the draw of some word. -/
theorem exists_word {low high n : Int64} (hlow : low.toInt ≤ n.toInt)
    (hhigh : n.toInt ≤ high.toInt) :
    ∃ bits : UInt64, ∀ r : SplitMix, r.draw.1 = bits → (r.drawBetween low high).1 = n := by
  have hwidth := toNat_width hlow
  refine ⟨(n - low).toUInt64, fun r hr => Int64.toInt_inj.1 ?_⟩
  rw [r.toInt_drawBetween (hlow.trans hhigh), hr, hwidth, Int.emod_eq_of_lt (by omega) (by omega)]
  omega

/-- A draw between two signed words that are less than `2 ^ 63` apart never overflows or divides by
zero, lies between them, and can be any number there. -/
theorem drawBetween_stays_in_words {low high : Int64} (h : low ≤ high)
    (hnarrow : high.toInt - low.toInt ≤ 2 ^ 63 - 1) :
    (∀ r : SplitMix, r.drawBetween? low high = some (r.drawBetween low high) ∧
      low ≤ (r.drawBetween low high).1 ∧ (r.drawBetween low high).1 ≤ high) ∧
    ∀ n, low ≤ n → n ≤ high → ∃ bits : UInt64, (∃ r : SplitMix, r.draw.1 = bits) ∧
      ∀ r : SplitMix, r.draw.1 = bits → (r.drawBetween low high).1 = n := by
  have hle := Int64.le_iff_toInt_le.1 h
  refine ⟨fun r => ?_, fun n hlow hhigh => ?_⟩
  · obtain ⟨hge, hle'⟩ := r.drawBetween_bounds hle
    exact ⟨(r.drawBetween?_eq_some_iff hle).2 hnarrow, Int64.le_iff_toInt_le.2 hge,
      Int64.le_iff_toInt_le.2 hle'⟩
  · obtain ⟨bits, hbits⟩ :=
      exists_word (Int64.le_iff_toInt_le.1 hlow) (Int64.le_iff_toInt_le.1 hhigh)
    exact ⟨bits, exists_draw bits, hbits⟩

-- The widest span from the least word on.
theorem drawBetween_stays_in_words_widest :
    (-1 : Int64).toInt - Int64.minValue.toInt = 2 ^ 63 - 1 ∧
      (ofSeed 7).drawBetween? Int64.minValue (-1) =
        some ((ofSeed 7).drawBetween Int64.minValue (-1)) ∧
      Int64.minValue ≤ ((ofSeed 7).drawBetween Int64.minValue (-1)).1 ∧
      ((ofSeed 7).drawBetween Int64.minValue (-1)).1 ≤ -1 ∧
      ∃ bits : UInt64, (∃ r : SplitMix, r.draw.1 = bits) ∧
        ∀ r : SplitMix, r.draw.1 = bits →
          (r.drawBetween Int64.minValue (-1)).1 = Int64.minValue := by
  have hordered : Int64.minValue ≤ -1 := by decide
  obtain ⟨hdraws, hwords⟩ := drawBetween_stays_in_words hordered (by decide)
  obtain ⟨hchecked, hge, hle⟩ := hdraws (ofSeed 7)
  exact ⟨by decide, hchecked, hge, hle, hwords _ (by decide) (by decide)⟩

/-! ### The unit interval -/

theorem unpack_unit : (1 / 9007199254740992 : Float).toModel.unpack =
    .finite .positive (2 ^ 52) (-105) (by decide) :=
  rfl

/-- A draw from the unit interval is a whole number of steps of `2 ^ -53`. -/
theorem exists_share (r : SplitMix) :
    ∃ k : ℕ, k < 2 ^ 53 ∧ rational? r.drawUnit.1 = some ((k : ℚ) * 2 ^ (-53 : ℤ)) := by
  have hlt := r.draw.1.toNat_lt
  have hk : (r.draw.1 >>> 11).toNat < 2 ^ 53 := by
    rw [UInt64.toNat_shiftRight]
    show r.draw.1.toNat >>> 11 < _
    rw [Nat.shiftRight_eq_div_pow]
    omega
  have hk' : |((r.draw.1 >>> 11).toNat : ℤ)| < 2 ^ 53 := abs_lt.2 ⟨by omega, by omega⟩
  have hsize : ((r.draw.1 >>> 11).toNat : ℚ) < 2 ^ 53 := by exact_mod_cast hk
  have hword : rational? (r.draw.1 >>> 11).toFloat = some ((r.draw.1 >>> 11).toNat : ℚ) := by
    obtain ⟨v, hv⟩ := isRounded_toFloat (r.draw.1 >>> 11)
    refine hv.eq (by exact_mod_cast representable_int hk') (abs_lt_range ?_)
    rw [Nat.abs_cast]
    linarith
  have hunit : rational? (1 / 9007199254740992) = some ((2 : ℚ) ^ (-53 : ℤ)) := by
    rw [rational?, unpack_unit, unpackedRational]
    norm_num [Float.Model.UnpackedFloat.Sign.apply]
  obtain ⟨v, hv⟩ := isRounded_mul hword hunit
  refine ⟨_, hk, hv.eq ⟨(r.draw.1 >>> 11).toNat, -53, hk', by decide, rfl⟩ (abs_lt_range ?_)⟩
  have hone : (2 : ℚ) ^ (-53 : ℤ) ≤ 1 := by norm_num
  rw [abs_mul, Nat.abs_cast, abs_of_pos (by positivity)]
  exact (mul_le_of_le_one_right (Nat.cast_nonneg _) hone).trans (by linarith)

end SplitMix

namespace Number

/-! ### Shares -/

/-- A share of a normal number is at most the number before it, also after rounding. -/
theorem Fits.exists_before {m k : ℕ} {e : ℤ} {p : ℚ} (h : Fits m e) (he : -1074 < e)
    (hk : k < 2 ^ 53) (hp : Rounds (k * 2 ^ (-53 : ℤ) * (m * 2 ^ e)) p) :
    ∃ c, Representable c ∧ c < m * 2 ^ e ∧ p ≤ c := by
  have hfull : 2 ^ 52 ≤ m := h.full.resolve_right (by omega)
  have hdigits := h.digits
  have hunit : (0 : ℚ) < 2 ^ e := by positivity
  have hstep : (2 : ℚ) ^ (-53 : ℤ) = 1 / 2 ^ 53 := by norm_num
  have hk' : (k : ℚ) ≤ 2 ^ 53 - 1 := by
    have hle : (k : ℚ) + 1 ≤ 2 ^ 53 := by exact_mod_cast hk
    linarith
  rw [hstep, ← mul_assoc] at hp
  rcases hfull.lt_or_eq with hlt | rfl
  · have hm : (2 : ℚ) ^ 52 < m := by exact_mod_cast hlt
    have hcast : ((m - 1 : ℕ) : ℚ) = m - 1 := by rw [Nat.cast_sub (by omega), Nat.cast_one]
    refine ⟨(m - 1 : ℕ) * 2 ^ e, ⟨(m - 1 : ℕ), e, abs_lt.2 ⟨by omega, by omega⟩, h.least, rfl⟩, ?_,
      hp.down _ e (by omega) (by omega) h.least ?_⟩
    · rw [hcast]
      exact mul_lt_mul_of_pos_right (by linarith) hunit
    · have hshare : (k : ℚ) * (1 / 2 ^ 53) * m < m - 1 + 1 / 2 := by
        have hle : (k : ℚ) * m ≤ (2 ^ 53 - 1) * m := by gcongr
        have hquot : (k : ℚ) * (1 / 2 ^ 53) * m = k * m / 2 ^ 53 := by ring
        rw [hquot, div_lt_iff₀ (by norm_num)]
        linarith
      rw [hcast]
      exact mul_lt_mul_of_pos_right hshare hunit
  -- below a power of two the numbers lie twice as close
  · have hhalf : (2 : ℚ) ^ e = 2 * 2 ^ (e - 1) := by
      rw [← zpow_one_add₀ (by norm_num)]
      congr 1
      omega
    have hunit' : (0 : ℚ) < 2 ^ (e - 1) := by positivity
    have hbefore : Representable ((2 ^ 53 - 1) * 2 ^ (e - 1)) :=
      ⟨2 ^ 53 - 1, e - 1, by decide, by omega, by norm_num⟩
    refine ⟨_, hbefore, ?_, hp.above _ hbefore ?_⟩
    · rw [hhalf]
      push_cast
      linarith
    · rw [hhalf]
      push_cast
      nlinarith

theorem Fits.exponent_of_one_le {m : ℕ} {e : ℤ} (h : Fits m e) (hone : (1 : ℚ) ≤ m * 2 ^ e) :
    -1074 < e := by
  by_contra he
  have hm : (m : ℚ) < 2 ^ 53 := by exact_mod_cast h.digits
  have hlt : (m : ℚ) * 2 ^ e < 2 ^ 53 * 2 ^ e := mul_lt_mul_of_pos_right hm (by positivity)
  have hpow : (2 : ℚ) ^ ((53 : ℕ) + e) ≤ 2 ^ (0 : ℤ) :=
    zpow_le_zpow_right₀ (by norm_num) (by omega)
  rw [two_pow_mul_zpow] at hlt
  rw [zpow_zero] at hpow
  linarith

/-- A share of a rounded number is at most what it was before rounding. -/
theorem share_le {x : Float} {q d p : ℚ} {k : ℕ} (hx : rational? x = some d) (hd : Rounds q d)
    (hone : 1 ≤ d) (hk : k < 2 ^ 53) (hp : Rounds (k * 2 ^ (-53 : ℤ) * d) p) : p ≤ q := by
  obtain ⟨-, -, rfl⟩ | ⟨s, m, e, -, -, hfits, -, rfl⟩ := rational?_cases hx
  · norm_num at hone
  have hs : s = .positive := by
    cases s with
    | positive => rfl
    | negative =>
      have hnonneg : (0 : ℚ) ≤ m * 2 ^ e := by positivity
      rw [apply_mul] at hone
      simp only [Float.Model.UnpackedFloat.Sign.apply, Int.cast_natCast] at hone
      push_cast at hone
      linarith
  subst hs
  have hone' : (1 : ℚ) ≤ m * 2 ^ e := hone
  obtain ⟨c, hc, hlt, hpc⟩ := hfits.exists_before (hfits.exponent_of_one_le hone') hk hp
  have hcq : c ≤ q := by
    by_contra hqc
    exact absurd (hd.above c hc (le_of_not_ge hqc)) (not_le.2 hlt)
  exact hpc.trans hcq

end Number

namespace Value

/-! ### Bounds -/

theorem unpack_guard : (9e15 : Float).toModel.unpack =
    .finite .positive 9000000000000000 0 (by decide) :=
  rfl

theorem rational?_guard : rational? 9e15 = some (9 * 10 ^ 15) := by
  rw [rational?, unpack_guard, unpackedRational]
  norm_num [Float.Model.UnpackedFloat.Sign.apply]

/-- Half way between the largest double and the first number out of range. -/
theorem half_before_overflow :
    (((2 ^ 53 - 1 : ℕ) : ℚ) + 1 / 2) * 2 ^ (971 : ℤ) = ((2 ^ 1024 - 2 ^ 970 : ℤ) : ℚ) := by
  have hlast : (2 : ℚ) ^ (971 : ℤ) = 2 * 2 ^ 970 := by
    rw [← pow_succ']
    exact zpow_natCast 2 971
  have hlimit : (2 : ℤ) ^ 1024 = 2 ^ 54 * 2 ^ 970 := by rw [← pow_add]
  have hcast : (2 : ℚ) ^ 970 = ((2 ^ 970 : ℤ) : ℚ) := by rw [Int.cast_pow, Int.cast_ofNat]
  rw [hlast, hlimit, hcast]
  generalize (2 : ℤ) ^ 970 = unit
  push_cast
  ring

section Draws

variable {low high : Float} {x y : ℤ} (hlow : rational? low = some (x : ℚ))
  (hhigh : rational? high = some (y : ℚ))

include hlow hhigh

theorem lt_guard (hxy : x ≤ y) (hnarrow : y - x < 9 * 10 ^ 15) : high - low < 9e15 := by
  obtain ⟨d, hd⟩ := isRounded_sub hhigh hlow
  have hexact : Representable ((y - x : ℤ) : ℚ) :=
    representable_int (abs_lt.2 ⟨by omega, by omega⟩)
  have hle : ((y - x : ℤ) : ℚ) ≤ 2 ^ 63 := by exact_mod_cast (by omega : y - x ≤ 2 ^ 63)
  have hpos : (0 : ℚ) ≤ (y - x : ℤ) := by exact_mod_cast sub_nonneg.2 hxy
  rw [← Int.cast_sub] at hd
  have hdiff := hd.eq hexact (abs_lt_range (by rwa [abs_of_nonneg hpos]))
  refine (lt_iff hdiff rational?_guard).2 ?_
  exact_mod_cast hnarrow

theorem exists_drawn_integer (hxy : x ≤ y) (r : SplitMix) (hx : x ≤ 2 ^ 63) (hy : -2 ^ 63 ≤ y) :
    ∃ n : ℤ, rational? (Number.ofInt64
        (r.drawBetween (Number.toInt64 low) (Number.toInt64 high)).1) = some (n : ℚ) ∧
      x ≤ n ∧ n ≤ y := by
  have hlow' := toInt_toInt64 hlow
  have hhigh' := toInt_toInt64 hhigh
  obtain ⟨hge, hle⟩ := r.drawBetween_bounds
    (by omega : (Number.toInt64 low).toInt ≤ (Number.toInt64 high).toInt)
  generalize (r.drawBetween (Number.toInt64 low) (Number.toInt64 high)).1 = n at hge hle ⊢
  have hlt := n.toInt_lt
  obtain ⟨v, hv⟩ := isRounded_ofInt64 n
  have hxv : (x : ℚ) ≤ v := by
    rcases hx.lt_or_eq with hx63 | hx63
    · have hxn : x ≤ n.toInt := by omega
      exact hv.rounds.below x (representable_of_rational? hlow).1 (by exact_mod_cast hxn)
    -- the largest 64-bit integer is not a double, and is rounded up to this bound
    · have hn : n.toInt = 2 ^ 63 - 1 := by omega
      have hup := hv.rounds.up (2 ^ 53 - 1) 10 (by decide) (by decide) (by decide) (by decide)
        (by rw [hn]; norm_num)
      rw [hx63]
      norm_num at hup ⊢
      exact hup
  have hny : n.toInt ≤ y := by omega
  have hvy := hv.rounds.above y (representable_of_rational? hhigh).1 (by exact_mod_cast hny)
  have hvalue := hv.finite_of_between hlow hhigh hxv hvy
  obtain ⟨z, rfl⟩ := hv.rounds.exists_int (representable_of_rational? hvalue).1
  exact ⟨z, hvalue, by exact_mod_cast hxv, by exact_mod_cast hvy⟩

theorem rational?_difference (hwide : 9 * 10 ^ 15 ≤ y - x) (hrange : y - x < 2 ^ 1024 - 2 ^ 970) :
    ∃ d, rational? (high - low) = some d ∧ Rounds (y - x) d ∧ 9 * 10 ^ 15 ≤ d := by
  obtain ⟨d, hd⟩ := isRounded_sub hhigh hlow
  have hguard : (9 * 10 ^ 15 : ℚ) ≤ d := by
    have hrep : Representable ((9 * 10 ^ 15 : ℤ) : ℚ) := representable_int (by decide)
    have hle := hd.rounds.below _ hrep (by rw [← Int.cast_sub]; exact Int.cast_le.2 hwide)
    exact_mod_cast hle
  have hlt : (y : ℚ) - x < ((2 ^ 53 - 1 : ℕ) + 1 / 2) * 2 ^ (971 : ℤ) := by
    rw [half_before_overflow, ← Int.cast_sub]
    exact Int.cast_lt.2 hrange
  have hle := hd.rounds.down _ _ (by decide) (by decide) (by decide) hlt
  have hlast : ((2 ^ 53 - 1 : ℕ) : ℚ) < 2 ^ 53 := by norm_num
  have hsize : |d| < 2 ^ (1024 : ℤ) := by
    rw [abs_of_nonneg (le_trans (by norm_num) hguard)]
    calc d ≤ ((2 ^ 53 - 1 : ℕ) : ℚ) * 2 ^ (971 : ℤ) := hle
      _ < 2 ^ 53 * 2 ^ (971 : ℤ) := mul_lt_mul_of_pos_right hlast (by positivity)
      _ = 2 ^ (1024 : ℤ) := two_pow_mul_zpow ..
  exact ⟨d, hd.finite hsize, hd.rounds, hguard⟩

theorem exists_drawn_share (r : SplitMix) (hwide : 9 * 10 ^ 15 ≤ y - x)
    (hrange : y - x < 2 ^ 1024 - 2 ^ 970) :
    ¬ high - low < 9e15 ∧
      ∃ q, rational? (low + r.drawUnit.1 * (high - low)) = some q ∧ x ≤ q ∧ q ≤ y := by
  obtain ⟨d, hd, hrounds, hguard⟩ := rational?_difference hlow hhigh hwide hrange
  refine ⟨by rwa [lt_iff hd rational?_guard, not_lt], ?_⟩
  obtain ⟨k, hk, hshare⟩ := r.exists_share
  have hone : 1 ≤ d := le_trans (by norm_num) hguard
  have hunit : (k : ℚ) * 2 ^ (-53 : ℤ) ≤ 1 := by
    have hk' : (k : ℚ) ≤ 2 ^ 53 := by exact_mod_cast hk.le
    calc (k : ℚ) * 2 ^ (-53 : ℤ) ≤ 2 ^ 53 * 2 ^ (-53 : ℤ) := by gcongr
      _ = 1 := by norm_num
  have hproduct : (k : ℚ) * 2 ^ (-53 : ℤ) * d ≤ d :=
    mul_le_of_le_one_left (zero_le_one.trans hone) hunit
  obtain ⟨p, hp⟩ := isRounded_mul hshare hd
  obtain ⟨hpvalue, hp₁, -⟩ := hp.between (rfl : rational? 0 = some 0) hd (by positivity) hproduct
  have hp₂ := share_le hd hrounds hone hk hp.rounds
  obtain ⟨v, hv⟩ := isRounded_add hlow hpvalue
  exact ⟨v, hv.between hlow hhigh (by linarith) (by linarith)⟩

end Draws

theorem rational?_ordered {x y : Float} {a b : ℤ} (hx : rational? x = some (a : ℚ))
    (hy : rational? y = some (b : ℚ)) :
    rational? (if x ≤ y then x else y) = some ((min a b : ℤ) : ℚ) ∧
      rational? (if x ≤ y then y else x) = some ((max a b : ℤ) : ℚ) := by
  by_cases h : x ≤ y
  · have hab : a ≤ b := by exact_mod_cast (le_iff hx hy).1 h
    rw [if_pos h, if_pos h, min_eq_left hab, max_eq_right hab]
    exact ⟨hx, hy⟩
  · have hba : b < a := by exact_mod_cast not_le.1 (mt (le_iff hx hy).2 h)
    rw [if_neg h, if_neg h, min_eq_right hba.le, max_eq_left hba.le]
    exact ⟨hy, hx⟩

/-- A draw between integer values is an integer between them while they are less than `9e15` apart
and not both beyond one end of the 64-bit integers; further apart it is some number between them. -/
theorem drawBetween_integers {a b : Value} (ha : a.isInteger = true) (hb : b.isInteger = true)
    (r : SplitMix) :
    ∃ x y : ℤ, rational? a.toNumber = some (x : ℚ) ∧ rational? b.toNumber = some (y : ℚ) ∧
      (|y - x| < 9 * 10 ^ 15 → min x y ≤ 2 ^ 63 → -2 ^ 63 ≤ max x y →
        ∃ n : ℤ, rational? (drawBetween a b r).1 = some (n : ℚ) ∧ min x y ≤ n ∧ n ≤ max x y) ∧
      (9 * 10 ^ 15 ≤ |y - x| → |y - x| < 2 ^ 1024 - 2 ^ 970 →
        ∃ q, rational? (drawBetween a b r).1 = some q ∧
          ((min x y : ℤ) : ℚ) ≤ q ∧ q ≤ ((max x y : ℤ) : ℚ)) := by
  obtain ⟨x, hx⟩ := exists_int_of_isWhole (Bool.and_eq_true_iff.1 ha).1
  obtain ⟨y, hy⟩ := exists_int_of_isWhole (Bool.and_eq_true_iff.1 hb).1
  obtain ⟨hlow, hhigh⟩ := rational?_ordered hx hy
  refine ⟨x, y, hx, hy, ?_⟩
  rw [← max_sub_min_eq_abs]
  unfold drawBetween
  dsimp only
  rw [ha, hb]
  generalize (if a.toNumber ≤ b.toNumber then a.toNumber else b.toNumber) = low at hlow ⊢
  generalize (if a.toNumber ≤ b.toNumber then b.toNumber else a.toNumber) = high at hhigh ⊢
  refine ⟨fun hnarrow hleast hmost => ?_, fun hwide hrange => ?_⟩
  · have hguard := lt_guard hlow hhigh min_le_max hnarrow
    rw [if_pos (by simpa using hguard)]
    exact exists_drawn_integer hlow hhigh min_le_max r hleast hmost
  · obtain ⟨hguard, hshare⟩ := exists_drawn_share hlow hhigh r hwide hrange
    rw [if_neg (by simpa using hguard)]
    exact hshare

theorem drawBetween_integers_sample :
    (text "10").isInteger = true ∧ (number (-3)).isInteger = true ∧
      ∃ n : ℤ, rational? (drawBetween (text "10") (number (-3)) (.ofSeed 7)).1 = some (n : ℚ) ∧
        -3 ≤ n ∧ n ≤ 10 := by
  have ha : (text "10").isInteger = true := by decide +kernel
  have hb : (number (-3)).isInteger = true := by decide +kernel
  obtain ⟨x, y, hx, hy, hnarrow, -⟩ := drawBetween_integers ha hb (.ofSeed 7)
  have hten : (text "10").toNumber.toModel.unpack =
      .finite .positive (10 * 2 ^ 49) (-49) (by decide) := rfl
  have hthree : (number (-3)).toNumber.toModel.unpack =
      .finite .negative (3 * 2 ^ 51) (-51) (by decide) := rfl
  obtain rfl : 10 = x := by
    rw [rational?, hten, unpackedRational, Option.some_inj] at hx
    norm_num [Float.Model.UnpackedFloat.Sign.apply] at hx
    exact_mod_cast hx
  obtain rfl : -3 = y := by
    rw [rational?, hthree, unpackedRational, Option.some_inj] at hy
    norm_num [Float.Model.UnpackedFloat.Sign.apply] at hy
    exact_mod_cast hy
  exact ⟨ha, hb, hnarrow (by decide) (by decide) (by decide)⟩

/-- Integer bounds whose draw is no integer, lies below both, or is no number at all. -/
theorem drawBetween_beyond_integers :
    (∀ v ∈ [number 0, number 9e15, number 1e19, number (-1.7e308), number 1.7e308],
        v.isInteger = true) ∧
      (∀ n : ℤ, rational? (drawBetween (number 0) (number 9e15) (.ofSeed 24301)).1 ≠
        some (n : ℚ)) ∧
      rational? (drawBetween (number 1e19) (number 1e19) (.ofSeed 24301)).1 = some (2 ^ 63) ∧
      rational? (drawBetween (number (-1.7e308)) (number 1.7e308) (.ofSeed 24301)).1 = none := by
  have hwide : (drawBetween (number 0) (number 9e15) (.ofSeed 24301)).1 = 349638612274666.75 := by
    decide +kernel
  have hquarter : (349638612274666.75 : Float).toModel.unpack =
      .finite .positive (1398554449098667 * 4) (-4) (by decide) := rfl
  have hclamped : (drawBetween (number 1e19) (number 1e19) (.ofSeed 24301)).1 =
      9223372036854775808 := by
    decide +kernel
  have hend : (9223372036854775808 : Float).toModel.unpack =
      .finite .positive (2 ^ 52) 11 (by decide) := rfl
  have hinfinite :
      (drawBetween (number (-1.7e308)) (number 1.7e308) (.ofSeed 24301)).1 = 1 / 0 := by
    decide +kernel
  refine ⟨by decide +kernel, ?_, ?_, ?_⟩
  · rw [hwide, rational?, hquarter]
    intro n hn
    rw [unpackedRational, Option.some_inj] at hn
    norm_num [Float.Model.UnpackedFloat.Sign.apply] at hn
    have hfour : ((4 * n : ℤ) : ℚ) = 1398554449098667 := by
      push_cast
      linarith
    have hfour' : 4 * n = 1398554449098667 := by exact_mod_cast hfour
    omega
  · rw [hclamped, rational?, hend, unpackedRational]
    norm_num [Float.Model.UnpackedFloat.Sign.apply]
  · rw [hinfinite]
    rfl

end Value

end SpriteStage
