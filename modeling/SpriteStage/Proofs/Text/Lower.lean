import SpriteStage.Text.Blank
import SpriteStage.Text.Lower

/-!
Small letters stay as they are, and no character but a blank becomes one.

The facts about the table of capitals are checked run by run: the small forms of a run lie between two
bounds, and no run of capitals, no surrogate and no blank lies between them, unless it is by turns.
-/

namespace SpriteStage.Text

/-! ### The table -/

namespace CaseRun

/-- The smallest of the small forms. -/
def low (r : CaseRun) : Nat :=
  (Int.ofNat r.first + r.shift).toNat

def high (r : CaseRun) : Nat :=
  (Int.ofNat r.last + r.shift).toNat

/-- No small form of the run is a capital of the other one: it lies beyond them, or between two. -/
def clears (r other : CaseRun) : Bool :=
  Nat.blt r.high other.first || Nat.blt other.last r.low ||
    (other.step == 2 && (r.step == 2 || r.first == r.last) && (r.low + other.first) % 2 == 1)

/-- No small form of the run lies in the interval. -/
def avoids (r : CaseRun) (interval : Nat × Nat) : Bool :=
  Nat.blt r.high interval.1 || Nat.blt interval.2 r.low

variable {r other : CaseRun} {n : Nat}

theorem of_covers (h : r.covers n = true) :
    r.first ≤ n ∧ n ≤ r.last ∧ (n - r.first) % r.step = 0 := by
  simpa [covers, and_assoc] using h

theorem not_covers_of_clears (hn : r.covers n = true) (hpos : 0 ≤ Int.ofNat r.first + r.shift)
    (h : r.clears other = true) : other.covers (Int.ofNat n + r.shift).toNat = false := by
  obtain ⟨hfirst, hlast, hmod⟩ := of_covers hn
  simp only [clears, low, high, Bool.or_eq_true, Bool.and_eq_true, Nat.blt_eq, beq_iff_eq,
    Int.ofNat_eq_natCast] at h hpos ⊢
  refine Bool.eq_false_iff.2 fun hc => ?_
  obtain ⟨hfirst', hlast', hmod'⟩ := of_covers hc
  rcases h with (h | h) | ⟨⟨hstep', hstep | hsingle⟩, hodd⟩
  · omega
  · omega
  · rw [hstep] at hmod
    rw [hstep'] at hmod'
    omega
  · rw [hstep'] at hmod'
    omega

theorem not_mem_of_avoids {interval : Nat × Nat} (hn : r.covers n = true)
    (h : r.avoids interval = true) :
    ¬ (interval.1 ≤ (Int.ofNat n + r.shift).toNat ∧ (Int.ofNat n + r.shift).toNat ≤ interval.2) := by
  obtain ⟨hfirst, hlast, -⟩ := of_covers hn
  simp only [avoids, low, high, Bool.or_eq_true, Nat.blt_eq, Int.ofNat_eq_natCast] at h ⊢
  omega

end CaseRun

def blankRuns : List (Nat × Nat) :=
  [(0x09, 0x0D), (0x20, 0x20), (0x85, 0x85), (0xA0, 0xA0), (0x1680, 0x1680), (0x2000, 0x200A),
    (0x2028, 0x2029), (0x202F, 0x202F), (0x205F, 0x205F), (0x3000, 0x3000)]

/-- No small form is a blank, the capital I with a dot, or a surrogate. -/
def noSmallForms : List (Nat × Nat) :=
  (0x130, 0x130) :: (0xD800, 0xDFFF) :: blankRuns

theorem clears_lowerRuns : lowerRuns.all (fun r => lowerRuns.all r.clears) = true := by
  decide +kernel

theorem avoids_lowerRuns : lowerRuns.all (fun r => decide (0 ≤ Int.ofNat r.first + r.shift) &&
    Nat.blt r.high 0x110000 && noSmallForms.all r.avoids) = true := by
  decide +kernel

/-! ### Code points -/

theorem lowerPoint_cases (n : Nat) :
    (∃ r ∈ lowerRuns, r.covers n = true ∧ lowerPoint n = (Int.ofNat n + r.shift).toNat) ∨
      (∀ r ∈ lowerRuns, r.covers n = false) ∧ lowerPoint n = n := by
  unfold lowerPoint
  split
  next r hr =>
    have hcovers : r.covers n = true := by simpa using List.find?_some hr
    exact .inl ⟨r, List.mem_of_find?_eq_some hr, hcovers, rfl⟩
  next hnone => exact .inr ⟨fun r hr => Bool.eq_false_iff.2 (List.find?_eq_none.1 hnone r hr), rfl⟩

theorem lowerPoint_of_not_covers {n : Nat} (h : ∀ r ∈ lowerRuns, r.covers n = false) :
    lowerPoint n = n := by
  rcases lowerPoint_cases n with ⟨r, hr, hn, -⟩ | ⟨-, hn⟩
  · rw [h r hr] at hn
    cases hn
  · exact hn

theorem lowerPoint_lowerPoint (n : Nat) : lowerPoint (lowerPoint n) = lowerPoint n := by
  rcases lowerPoint_cases n with ⟨r, hr, hn, he⟩ | ⟨-, hn⟩
  · refine lowerPoint_of_not_covers fun other hother => ?_
    have hclears := List.all_eq_true.1 (List.all_eq_true.1 clears_lowerRuns r hr) other hother
    have havoids := List.all_eq_true.1 avoids_lowerRuns r hr
    simp only [Bool.and_eq_true, decide_eq_true_eq] at havoids
    rw [he]
    exact CaseRun.not_covers_of_clears hn havoids.1.1 hclears
  · rw [hn, hn]

theorem lowerPoint_avoids {n : Nat} {interval : Nat × Nat} (hi : interval ∈ noSmallForms)
    (hn : ¬ (interval.1 ≤ n ∧ n ≤ interval.2)) :
    ¬ (interval.1 ≤ lowerPoint n ∧ lowerPoint n ≤ interval.2) := by
  rcases lowerPoint_cases n with ⟨r, hr, hc, he⟩ | ⟨-, he⟩
  · have havoids := List.all_eq_true.1 avoids_lowerRuns r hr
    simp only [Bool.and_eq_true] at havoids
    rw [he]
    exact CaseRun.not_mem_of_avoids hc (List.all_eq_true.1 havoids.2 interval hi)
  · rwa [he]

theorem isValidChar_lowerPoint (c : Char) : (lowerPoint c.toNat).isValidChar := by
  have hvalid : c.toNat.isValidChar := c.valid
  have hlt : lowerPoint c.toNat < 0x110000 := by
    rcases lowerPoint_cases c.toNat with ⟨r, hr, hc, he⟩ | ⟨-, he⟩
    · have havoids := List.all_eq_true.1 avoids_lowerRuns r hr
      obtain ⟨-, hlast, -⟩ := CaseRun.of_covers hc
      simp only [Bool.and_eq_true, Nat.blt_eq, CaseRun.high, Int.ofNat_eq_natCast] at havoids he
      omega
    · omega
  have hmem : (0xD800, 0xDFFF) ∈ noSmallForms := by simp [noSmallForms]
  have hsurrogate := lowerPoint_avoids (n := c.toNat) hmem (by dsimp only; omega)
  dsimp only at hsurrogate
  omega

theorem toNat_ofNat_lowerPoint (c : Char) :
    (Char.ofNat (lowerPoint c.toNat)).toNat = lowerPoint c.toNat := by
  rw [Char.ofNat, dif_pos (isValidChar_lowerPoint c)]
  rfl

/-! ### Characters -/

theorem lowerChar_eq {c : Char} (h : c ≠ 'İ') : lowerChar c = [Char.ofNat (lowerPoint c.toNat)] := by
  have hbasic : ∀ n < 0x80, (Char.ofNat n).toLower = Char.ofNat (lowerPoint n) := by decide +kernel
  unfold lowerChar
  split
  next hlt =>
    have hc := hbasic c.toNat hlt
    rw [Char.ofNat_toNat] at hc
    rw [hc]
  · rfl

/-- The character is its own small form. -/
def Settled (c : Char) : Prop :=
  c ≠ 'İ' ∧ lowerPoint c.toNat = c.toNat

theorem Settled.ne_sigma {c : Char} (h : Settled c) : c ≠ 'Σ' := by
  rintro rfl
  exact absurd h.2 (by decide +kernel)

theorem Settled.lowerChar {c : Char} (h : Settled c) : lowerChar c = [c] := by
  rw [lowerChar_eq h.1, h.2, Char.ofNat_toNat]

theorem settled_of_mem_lowerChar {c d : Char} (h : d ∈ Text.lowerChar c) : Settled d := by
  by_cases hdot : c = 'İ'
  · subst hdot
    have hd : d = 'i' ∨ d = '\u0307' := by simpa [Text.lowerChar] using h
    rcases hd with rfl | rfl <;> exact ⟨by decide, by decide +kernel⟩
  · rw [lowerChar_eq hdot, List.mem_singleton] at h
    have hpoint : d.toNat = lowerPoint c.toNat := by rw [h, toNat_ofNat_lowerPoint]
    refine ⟨fun hd => ?_, by rw [hpoint, lowerPoint_lowerPoint]⟩
    have hne : c.toNat ≠ 0x130 := fun hc => hdot (Char.toNat_inj.1 hc)
    have hmem : (0x130, 0x130) ∈ noSmallForms := by simp [noSmallForms]
    refine lowerPoint_avoids (n := c.toNat) hmem (by dsimp only; omega) ?_
    rw [← hpoint, hd]
    decide

theorem isBlank_iff (c : Char) :
    isBlank c = true ↔ ∃ i ∈ blankRuns, i.1 ≤ c.toNat ∧ c.toNat ≤ i.2 := by
  simp only [isBlank, blankRuns, Bool.or_eq_true, Bool.and_eq_true, decide_eq_true_eq, beq_iff_eq,
    List.mem_cons, exists_eq_or_imp, List.not_mem_nil, or_false, exists_eq_left]
  omega

theorem isBlank_of_mem_lowerChar {c d : Char} (hc : isBlank c = false) (h : d ∈ Text.lowerChar c) :
    isBlank d = false := by
  by_cases hdot : c = 'İ'
  · subst hdot
    have hd : d = 'i' ∨ d = '\u0307' := by simpa [Text.lowerChar] using h
    rcases hd with rfl | rfl <;> decide
  · rw [lowerChar_eq hdot, List.mem_singleton] at h
    rw [← Bool.not_eq_true, isBlank_iff] at hc ⊢
    rintro ⟨i, hi, hd⟩
    rw [h, toNat_ofNat_lowerPoint] at hd
    have hmem : i ∈ noSmallForms := List.mem_cons_of_mem _ (List.mem_cons_of_mem _ hi)
    exact lowerPoint_avoids hmem (fun hin => hc ⟨i, hi, hin⟩) hd

theorem toLower_of_isBlank {c : Char} (h : isBlank c = true) : c.toLower = c := by
  obtain ⟨i, hi, hfirst, hlast⟩ := (isBlank_iff c).1 h
  have hruns : ∀ i ∈ blankRuns, i.2 < 'A'.toNat ∨ 'Z'.toNat < i.1 := by decide
  have hcapital : ¬ (c.val ≥ 'A'.val ∧ c.val ≤ 'Z'.val) := by
    rintro ⟨hA, hZ⟩
    have hA' : 'A'.toNat ≤ c.toNat := hA
    have hZ' : c.toNat ≤ 'Z'.toNat := hZ
    have hi' := hruns i hi
    omega
  exact dif_neg hcapital

/-! ### Texts -/

/-- What a character becomes between those before and those behind it. -/
def lowerOne (before : List Char) (c : Char) (after : List Char) : List Char :=
  if c = 'Σ' then [lowerSigma before after] else lowerChar c

theorem lowerFrom_cons (before : List Char) (c : Char) (rest : List Char) :
    lowerFrom before (c :: rest) = lowerOne before c rest ++ lowerFrom (c :: before) rest := rfl

theorem lowerOne_ne_nil (before : List Char) (c : Char) (after : List Char) :
    lowerOne before c after ≠ [] := by
  unfold lowerOne lowerChar
  repeat' split
  all_goals simp

theorem mem_lowerOne {before after : List Char} {c d : Char} (h : d ∈ lowerOne before c after) :
    Settled d ∧ (isBlank c = false → isBlank d = false) := by
  unfold lowerOne at h
  split at h
  · have hd : d = 'ς' ∨ d = 'σ' := by
      rw [List.mem_singleton, lowerSigma] at h
      split at h
      · exact .inl h
      · exact .inr h
    rcases hd with rfl | rfl <;> exact ⟨⟨by decide, by decide +kernel⟩, fun _ => by decide⟩
  · exact ⟨settled_of_mem_lowerChar h, fun hc => isBlank_of_mem_lowerChar hc h⟩

theorem settled_of_mem_lowerFrom {before cs : List Char} {d : Char} (h : d ∈ lowerFrom before cs) :
    Settled d := by
  induction cs generalizing before with
  | nil => cases h
  | cons c rest ih =>
    rw [lowerFrom_cons, List.mem_append] at h
    exact h.elim (fun h => (mem_lowerOne h).1) ih

theorem lowerFrom_of_settled {before cs : List Char} (h : ∀ c ∈ cs, Settled c) :
    lowerFrom before cs = cs := by
  induction cs generalizing before with
  | nil => rfl
  | cons c rest ih =>
    obtain ⟨hc, hrest⟩ := List.forall_mem_cons.1 h
    rw [lowerFrom_cons, ih hrest, lowerOne, if_neg hc.ne_sigma, hc.lowerChar]
    rfl

theorem exists_head_of_lowerFrom {before cs : List Char} {d : Char}
    (h : (lowerFrom before cs).head? = some d) :
    ∃ c, cs.head? = some c ∧ (isBlank c = false → isBlank d = false) := by
  cases cs with
  | nil => cases h
  | cons c rest =>
    rw [lowerFrom_cons, List.head?_append, Option.or_eq_some_iff] at h
    rcases h with h | ⟨hnone, -⟩
    · exact ⟨c, rfl, (mem_lowerOne (List.mem_of_head? h)).2⟩
    · exact absurd (List.head?_eq_none_iff.1 hnone) (lowerOne_ne_nil _ _ _)

theorem exists_last_of_lowerFrom {before cs : List Char} {d : Char}
    (h : (lowerFrom before cs).getLast? = some d) :
    ∃ c, cs.getLast? = some c ∧ (isBlank c = false → isBlank d = false) := by
  induction cs generalizing before with
  | nil => cases h
  | cons c rest ih =>
    rw [lowerFrom_cons, List.getLast?_append, Option.or_eq_some_iff] at h
    rcases h with h | ⟨hnone, h⟩
    · obtain ⟨b, hb, hd⟩ := ih h
      exact ⟨b, by rw [List.getLast?_cons, hb]; rfl, hd⟩
    · have hrest : rest = [] := by
        cases rest with
        | nil => rfl
        | cons b more =>
          rw [List.getLast?_eq_none_iff, lowerFrom_cons] at hnone
          exact absurd (List.append_eq_nil_iff.1 hnone).1 (lowerOne_ne_nil _ _ _)
      subst hrest
      exact ⟨c, rfl, (mem_lowerOne (List.mem_of_getLast? h)).2⟩

end SpriteStage.Text
