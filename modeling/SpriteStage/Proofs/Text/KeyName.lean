import SpriteStage.Name
import SpriteStage.Proofs.Text.Lower

/-!
The normal form of a key name is its own normal form: however often a spelling is normalised on its way
from the host to a script, it names the same key.
-/

namespace SpriteStage

namespace Text

/-! ### Blanks at the ends -/

/-- No blank stands at an end. -/
def Tight (cs : List Char) : Prop :=
  (∀ c, cs.head? = some c → isBlank c = false) ∧ ∀ c, cs.getLast? = some c → isBlank c = false

theorem Tight.reverse {cs : List Char} (h : Tight cs) : Tight cs.reverse := by
  simpa [Tight, and_comm] using h

theorem head_dropBlanks {cs : List Char} {c : Char} (h : (dropBlanks cs).head? = some c) :
    isBlank c = false := by
  have hnot := List.head?_dropWhile_not isBlank cs
  unfold dropBlanks at h
  rw [h] at hnot
  exact hnot

theorem dropBlanks_of_tight {cs : List Char} (h : Tight cs) : dropBlanks cs = cs := by
  cases cs with
  | nil => rfl
  | cons c rest =>
    have hc : isBlank c = false := h.1 c rfl
    exact List.dropWhile_cons_of_neg (by simp [hc])

theorem tight_trimmed (cs : List Char) : Tight (trimmed cs) := by
  constructor
  · intro c h
    have hsuffix := List.dropWhile_suffix isBlank (l := (dropBlanks cs).reverse)
    obtain ⟨taken, htaken⟩ := List.reverse_prefix.2 hsuffix
    rw [List.reverse_reverse] at htaken
    have hhead : (dropBlanks cs).head? = some c := by
      rw [← htaken, List.head?_append, Option.or_eq_some_iff]
      exact .inl h
    exact head_dropBlanks hhead
  · intro c h
    unfold trimmed dropEndBlanks at h
    rw [List.getLast?_reverse] at h
    exact head_dropBlanks h

theorem trimmed_of_tight {cs : List Char} (h : Tight cs) : trimmed cs = cs := by
  rw [trimmed, dropBlanks_of_tight h, dropEndBlanks, dropBlanks_of_tight h.reverse,
    List.reverse_reverse]

theorem trimmed_append {before cs after : List Char} (hbefore : ∀ c ∈ before, isBlank c = true)
    (hcs : Tight cs) (hafter : ∀ c ∈ after, isBlank c = true) :
    trimmed (before ++ cs ++ after) = cs := by
  have hend : ∀ c ∈ after.reverse, isBlank c = true := fun c hc => hafter c (List.mem_reverse.1 hc)
  rw [trimmed, dropBlanks, List.append_assoc, List.dropWhile_append_of_pos hbefore]
  cases cs with
  | nil =>
    rw [List.nil_append, ← List.append_nil after, List.dropWhile_append_of_pos hafter]
    rfl
  | cons c rest =>
    have hc : isBlank c = false := hcs.1 c rfl
    rw [List.cons_append, List.dropWhile_cons_of_neg (by simp [hc]), dropEndBlanks, dropBlanks,
      ← List.cons_append, List.reverse_append, List.dropWhile_append_of_pos hend]
    exact (congrArg List.reverse (dropBlanks_of_tight hcs.reverse)).trans (List.reverse_reverse _)

-- Blanks are not letters, so what is no blank in small letters was none before.
theorem tight_of_map_toLower {cs : List Char} (h : Tight (cs.map Char.toLower)) : Tight cs := by
  have hblank : ∀ c : Char, isBlank c.toLower = false → isBlank c = false := by
    intro c hc
    rw [← Bool.not_eq_true] at hc ⊢
    exact fun hb => hc (by rwa [toLower_of_isBlank hb])
  refine ⟨fun c hc => hblank c (h.1 _ ?_), fun c hc => hblank c (h.2 _ ?_)⟩
  · rw [List.head?_map, hc]
    rfl
  · rw [List.getLast?_map, hc]
    rfl

theorem tight_lowerFrom {before cs : List Char} (h : Tight cs) : Tight (lowerFrom before cs) := by
  constructor
  · intro d hd
    obtain ⟨c, hc, hblank⟩ := exists_head_of_lowerFrom hd
    exact hblank (h.1 c hc)
  · intro d hd
    obtain ⟨c, hc, hblank⟩ := exists_last_of_lowerFrom hd
    exact hblank (h.2 c hc)

/-- Small, with no blank at an end. -/
structure Neat (s : String) : Prop where
  settled : ∀ c ∈ s.toList, Settled c
  tight : Tight s.toList

theorem neat_lower_trim (s : String) : Neat (lower (trim s)) where
  settled c hc := by
    rw [lower, String.toList_ofList] at hc
    exact settled_of_mem_lowerFrom hc
  tight := by
    rw [lower, String.toList_ofList, trim, String.toList_ofList]
    exact tight_lowerFrom (tight_trimmed _)

theorem Neat.lower_trim {s : String} (h : Neat s) : lower (trim s) = s := by
  rw [trim, trimmed_of_tight h.tight, String.ofList_toList, lower, lowerFrom_of_settled h.settled,
    String.ofList_toList]

end Text

namespace Name

open Text

theorem key_of_neat {s : String} (h : Neat s) : key s = keyOfLower s := by
  have hne : s ≠ " " := by
    rintro rfl
    exact absurd (h.tight.1 ' ' rfl) (by decide)
  rw [key, if_neg hne, h.lower_trim]

theorem eq_append_of_behind? {start cs rest : List Char} (h : behind? start cs = some rest) :
    cs = start ++ rest := by
  unfold behind? at h
  split at h
  next hp =>
    obtain ⟨more, rfl⟩ := List.isPrefixOf_iff_prefix.1 hp
    rw [List.drop_left, Option.some_inj] at h
    rw [h]
  next => cases h

theorem singleKey_cases (name : String) :
    (∃ start c, start ≠ [] ∧ name.toList = start ++ [c] ∧ singleKey name = String.ofList [c]) ∨
      singleKey name = name := by
  unfold singleKey
  dsimp only
  split
  next c h =>
    rw [Option.or_eq_some_iff] at h
    rcases h with h | ⟨-, h⟩
    · exact .inl ⟨_, c, by simp, eq_append_of_behind? h, rfl⟩
    · exact .inl ⟨_, c, by simp, eq_append_of_behind? h, rfl⟩
  next => exact .inr rfl

theorem keyOfLower_cases (name : String) :
    keyOfLower name = singleKey name ∨
      key (keyOfLower name) = keyOfLower name ∧ name.toList.length ≠ 1 := by
  unfold keyOfLower
  repeat' split
  all_goals first
    | exact .inl rfl
    | next h =>
      refine .inr ⟨by decide +kernel, ?_⟩
      rcases h with rfl | rfl <;> decide

/-- A name of one character is no other spelling of a key. -/
theorem keyOfLower_single (c : Char) : keyOfLower (String.ofList [c]) = String.ofList [c] := by
  have hlength : (String.ofList [c]).toList.length = 1 := by simp
  rcases keyOfLower_cases (String.ofList [c]) with h | ⟨-, hne⟩
  · rw [h]
    rcases singleKey_cases (String.ofList [c]) with ⟨start, d, hstart, hchars, -⟩ | h
    · have hpos := List.length_pos_iff.2 hstart
      rw [hchars, List.length_append, List.length_singleton] at hlength
      omega
    · exact h
  · exact absurd hlength hne

theorem key_key (name : String) : key (key name) = key name := by
  by_cases hblank : name = " "
  · subst hblank
    decide +kernel
  · have hneat : Neat (lower (trim name)) := neat_lower_trim name
    have hkey : key name = keyOfLower (lower (trim name)) := by rw [key, if_neg hblank]
    rw [hkey]
    generalize lower (trim name) = small at hneat
    rcases keyOfLower_cases small with h | ⟨h, -⟩
    · rcases singleKey_cases small with ⟨start, c, -, hchars, hsingle⟩ | hsingle
      · have hc : Neat (String.ofList [c]) := by
          have hmem : c ∈ small.toList := by simp [hchars]
          have hlast : isBlank c = false := hneat.tight.2 c (by simp [hchars])
          constructor
          · simpa using hneat.settled c hmem
          · simpa [Tight] using hlast
        rw [h, hsingle, key_of_neat hc, keyOfLower_single]
      · rw [h, hsingle, key_of_neat hneat, h, hsingle]
    · exact h

end Name

end SpriteStage
