import SpriteStage.Proofs.Message.KeyHats
import SpriteStage.Timeline.Reader

/-!
The lines of a timeline. A line without its comment is a cue (`IsCue`) if it is `at`, a decimal number
of seconds and an action, with blanks between them; what the actions are is said by `Asks`. The reader
of a line accepts these lines and no others (`readCue_eq_ok_iff`).
-/

namespace SpriteStage

namespace Text

theorem eq_append_of_after? {word : String} {cs rest : List Char} (h : after? word cs = some rest) :
    cs = word.toList ++ rest := by
  unfold after? at h
  split at h
  next hp =>
    obtain ⟨more, rfl⟩ := List.isPrefixOf_iff_prefix.1 hp
    rw [← String.length_toList, List.drop_left, Option.some_inj] at h
    rw [h]
  next => cases h

theorem of_afterBlanks? {cs rest : List Char} (h : afterBlanks? cs = some rest) :
    ∃ gap, IsGap gap ∧ cs = gap ++ rest ∧ ∀ c, rest.head? = some c → isBlank c = false := by
  cases cs with
  | nil => cases h
  | cons c more =>
    rw [afterBlanks?] at h
    split at h
    next hc =>
      cases h
      refine ⟨c :: more.takeWhile isBlank, ⟨List.cons_ne_nil _ _, ?_⟩, ?_, fun d => head_dropBlanks⟩
      · exact List.forall_mem_cons.2 ⟨hc, fun d hd => List.mem_takeWhile_imp hd⟩
      · rw [List.cons_append, dropBlanks, List.takeWhile_append_dropWhile]
    next => cases h

end Text

namespace Timeline

open Text

/-! ### Decimals -/

def AllDigits (cs : List Char) : Prop :=
  cs ≠ [] ∧ ∀ c ∈ cs, c.isDigit = true

/-- Digits, perhaps with a point and digits behind it. -/
def IsDecimal (cs : List Char) : Prop :=
  AllDigits cs ∨ ∃ whole places, AllDigits whole ∧ AllDigits places ∧ cs = whole ++ '.' :: places

/-- The text does not go on with a decimal. -/
def EndsDecimal (rest : List Char) : Prop :=
  ∀ c, rest.head? = some c → c.isDigit = false ∧ c ≠ '.'

theorem takeWhile_digits {cs rest : List Char} (h : AllDigits cs)
    (hrest : ∀ c, rest.head? = some c → c.isDigit = false) :
    (cs ++ rest).takeWhile Char.isDigit = cs ∧ (cs ++ rest).dropWhile Char.isDigit = rest := by
  rw [List.takeWhile_append_of_pos h.2, List.dropWhile_append_of_pos h.2]
  cases rest with
  | nil => simp
  | cons c more =>
    have hc := hrest c rfl
    simp [hc]

theorem takeWhile_point {whole : List Char} (h : AllDigits whole) (rest : List Char) :
    (whole ++ '.' :: rest).takeWhile Char.isDigit = whole ∧
      (whole ++ '.' :: rest).dropWhile Char.isDigit = '.' :: rest :=
  takeWhile_digits h (by rintro _ ⟨⟩; rfl)

theorem takeDecimal_append {cs rest : List Char} (h : IsDecimal cs) (hrest : EndsDecimal rest) :
    takeDecimal (cs ++ rest) = some (cs, rest) := by
  rcases h with h | ⟨whole, places, hwhole, hplaces, rfl⟩
  · obtain ⟨htake, hdrop⟩ := takeWhile_digits h fun c hc => (hrest c hc).1
    rw [takeDecimal, htake, hdrop, if_neg (by simpa using h.1)]
    split
    next more => exact absurd rfl (hrest '.' rfl).2
    next => rfl
  · obtain ⟨htake, hdrop⟩ := takeWhile_digits hplaces fun c hc => (hrest c hc).1
    obtain ⟨htake', hdrop'⟩ := takeWhile_point hwhole (places ++ rest)
    rw [takeDecimal, List.append_assoc, List.cons_append, htake', hdrop',
      if_neg (by simpa using hwhole.1)]
    simp only [htake, hdrop, List.isEmpty_iff, if_neg hplaces.1]

theorem allDigits_takeWhile {cs : List Char} (h : (cs.takeWhile Char.isDigit).isEmpty = false) :
    AllDigits (cs.takeWhile Char.isDigit) :=
  ⟨List.isEmpty_eq_false_iff.1 h, fun _ => List.mem_takeWhile_imp⟩

theorem of_takeDecimal {cs digits rest : List Char} (h : takeDecimal cs = some (digits, rest)) :
    IsDecimal digits ∧ cs = digits ++ rest := by
  have hcs := List.takeWhile_append_dropWhile (p := Char.isDigit) (l := cs)
  unfold takeDecimal at h
  dsimp only at h
  split at h
  next => cases h
  next hwhole =>
    have hwhole' := allDigits_takeWhile (by simpa using hwhole)
    split at h
    next more hmore =>
      rw [hmore] at hcs
      split at h
      next =>
        -- a point without digits behind it belongs to the rest
        cases h
        exact ⟨.inl hwhole', hcs.symm⟩
      next hplaces =>
        cases h
        have hplaces' := allDigits_takeWhile (by simpa using hplaces)
        refine ⟨.inr ⟨_, _, hwhole', hplaces', rfl⟩, ?_⟩
        rw [List.append_assoc, List.cons_append, List.takeWhile_append_dropWhile, hcs]
    next =>
      cases h
      exact ⟨.inl hwhole', hcs.symm⟩

/-- A decimal, perhaps with a minus sign. -/
def IsSigned (cs : List Char) : Prop :=
  IsDecimal cs ∨ ∃ digits, IsDecimal digits ∧ cs = '-' :: digits

theorem IsDecimal.exists_cons {cs : List Char} (h : IsDecimal cs) :
    ∃ c more, cs = c :: more ∧ c.isDigit = true := by
  have hdigits : ∀ {cs : List Char}, AllDigits cs → ∀ rest, ∃ c more, cs ++ rest = c :: more ∧
      c.isDigit = true := by
    rintro (_ | ⟨c, more⟩) ⟨hne, hall⟩ rest
    · exact absurd rfl hne
    · exact ⟨c, more ++ rest, rfl, hall c List.mem_cons_self⟩
  rcases h with h | ⟨whole, places, hwhole, -, rfl⟩
  · simpa using hdigits h []
  · exact hdigits hwhole _

theorem takeSigned_append {cs rest : List Char} (h : IsSigned cs) (hrest : EndsDecimal rest) :
    takeSigned (cs ++ rest) = some (cs, rest) := by
  rcases h with h | ⟨digits, hdigits, rfl⟩
  · obtain ⟨c, more, rfl, hc⟩ := h.exists_cons
    have hdecimal := takeDecimal_append h hrest
    unfold takeSigned
    split
    next heq =>
      cases heq
      cases hc
    next => exact hdecimal
  · rw [List.cons_append, takeSigned, takeDecimal_append hdigits hrest]
    rfl

theorem of_takeSigned {cs digits rest : List Char} (h : takeSigned cs = some (digits, rest)) :
    IsSigned digits ∧ cs = digits ++ rest := by
  unfold takeSigned at h
  split at h
  next more =>
    obtain ⟨⟨digits', rest'⟩, htake, heq⟩ := Option.map_eq_some_iff.1 h
    cases heq
    obtain ⟨hdecimal, rfl⟩ := of_takeDecimal htake
    exact ⟨.inr ⟨digits', hdecimal, rfl⟩, rfl⟩
  next =>
    obtain ⟨hdecimal, hcs⟩ := of_takeDecimal h
    exact ⟨.inl hdecimal, hcs⟩

/-! ### Their values -/

theorem exists_readUnsigned {cs : List Char} (h : IsDecimal cs) (negative : Bool) :
    ∃ x, Number.readUnsigned negative cs = some x := by
  have hstop : ∀ c, ([] : List Char).head? = some c → c.isDigit = false := nofun
  unfold Number.readUnsigned
  rcases h with h | ⟨whole, places, hwhole, hplaces, rfl⟩
  · obtain ⟨htake, hdrop⟩ := takeWhile_digits h hstop
    rw [List.append_nil] at htake hdrop
    simp [htake, hdrop, h.1, Number.readExponent]
  · obtain ⟨htake, hdrop⟩ := takeWhile_digits hplaces hstop
    obtain ⟨htake', hdrop'⟩ := takeWhile_point hwhole places
    rw [List.append_nil] at htake hdrop
    simp [htake, hdrop, htake', hdrop', hwhole.1, Number.readExponent]

theorem toLower_of_isDigit {c : Char} (h : c.isDigit = true) : c.toLower = c := by
  simp only [Char.isDigit, Bool.and_eq_true, decide_eq_true_eq] at h
  have hcapital : ¬ (c.val ≥ 'A'.val ∧ c.val ≤ 'Z'.val) := by
    rintro ⟨hA, -⟩
    exact absurd (UInt32.le_trans hA h.2) (by decide)
  exact dif_neg hcapital

/-- A word of letters is no decimal. -/
theorem IsDecimal.ne_word {cs : List Char} (h : IsDecimal cs) {word : String}
    (hword : ∀ c, word.toList.head? = some c → c.isDigit = false) :
    String.ofList (cs.map Char.toLower) ≠ word := by
  rintro rfl
  obtain ⟨c, more, rfl, hc⟩ := h.exists_cons
  have hlower := hword c.toLower (by simp)
  rw [toLower_of_isDigit hc, hc] at hlower
  cases hlower

theorem exists_readDouble {cs : List Char} (h : IsSigned cs) :
    ∃ x, Number.readDouble cs = some x := by
  obtain ⟨negative, digits, hdigits, hsign⟩ :
      ∃ negative digits, IsDecimal digits ∧ Number.takeSign cs = (negative, digits) := by
    rcases h with h | ⟨digits, hdigits, rfl⟩
    · obtain ⟨c, more, rfl, hc⟩ := h.exists_cons
      refine ⟨false, _, h, ?_⟩
      unfold Number.takeSign
      split
      next heq => cases heq; cases hc
      next heq => cases heq; cases hc
      next => rfl
    · exact ⟨true, digits, hdigits, rfl⟩
  have hinf : String.ofList (digits.map Char.toLower) ≠ "inf" :=
    hdigits.ne_word (by rintro _ ⟨⟩; rfl)
  have hinfinity : String.ofList (digits.map Char.toLower) ≠ "infinity" :=
    hdigits.ne_word (by rintro _ ⟨⟩; rfl)
  have hnan : String.ofList (digits.map Char.toLower) ≠ "nan" :=
    hdigits.ne_word (by rintro _ ⟨⟩; rfl)
  unfold Number.readDouble
  rw [hsign]
  dsimp only
  rw [if_neg (by simp [hinf, hinfinity]), if_neg hnan]
  exact exists_readUnsigned hdigits negative

/-! ### Times and actions -/

theorem isBlank_of_isDigit {c : Char} (h : c.isDigit = true) : isBlank c = false := by
  rw [← Bool.not_eq_true, isBlank_iff]
  rintro ⟨i, hi, hfirst, hlast⟩
  have hruns : ∀ i ∈ blankRuns, i.2 < '0'.toNat ∨ '9'.toNat < i.1 := by decide
  have hdigit : '0'.toNat ≤ c.toNat ∧ c.toNat ≤ '9'.toNat := by
    simp only [Char.isDigit, Bool.and_eq_true, decide_eq_true_eq] at h
    exact h
  have hi' := hruns i hi
  omega

theorem endsDecimal_append {gap : List Char} (h : IsGap gap) (rest : List Char) :
    EndsDecimal (gap ++ rest) := by
  obtain ⟨c, more, rfl⟩ := List.exists_cons_of_ne_nil h.1
  have hc : isBlank c = true := h.2 c List.mem_cons_self
  rintro _ ⟨⟩
  refine ⟨?_, ?_⟩
  · rw [← Bool.not_eq_true]
    intro hdigit
    rw [isBlank_of_isDigit hdigit] at hc
    cases hc
  · rintro rfl
    cases hc

theorem takeAction_append {gap action after : List Char} (hgap : IsGap gap) (htight : Tight action)
    (hne : action ≠ []) (hafter : ∀ c ∈ after, isBlank c = true) :
    takeAction (gap ++ (action ++ after)) = some action := by
  obtain ⟨c, more, rfl⟩ := List.exists_cons_of_ne_nil hne
  have hc : isBlank c = false := htight.1 c rfl
  have htrimmed : dropEndBlanks (c :: more ++ after) = c :: more := by
    have hall := @trimmed_append [] (c :: more) after nofun htight hafter
    rwa [List.nil_append, trimmed, dropBlanks, List.cons_append,
      List.dropWhile_cons_of_neg (by simp [hc])] at hall
  rw [takeAction, List.takeWhile_append_of_pos hgap.2, List.dropWhile_append_of_pos hgap.2]
  rw [List.cons_append] at htrimmed ⊢
  simp [hc, hgap.1, htrimmed]

theorem exists_dropEndBlanks (cs : List Char) :
    ∃ after, (∀ c ∈ after, isBlank c = true) ∧ cs = dropEndBlanks cs ++ after := by
  refine ⟨(cs.reverse.takeWhile isBlank).reverse, ?_, ?_⟩
  · intro c hc
    exact List.mem_takeWhile_imp (List.mem_reverse.1 hc)
  · rw [dropEndBlanks, dropBlanks, ← List.reverse_append, List.takeWhile_append_dropWhile,
      List.reverse_reverse]

theorem of_takeAction {cs action : List Char} (h : takeAction cs = some action) :
    ∃ gap after, IsGap gap ∧ (∀ c ∈ after, isBlank c = true) ∧ cs = gap ++ (action ++ after) ∧
      (Tight action ∨ ∃ c, isBlank c = true ∧ action = [c]) := by
  have hcs := List.takeWhile_append_dropWhile (p := isBlank) (l := cs)
  have hblanks : ∀ c ∈ cs.takeWhile isBlank, isBlank c = true := fun _ => List.mem_takeWhile_imp
  unfold takeAction at h
  dsimp only at h
  split at h
  next hrest =>
    split at h
    next hlong =>
      cases h
      rw [hrest, List.append_nil] at hcs
      have hne : cs.takeWhile isBlank ≠ [] := by
        rw [← List.length_pos_iff]
        omega
      refine ⟨(cs.takeWhile isBlank).take ((cs.takeWhile isBlank).length - 1), [], ⟨?_, ?_⟩, nofun,
        ?_, .inr ⟨_, hblanks _ (List.getLast_mem hne), List.drop_length_sub_one hne⟩⟩
      · rw [← List.length_pos_iff, List.length_take]
        omega
      · exact fun c hc => hblanks c (List.mem_of_mem_take hc)
      · rw [List.append_nil, List.take_append_drop, hcs]
    next => cases h
  next rest hrest =>
    split at h
    next => cases h
    next hgap =>
      cases h
      obtain ⟨after, hafter, hrest'⟩ := exists_dropEndBlanks (cs.dropWhile isBlank)
      refine ⟨_, after, ⟨by simpa using hgap, hblanks⟩, hafter, ?_, .inl (tight_trimmed cs)⟩
      rw [← hrest', hcs]

theorem splitLine_append {before gap secs gap' action after : List Char}
    (hbefore : ∀ c ∈ before, isBlank c = true) (hgap : IsGap gap) (hsecs : IsDecimal secs)
    (hgap' : IsGap gap') (htight : Tight action) (hne : action ≠ [])
    (hafter : ∀ c ∈ after, isBlank c = true) :
    splitLine (before ++ ("at".toList ++ (gap ++ (secs ++ (gap' ++ (action ++ after)))))) =
      some (secs, action) := by
  have hat : dropBlanks (before ++ ("at".toList ++ (gap ++ (secs ++ (gap' ++ (action ++ after)))))) =
      "at".toList ++ (gap ++ (secs ++ (gap' ++ (action ++ after)))) := by
    rw [dropBlanks, List.dropWhile_append_of_pos hbefore]
    rfl
  have hdigits : dropBlanks (secs ++ (gap' ++ (action ++ after))) =
      secs ++ (gap' ++ (action ++ after)) := by
    obtain ⟨c, more, rfl, hc⟩ := hsecs.exists_cons
    exact List.dropWhile_cons_of_neg (by simp [isBlank_of_isDigit hc])
  simp only [splitLine, hat, after?_append, afterBlanks?_append hgap, hdigits,
    takeDecimal_append hsecs (endsDecimal_append hgap' _), takeAction_append hgap' htight hne hafter,
    Option.bind_eq_bind, Option.bind_some]
  rfl

theorem of_splitLine {cs secs action : List Char} (h : splitLine cs = some (secs, action)) :
    ∃ before gap gap' after, (∀ c ∈ before, isBlank c = true) ∧ IsGap gap ∧ IsDecimal secs ∧
      IsGap gap' ∧ (∀ c ∈ after, isBlank c = true) ∧
      cs = before ++ ("at".toList ++ (gap ++ (secs ++ (gap' ++ (action ++ after))))) ∧
      (Tight action ∨ ∃ c, isBlank c = true ∧ action = [c]) := by
  simp only [splitLine, Option.bind_eq_bind, Option.bind_eq_some_iff] at h
  obtain ⟨cs₁, hat, cs₂, hblanks, ⟨secs', cs₃⟩, hdecimal, action', haction, heq⟩ := h
  cases heq
  have hat' := eq_append_of_after? hat
  obtain ⟨gap, hgap, rfl, -⟩ := of_afterBlanks? hblanks
  obtain ⟨hsecs, rfl⟩ := of_takeDecimal hdecimal
  obtain ⟨gap', after, hgap', hafter, rfl, htight⟩ := of_takeAction haction
  refine ⟨cs.takeWhile isBlank, gap, gap', after, fun _ => List.mem_takeWhile_imp, hgap, hsecs, hgap',
    hafter, ?_, htight⟩
  rw [← hat', dropBlanks, List.takeWhile_append_dropWhile]

/-! ### What actions ask for -/

/-- The action asks for the input. A clicked entity is named in quotes, or without blanks. -/
inductive Asks (p : Project) : List Char → Input → Prop where
  | key (down : Bool) {gap gap' : List Char} {key : String} (hgap : IsGap gap) (hgap' : IsGap gap')
      (hkey : isBlankText key = false) :
      Asks p (keyText down gap gap' key)
        (if down then .keyDown (Name.key key) else .keyUp (Name.key key))
  | clickQuoted {gap name : List Char} {id : EntityId} (hgap : IsGap gap) (hne : name ≠ [])
      (hname : '"' ∉ name) (hid : p.entityIndex? (String.ofList name) = some id) :
      Asks p ("click".toList ++ (gap ++ '"' :: (name ++ ['"']))) (.click id)
  | clickBare {gap name : List Char} {id : EntityId} (hgap : IsGap gap) (hne : name ≠ [])
      (hname : ∀ c ∈ name, isBlank c = false)
      (hid : p.entityIndex? (String.ofList (stripBoth (· == '"') name)) = some id) :
      Asks p ("click".toList ++ (gap ++ name)) (.click id)
  | mouse {gap x gap' y : List Char} {u v : Float} (hgap : IsGap gap) (hx : IsSigned x)
      (hgap' : IsGap gap') (hy : IsSigned y) (hu : Number.readDouble x = some u)
      (hv : Number.readDouble y = some v) :
      Asks p ("mouse".toList ++ (gap ++ (x ++ (gap' ++ y)))) (.mouse u v)
  | stop : Asks p "stop".toList .stop

theorem of_keyAction? {cs : List Char} {down : Bool} {key : String}
    (h : keyAction? cs = some (down, key)) :
    ∃ gap gap' name, IsGap gap ∧ IsGap gap' ∧ isBlankText name = false ∧
      cs = keyText down gap gap' name ∧ key = Name.key name := by
  simp only [keyAction?, Option.bind_eq_bind, Option.bind_eq_some_iff] at h
  obtain ⟨cs₁, hkey, cs₂, hblanks, ⟨down', cs₃⟩, hway, name, hblanks', h⟩ := h
  have hcs := eq_append_of_after? hkey
  obtain ⟨gap, hgap, rfl, -⟩ := of_afterBlanks? hblanks
  obtain ⟨gap', hgap', rfl, hdark⟩ := of_afterBlanks? hblanks'
  have hway' : cs₂ = (if down' then "down" else "up").toList ++ (gap' ++ name) := by
    rcases Option.or_eq_some_iff.1 hway with hdown | ⟨-, hup⟩
    · obtain ⟨_, hdown, heq⟩ := Option.map_eq_some_iff.1 hdown
      cases heq
      exact eq_append_of_after? hdown
    · obtain ⟨_, hup, heq⟩ := Option.map_eq_some_iff.1 hup
      cases heq
      exact eq_append_of_after? hup
  dsimp only at h
  split at h
  next => cases h
  next hne =>
    cases h
    have hblank : isBlankText (String.ofList name) = false := by
      obtain ⟨c, more, rfl⟩ := List.exists_cons_of_ne_nil (by simpa using hne : name ≠ [])
      rw [isBlankText, String.toList_ofList, List.all_cons, hdark c rfl, Bool.false_and]
    have hname : (String.ofList name).toList = name := String.toList_ofList
    refine ⟨gap, gap', String.ofList name, hgap, hgap', hblank, ?_, ?_⟩
    · rw [keyText, hname, hcs, hway']
    · rw [← Name.key_trimmed hblank, hname]

theorem isQuoted_iff {cs : List Char} :
    isQuoted cs = true ↔ ∃ name, name ≠ [] ∧ '"' ∉ name ∧ cs = '"' :: (name ++ ['"']) := by
  constructor
  · intro h
    unfold isQuoted at h
    split at h
    next rest =>
      simp only [Bool.and_eq_true, decide_eq_true_eq, beq_iff_eq, Bool.not_eq_true',
        List.contains_eq_mem, decide_eq_false_iff_not] at h
      obtain ⟨⟨hlong, hlast⟩, hname⟩ := h
      refine ⟨rest.dropLast, ?_, hname, ?_⟩
      · rw [← List.length_pos_iff, List.length_dropLast]
        omega
      · rw [List.dropLast_append_getLast? '"' hlast]
    next => cases h
  · rintro ⟨name, hne, hname, rfl⟩
    have hlong := List.length_pos_iff.2 hne
    simp [isQuoted, hname]
    omega

theorem stripBoth_quoted {name : List Char} (hne : name ≠ []) (hname : '"' ∉ name) :
    stripBoth (· == '"') ('"' :: (name ++ ['"'])) = name := by
  have hstart : ∀ {cs : List Char}, cs ≠ [] → '"' ∉ cs → ∀ rest,
      (cs ++ rest).dropWhile (· == '"') = cs ++ rest := by
    rintro (_ | ⟨c, more⟩) hne hcs rest
    · exact absurd rfl hne
    · have hc : ¬ (c == '"') = true := by
        simp only [beq_iff_eq]
        rintro rfl
        exact hcs List.mem_cons_self
      exact List.dropWhile_cons_of_neg hc
  have hend : name.reverse.dropWhile (· == '"') = name.reverse := by
    have hreverse := hstart (mt List.reverse_eq_nil_iff.1 hne) (mt List.mem_reverse.1 hname) []
    rwa [List.append_nil] at hreverse
  rw [stripBoth, List.dropWhile_cons_of_pos rfl, hstart hne hname, List.reverse_append]
  show (List.dropWhile _ ('"' :: name.reverse)).reverse = name
  rw [List.dropWhile_cons_of_pos rfl, hend, List.reverse_reverse]

theorem of_clickAction? {cs : List Char} {name : String} (h : clickAction? cs = some name)
    {p : Project} {id : EntityId} (hid : p.entityIndex? name = some id) : Asks p cs (.click id) := by
  simp only [clickAction?, Option.bind_eq_bind, Option.bind_eq_some_iff] at h
  obtain ⟨cs₁, hclick, raw, hblanks, h⟩ := h
  have hcs := eq_append_of_after? hclick
  obtain ⟨gap, hgap, rfl, -⟩ := of_afterBlanks? hblanks
  subst hcs
  split at h
  next hraw =>
    cases h
    rcases Bool.or_eq_true_iff.1 hraw with hquoted | hbare
    · obtain ⟨inner, hne, hinner, rfl⟩ := isQuoted_iff.1 hquoted
      rw [stripBoth_quoted hne hinner] at hid
      exact .clickQuoted hgap hne hinner hid
    · simp only [Bool.and_eq_true, Bool.not_eq_true', List.isEmpty_eq_false_iff,
        List.any_eq_false, Bool.not_eq_true] at hbare
      exact .clickBare hgap hbare.1 hbare.2 hid
  next => cases h

theorem of_mouseAction? {cs : List Char} {u v : Float} (h : mouseAction? cs = some (u, v))
    (p : Project) : Asks p cs (.mouse u v) := by
  simp only [mouseAction?, Option.bind_eq_bind, Option.bind_eq_some_iff] at h
  obtain ⟨cs₁, hmouse, cs₂, hblanks, ⟨x, cs₃⟩, hx, cs₄, hblanks', ⟨y, cs₅⟩, hy, h⟩ := h
  have hcs := eq_append_of_after? hmouse
  obtain ⟨gap, hgap, rfl, -⟩ := of_afterBlanks? hblanks
  obtain ⟨hxs, rfl⟩ := of_takeSigned hx
  obtain ⟨gap', hgap', rfl, -⟩ := of_afterBlanks? hblanks'
  obtain ⟨hys, rfl⟩ := of_takeSigned hy
  subst hcs
  dsimp only at h
  split at h
  next hend =>
    simp only [Option.bind_eq_some_iff] at h
    obtain ⟨u', hu, v', hv, heq⟩ := h
    cases heq
    rw [List.isEmpty_iff.1 hend, List.append_nil]
    exact .mouse hgap hxs hgap' hys hu hv
  next => cases h

theorem asks_of_readInput {p : Project} {cs : List Char} {input : Input}
    (h : readInput p cs = .ok input) : Asks p cs input := by
  unfold readInput at h
  split at h
  next key hkey =>
    cases h
    obtain ⟨gap, gap', name, hgap, hgap', hname, rfl, rfl⟩ := of_keyAction? hkey
    exact .key true hgap hgap' hname
  next key hkey =>
    cases h
    obtain ⟨gap, gap', name, hgap, hgap', hname, rfl, rfl⟩ := of_keyAction? hkey
    exact .key false hgap hgap' hname
  next =>
    split at h
    next name hclick =>
      split at h
      next id hid =>
        cases h
        exact of_clickAction? hclick hid
      next => cases h
    next =>
      split at h
      next u v hmouse =>
        cases h
        exact of_mouseAction? hmouse p
      next =>
        split at h
        next hstop =>
          cases h
          subst hstop
          exact .stop
        next => cases h

theorem IsSigned.dropBlanks {cs : List Char} (h : IsSigned cs) (rest : List Char) :
    dropBlanks (cs ++ rest) = cs ++ rest := by
  rcases h with h | ⟨digits, -, rfl⟩
  · obtain ⟨c, more, rfl, hc⟩ := h.exists_cons
    exact List.dropWhile_cons_of_neg (by simp [isBlank_of_isDigit hc])
  · rfl

theorem clickAction?_append {gap raw : List Char} (hgap : IsGap gap) (hdark : dropBlanks raw = raw)
    (hraw : (isQuoted raw || (!raw.isEmpty && !raw.any isBlank)) = true) :
    clickAction? ("click".toList ++ (gap ++ raw)) =
      some (String.ofList (stripBoth (· == '"') raw)) := by
  simp only [clickAction?, after?_append, afterBlanks?_append hgap, hdark, Option.bind_eq_bind,
    Option.bind_some, if_pos hraw]
  rfl

theorem readInput_click {p : Project} {gap raw : List Char} {name : String} {id : EntityId}
    (h : clickAction? ("click".toList ++ (gap ++ raw)) = some name)
    (hid : p.entityIndex? name = some id) :
    readInput p ("click".toList ++ (gap ++ raw)) = .ok (.click id) := by
  have hkey : keyAction? ("click".toList ++ (gap ++ raw)) = none := rfl
  simp only [readInput, hkey, h, hid]

theorem Asks.readInput_eq {p : Project} {cs : List Char} {input : Input} (h : Asks p cs input) :
    readInput p cs = .ok input := by
  cases h with
  | key down hgap hgap' hkey => exact readInput_keyText p down hgap hgap' hkey
  | @clickQuoted gap name id hgap hne hname hid =>
    have hclick := clickAction?_append hgap rfl
      (Bool.or_eq_true_iff.2 (.inl (isQuoted_iff.2 ⟨name, hne, hname, rfl⟩)))
    rw [stripBoth_quoted hne hname] at hclick
    exact readInput_click hclick hid
  | @clickBare gap name id hgap hne hname hid =>
    have hdark : dropBlanks name = name := by
      obtain ⟨c, more, rfl⟩ := List.exists_cons_of_ne_nil hne
      exact List.dropWhile_cons_of_neg (by simp [hname c List.mem_cons_self])
    have hraw : (!name.isEmpty && !name.any isBlank) = true := by simpa [hne] using hname
    exact readInput_click (clickAction?_append hgap hdark (Bool.or_eq_true_iff.2 (.inr hraw))) hid
  | @mouse gap x gap' y u v hgap hx hgap' hy hu hv =>
    have hend : EndsDecimal [] := nofun
    have hy' := takeSigned_append hy hend
    have hdark := hy.dropBlanks []
    rw [List.append_nil] at hy' hdark
    have hmouse : mouseAction? ("mouse".toList ++ (gap ++ (x ++ (gap' ++ y)))) = some (u, v) := by
      simp only [mouseAction?, after?_append, afterBlanks?_append hgap, hx.dropBlanks,
        takeSigned_append hx (endsDecimal_append hgap' y), afterBlanks?_append hgap', hdark, hy', hu,
        hv, Option.bind_eq_bind, Option.bind_some]
      rfl
    have hkey : keyAction? ("mouse".toList ++ (gap ++ (x ++ (gap' ++ y)))) = none := rfl
    have hclick : clickAction? ("mouse".toList ++ (gap ++ (x ++ (gap' ++ y)))) = none := rfl
    simp only [readInput, hkey, hclick, hmouse]
  | stop => rfl

/-! ### Cues -/

/-- The line says that a host does something at a time. -/
inductive IsCue (p : Project) : List Char → Span → Input → Prop where
  | intro {before gap secs gap' action after : List Char} {x : Float} {time : Span} {input : Input}
      (hbefore : ∀ c ∈ before, isBlank c = true) (hgap : IsGap gap) (hsecs : IsDecimal secs)
      (hgap' : IsGap gap') (htight : Tight action) (hafter : ∀ c ∈ after, isBlank c = true)
      (hx : Number.readDouble secs = some x) (htime : Span.ofSeconds? x = some time)
      (hinput : Asks p action input) :
      IsCue p (before ++ ("at".toList ++ (gap ++ (secs ++ (gap' ++ (action ++ after)))))) time input

theorem Asks.one_lt_length {p : Project} {cs : List Char} {input : Input} (h : Asks p cs input) :
    1 < cs.length := by
  cases h <;> simp [keyText]

theorem readCue_eq_ok_iff {p : Project} {cs : List Char} {time : Span} {input : Input} :
    readCue p cs = .ok (time, input) ↔ IsCue p cs time input := by
  constructor
  · intro h
    unfold readCue at h
    split at h
    next => cases h
    next secs action hsplit =>
      obtain ⟨before, gap, gap', after, hbefore, hgap, hsecs, hgap', hafter, rfl, htight⟩ :=
        of_splitLine hsplit
      obtain ⟨x, hx⟩ := exists_readDouble (.inl hsecs)
      cases htime : Span.ofSeconds? x with
      | none =>
        simp only [readTime, hx, Option.getD_some, htime] at h
        cases h
      | some span =>
        simp only [readTime, hx, Option.getD_some, htime] at h
        cases hinput : readInput p action with
        | error cause =>
          rw [hinput] at h
          cases h
        | ok asked =>
          rw [hinput] at h
          cases h
          have hasks := asks_of_readInput hinput
          -- an action that is a blank asks for nothing
          have htight' : Tight action := by
            refine htight.resolve_right ?_
            rintro ⟨c, -, rfl⟩
            exact absurd hasks.one_lt_length (Nat.lt_irrefl 1)
          exact .intro hbefore hgap hsecs hgap' htight' hafter hx htime hasks
  · rintro ⟨hbefore, hgap, hsecs, hgap', htight, hafter, hx, htime, hinput⟩
    have hne := List.length_pos_iff.1 (Nat.lt_trans Nat.zero_lt_one hinput.one_lt_length)
    rw [readCue, splitLine_append hbefore hgap hsecs hgap' htight hne hafter]
    simp only [readTime, hx, Option.getD_some, htime, hinput.readInput_eq]
    rfl

end Timeline

end SpriteStage
