import SpriteStage.Proofs.Timeline.Lines

/-!
Clicks on entities that are named in quotes.

Between the quotes nothing has a meaning of its own: a `#` starts no comment (`withoutComment_quoted`),
blanks at the ends stay, and the words of other actions are part of the name. So the line clicks the
first entity of that name, and if there is none, the error says which name was asked for.
-/

namespace SpriteStage

/-! ### Entities by name -/

/-- The entity at the place is the first one with the name, up to the case of the letters A to Z. -/
def Project.FirstNamed (p : Project) (name : String) (id : EntityId) : Prop :=
  (∃ e, p.entities[id]? = some e ∧ Text.equalFold e.name name = true) ∧
    ∀ e ∈ p.entities.take id, Text.equalFold e.name name = false

theorem Project.FirstNamed.entityIndex? {p : Project} {name : String} {id : EntityId}
    (h : p.FirstNamed name id) : p.entityIndex? name = some id := by
  obtain ⟨⟨e, he, hname⟩, hearlier⟩ := h
  obtain ⟨hid, rfl⟩ := List.getElem?_eq_some_iff.1 he
  refine List.findIdx?_eq_some_iff_getElem.2 ⟨hid, hname, fun j hj => ?_⟩
  have hmem : p.entities[j] ∈ p.entities.take id :=
    List.mem_take_iff_getElem.2 ⟨j, Nat.lt_min.2 ⟨hj, Nat.lt_trans hj hid⟩, rfl⟩
  simp [hearlier _ hmem]

theorem Project.entityIndex?_eq_none {p : Project} {name : String}
    (h : ∀ e ∈ p.entities, Text.equalFold e.name name = false) : p.entityIndex? name = none :=
  List.findIdx?_eq_none_iff.2 h

namespace Timeline

open Text

/-! ### Comments behind quotes -/

/-- Nothing in the text opens a quote or starts a comment. -/
def Plain (cs : List Char) : Prop :=
  ∀ c ∈ cs, c ≠ '"' ∧ c ≠ '#'

theorem withoutComment_plain {cs : List Char} (h : Plain cs) (rest : List Char) :
    withoutComment false (cs ++ rest) = cs ++ withoutComment false rest := by
  induction cs with
  | nil => rfl
  | cons c more ih =>
    obtain ⟨⟨hquote, hsharp⟩, hmore⟩ := List.forall_mem_cons.1 h
    have hc : (c == '"') = false := beq_eq_false_iff_ne.2 hquote
    simp [withoutComment, hc, hsharp, ih hmore]

/-- A quote is passed over as a whole. -/
theorem withoutComment_quoted {name : List Char} (h : '"' ∉ name) (rest : List Char) :
    withoutComment false ('"' :: (name ++ '"' :: rest)) =
      '"' :: (name ++ '"' :: withoutComment false rest) := by
  have hinside : ∀ name : List Char, '"' ∉ name →
      withoutComment true (name ++ '"' :: rest) = name ++ '"' :: withoutComment false rest := by
    intro name
    induction name with
    | nil => exact fun _ => rfl
    | cons c more ih =>
      intro h
      rw [List.mem_cons, not_or] at h
      have hc : (c == '"') = false := beq_eq_false_iff_ne.2 (Ne.symm h.1)
      simp [withoutComment, hc, ih h.2]
  exact congrArg ('"' :: ·) (hinside name h)

theorem plain_of_blank {cs : List Char} (h : ∀ c ∈ cs, isBlank c = true) : Plain cs := by
  intro c hc
  refine ⟨?_, ?_⟩ <;>
  · rintro rfl
    exact absurd (h _ hc) (by decide)

theorem plain_word {word : String} (h : word = "at" ∨ word = "click") : Plain word.toList := by
  rcases h with rfl | rfl
  · show ∀ c ∈ ['a', 't'], c ≠ '"' ∧ c ≠ '#'
    simp
  · show ∀ c ∈ ['c', 'l', 'i', 'c', 'k'], c ≠ '"' ∧ c ≠ '#'
    simp

theorem IsDecimal.plain {cs : List Char} (h : IsDecimal cs) : Plain cs := by
  have hdigits : ∀ {cs : List Char}, AllDigits cs → Plain cs := by
    intro cs hcs c hc
    refine ⟨?_, ?_⟩ <;>
    · rintro rfl
      exact absurd (hcs.2 _ hc) (by decide)
  rcases h with h | ⟨whole, places, hwhole, hplaces, rfl⟩
  · exact hdigits h
  · intro c hc
    rcases List.mem_append.1 hc with hc | hc
    · exact hdigits hwhole c hc
    · rcases List.mem_cons.1 hc with rfl | hc
      · decide
      · exact hdigits hplaces c hc

/-! ### Lines that click -/

/-- The action that clicks the entity with the name in quotes. -/
def quotedClick (gap : List Char) (name : String) : List Char :=
  "click".toList ++ (gap ++ '"' :: (name.toList ++ ['"']))

-- Stated by hand, since the equation that is made for the definition evaluates the word.
theorem quotedClick_eq (gap : List Char) (name : String) :
    quotedClick gap name = "click".toList ++ (gap ++ '"' :: (name.toList ++ ['"'])) :=
  rfl

/-- The line is `at`, the seconds, `click` and the name in quotes. There are blanks between them, and
perhaps blanks around them and a comment at the end. -/
inductive ClickLine (secs name : String) : List Char → Prop where
  | intro {before gap gap' gap'' after comment : List Char}
      (hbefore : ∀ c ∈ before, isBlank c = true) (hgap : IsGap gap) (hgap' : IsGap gap')
      (hgap'' : IsGap gap'') (hafter : ∀ c ∈ after, isBlank c = true)
      (hcomment : comment = [] ∨ ∃ said, comment = '#' :: said) :
      ClickLine secs name
        (before ++ ("at".toList ++ (gap ++ (secs.toList ++ (gap' ++ (quotedClick gap'' name ++
          (after ++ comment)))))))

theorem tight_quotedClick (gap : List Char) (name : String) : Tight (quotedClick gap name) := by
  refine ⟨?_, ?_⟩
  · rintro c ⟨⟩
    rfl
  · intro c hc
    rw [quotedClick_eq, ← List.cons_append, ← List.append_assoc, ← List.append_assoc,
      List.getLast?_concat] at hc
    cases hc
    rfl

theorem readInput_quotedClick (p : Project) {gap : List Char} {name : String} (hgap : IsGap gap)
    (hne : name ≠ "") (hname : '"' ∉ name.toList) :
    readInput p (quotedClick gap name) =
      match p.entityIndex? name with
      | some id => .ok (.click id)
      | none => .error (.unknownSprite name) := by
  have hne' : name.toList ≠ [] := fun h => hne (String.toList_eq_nil_iff.1 h)
  have hclick : clickAction? (quotedClick gap name) = some name := by
    rw [quotedClick_eq, clickAction?_append hgap rfl
      (Bool.or_eq_true_iff.2 (.inl (isQuoted_iff.2 ⟨_, hne', hname, rfl⟩))),
      stripBoth_quoted hne' hname, String.ofList_toList]
  have hkey : keyAction? (quotedClick gap name) = none := rfl
  cases hid : p.entityIndex? name <;> simp only [readInput, hkey, hclick, hid]

section ClickLine

variable {secs name : String} {line : List Char} {x : Float} {time : Span}

/-- Without its comment the line says when the click is and on which entity. -/
theorem ClickLine.readCue (h : ClickLine secs name line) (p : Project) (hne : name ≠ "")
    (hname : '"' ∉ name.toList) (hsecs : IsDecimal secs.toList)
    (hx : Number.readDouble secs.toList = some x) (htime : Span.ofSeconds? x = some time) :
    readCue p (withoutComment false line) =
      match p.entityIndex? name with
      | some id => .ok (time, .click id)
      | none => .error (.unknownSprite name) := by
  obtain ⟨hbefore, hgap, hgap', hgap'', hafter, hcomment⟩ := h
  rename_i before gap gap' gap'' after comment
  have hcomment' : withoutComment false comment = [] := by
    rcases hcomment with rfl | ⟨said, rfl⟩ <;> rfl
  have hend : withoutComment false (quotedClick gap'' name ++ (after ++ comment)) =
      quotedClick gap'' name ++ after := by
    have hclick : Plain ("click".toList ++ gap'') := by
      intro c hc
      rcases List.mem_append.1 hc with hc | hc
      · exact plain_word (.inr rfl) c hc
      · exact plain_of_blank hgap''.2 c hc
    have hsplit : ∀ rest, quotedClick gap'' name ++ rest =
        ("click".toList ++ gap'') ++ '"' :: (name.toList ++ '"' :: rest) := by
      intro rest
      simp [quotedClick_eq]
    rw [hsplit, withoutComment_plain hclick, withoutComment_quoted hname,
      withoutComment_plain (plain_of_blank hafter), hcomment', List.append_nil, hsplit]
  rw [withoutComment_plain (plain_of_blank hbefore), withoutComment_plain (plain_word (.inl rfl)),
    withoutComment_plain (plain_of_blank hgap.2), withoutComment_plain hsecs.plain,
    withoutComment_plain (plain_of_blank hgap'.2), hend, Timeline.readCue,
    splitLine_append hbefore hgap hsecs hgap' (tight_quotedClick gap'' name) (by simp [quotedClick_eq])
      hafter]
  simp only [readTime, hx, Option.getD_some, htime, readInput_quotedClick p hgap'' hne hname]
  cases p.entityIndex? name <;> rfl

theorem ClickLine.holdsCue (h : ClickLine secs name line) : HoldsCue line := by
  obtain ⟨hbefore, hgap, hgap', hgap'', hafter, hcomment⟩ := h
  rw [holdsCue_iff, withoutComment_plain (plain_of_blank hbefore), List.all_eq_false]
  exact ⟨'a', List.mem_append_right _ List.mem_cons_self, by decide⟩

end ClickLine

/-! ### Lines of a timeline -/

section Timeline

variable {p : Project} {source : String} {line : List Char × Nat}

theorem eq_of_mem_cueLines {other : List Char × Nat} (hline : line ∈ cueLines source)
    (hother : other ∈ cueLines source) (h : other.2 = line.2) : other = line := by
  have hplace := (List.mem_zipIdx_iff_le_and_getElem?_sub.1 (List.mem_filter.1 hline).1).2
  have hplace' := (List.mem_zipIdx_iff_le_and_getElem?_sub.1 (List.mem_filter.1 hother).1).2
  rw [h, hplace, Option.some_inj] at hplace'
  exact Prod.ext hplace'.symm h

/-- The cue of a line is among those of the timeline, if that can be read. -/
theorem mem_of_read {cues : List Cue} {cue : Cue} (h : read p source = .ok cues)
    (hline : line ∈ cueLines source) (hcue : cueAt p line = .ok cue) : cue ∈ cues := by
  obtain ⟨own, hown, rfl⟩ := exists_of_read h
  obtain ⟨i, rfl⟩ := List.mem_iff_get.1 hline
  have hi : i < own.length := hown.length_eq ▸ i.isLt
  have hreads := hown.get i.isLt hi
  rw [List.get_eq_getElem] at hcue
  rw [List.get_eq_getElem, hcue] at hreads
  cases hreads
  exact List.mem_mergeSort.2 (List.get_mem own ⟨i, hi⟩)

/-- A line that can be read is not the one that an error names. -/
theorem line_ne_of_read {e : Error} {cue : Cue} (h : read p source = .error e)
    (hline : line ∈ cueLines source) (hcue : cueAt p line = .ok cue) : e.line ≠ line.2 := by
  obtain ⟨before, faulty, after, hsplit, -, herror⟩ := read_eq_error_iff.1 h
  have hfaulty : faulty ∈ cueLines source := by simp [hsplit]
  rw [(cueAt_eq_error_iff.1 herror).1]
  intro hsame
  rw [eq_of_mem_cueLines hline hfaulty hsame, hcue] at herror
  cases herror

/-- A line that cannot be read is the one that the error names, unless an earlier one is. -/
theorem exists_error_of_cueAt {e : Error} (hline : line ∈ cueLines source)
    (he : cueAt p line = .error e) :
    ∃ first, read p source = .error first ∧ (first = e ∨ first.line < line.2) := by
  cases h : read p source with
  | ok cues =>
    obtain ⟨cue, hcue⟩ := exists_read_iff.1 ⟨cues, h⟩ line hline
    rw [he] at hcue
    cases hcue
  | error first =>
    refine ⟨first, rfl, ?_⟩
    obtain ⟨before, faulty, after, hsplit, hbefore, herror⟩ := read_eq_error_iff.1 h
    have horder := pairwise_cueLines source
    rw [hsplit] at hline horder
    rcases List.mem_append.1 hline with hline | hline
    · obtain ⟨cue, hcue⟩ := hbefore line hline
      rw [he] at hcue
      cases hcue
    · rcases List.mem_cons.1 hline with rfl | hline
      · rw [he] at herror
        cases herror
        exact .inl rfl
      · have hlater := (List.pairwise_cons.1 (List.pairwise_append.1 horder).2.1).1 line hline
        rw [← (cueAt_eq_error_iff.1 herror).1] at hlater
        exact .inr hlater

end Timeline

/-- Every entity with a name without quotes can be clicked. A line of a timeline that clicks a name in
quotes at a time in range is a click on the first entity with that name, and is an error of that line
if there is none. This is so on its own and at its place in any timeline. -/
theorem quoted_names_can_be_clicked (p : Project) {source : String} {line : List Char} {n : Nat}
    (hline : (line, n) ∈ (lines source.toList).zipIdx 1) {secs name : String}
    (hclick : ClickLine secs name line) (hne : name ≠ "") (hname : '"' ∉ name.toList)
    (hsecs : IsDecimal secs.toList) {x : Float} (hx : Number.readDouble secs.toList = some x)
    {time : Span} (htime : Span.ofSeconds? x = some time) :
    (∀ id, p.FirstNamed name id →
      read p (String.ofList line) = .ok [⟨time, .click id, 1⟩] ∧
      (∀ cues, read p source = .ok cues → ⟨time, .click id, n⟩ ∈ cues) ∧
      ∀ e, read p source = .error e → e.line ≠ n) ∧
    ((∀ e ∈ p.entities, equalFold e.name name = false) →
      read p (String.ofList line) = .error ⟨1, .unknownSprite name⟩ ∧
      ∃ e, read p source = .error e ∧ (e = ⟨n, .unknownSprite name⟩ ∨ e.line < n)) := by
  have hmem : (line, n) ∈ cueLines source :=
    List.mem_filter.2 ⟨hline, decide_eq_true hclick.holdsCue⟩
  have hcue := hclick.readCue p hne hname hsecs hx htime
  refine ⟨fun id hid => ?_, fun hnone => ?_⟩
  · simp only [hid.entityIndex?] at hcue
    have hat : cueAt p (line, n) = .ok ⟨time, .click id, n⟩ := cueAt_eq_ok_iff.2 ⟨rfl, hcue⟩
    refine ⟨(read_alone_eq_ok_iff hmem).2 ⟨rfl, hcue⟩, fun cues hcues => ?_, fun e he => ?_⟩
    · exact mem_of_read hcues hmem hat
    · exact line_ne_of_read he hmem hat
  · simp only [Project.entityIndex?_eq_none hnone] at hcue
    have hat : cueAt p (line, n) = .error ⟨n, .unknownSprite name⟩ :=
      cueAt_eq_error_iff.2 ⟨rfl, hcue⟩
    exact ⟨(read_alone_eq_error_iff hmem).2 ⟨rfl, hcue⟩, exists_error_of_cueAt hmem hat⟩

/-- A sprite with a name. -/
def sampleSprite (name : String) : EntityDoc where
  name := name
  kind := .sprite
  x := 0
  y := 0
  direction := 90
  size := 100
  visible := true
  currentCostume := 0
  costumes := []
  sounds := []
  vars := []
  blocks := .empty

/-- Two entities share the name up to case. -/
def sampleSprites : Project :=
  ⟨[sampleSprite "cat", sampleSprite " Key Down #2", sampleSprite " key down #2"]⟩

/-- The name looks like an action and like a comment; a quote is open in the comment. -/
def sampleClick : List Char :=
  "\t at 0.5 click  \" key down #2\" # he said \"miaow".toList

theorem clickLine_sampleClick : ClickLine "0.5" " key down #2" sampleClick := by
  have hblank : ∀ cs : List Char, cs.all isBlank = true → ∀ c ∈ cs, isBlank c = true :=
    fun cs => List.all_eq_true.1
  have hline : sampleClick = ['\t', ' '] ++ ("at".toList ++ ([' '] ++ ("0.5".toList ++ ([' '] ++
      (quotedClick [' ', ' '] " key down #2" ++ ([' '] ++ "# he said \"miaow".toList)))))) := by
    decide +kernel
  rw [hline]
  exact .intro (hblank _ rfl) ⟨nofun, hblank _ rfl⟩ ⟨nofun, hblank _ rfl⟩ ⟨nofun, hblank _ rfl⟩
    (hblank _ rfl) (.inr ⟨_, rfl⟩)

theorem quoted_names_can_be_clicked_sample :
    ClickLine "0.5" " key down #2" sampleClick ∧
      sampleSprites.FirstNamed " key down #2" 1 ∧
      read sampleSprites (String.ofList sampleClick) = .ok [⟨.ofMillis 500, .click 1, 1⟩] ∧
      ∃ e, read ⟨[sampleSprite "cat"]⟩ ("\n# first\n" ++ String.ofList sampleClick ++ "\r\nat 1 jump") =
          .error e ∧ (e = ⟨3, .unknownSprite " key down #2"⟩ ∨ e.line < 3) := by
  have hfirst : sampleSprites.FirstNamed " key down #2" 1 := by
    refine ⟨⟨sampleSprite " Key Down #2", rfl, by decide +kernel⟩, ?_⟩
    decide +kernel
  have hdecimal : IsDecimal "0.5".toList :=
    .inr ⟨['0'], ['5'], ⟨nofun, by simp⟩, ⟨nofun, by simp⟩, rfl⟩
  have hhalf : Number.readDouble "0.5".toList = some 0.5 ∧
      Span.ofSeconds? 0.5 = some (.ofMillis 500) := by
    decide +kernel
  have halone := @quoted_names_can_be_clicked sampleSprites (String.ofList sampleClick) sampleClick 1
    (by decide +kernel) _ _ clickLine_sampleClick (by decide) (by decide +kernel) hdecimal _ hhalf.1 _
    hhalf.2
  have hthird := @quoted_names_can_be_clicked ⟨[sampleSprite "cat"]⟩
    ("\n# first\n" ++ String.ofList sampleClick ++ "\r\nat 1 jump") sampleClick 3
    (by decide +kernel) _ _ clickLine_sampleClick (by decide) (by decide +kernel) hdecimal _ hhalf.1 _
    hhalf.2
  exact ⟨clickLine_sampleClick, hfirst, (halone.1 1 hfirst).1, (hthird.2 (by decide +kernel)).2⟩

end Timeline

end SpriteStage
