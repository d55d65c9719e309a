import SpriteStage.Proofs.Timeline.Grammar
import SpriteStage.Proofs.Traversal

/-!
Timelines line by line. The lines with cues (`cueLines`) are those that are not blank without their
comments (`Uncommented`). Each is read on its own, whatever the others say, and the cues are then
sorted; cues of the same time stay in the order of their lines (`filter_mergeSort_time`).
-/

namespace SpriteStage

namespace Text

/-- Pieces hold none of the characters that divide them. -/
theorem splitBy_ne {p : Char → Bool} {cs piece : List Char} (h : piece ∈ splitBy p cs) :
    ∀ c ∈ piece, p c = false := by
  induction cs generalizing piece with
  | nil =>
    rw [splitBy, List.mem_singleton] at h
    subst h
    nofun
  | cons c rest ih =>
    rw [splitBy] at h
    split at h
    next =>
      rw [List.mem_singleton] at h
      subst h
      nofun
    next first more hrest =>
      rw [hrest] at ih
      split at h
      next =>
        rcases List.mem_cons.1 h with rfl | h
        · nofun
        · exact ih h
      next hc =>
        rcases List.mem_cons.1 h with rfl | h
        · exact List.forall_mem_cons.2 ⟨by simpa using hc, ih List.mem_cons_self⟩
        · exact ih (List.mem_cons_of_mem _ h)

theorem splitBy_of_ne {p : Char → Bool} {cs : List Char} (h : ∀ c ∈ cs, p c = false) :
    splitBy p cs = [cs] := by
  induction cs with
  | nil => rfl
  | cons c rest ih =>
    obtain ⟨hc, hrest⟩ := List.forall_mem_cons.1 h
    rw [splitBy, ih hrest]
    simp [hc]

/-- A line stands alone as a text of one line. -/
theorem lines_of_mem_lines {cs line : List Char} (h : line ∈ lines cs) (hne : line ≠ []) :
    lines line = [line] := by
  have hfeed : ∀ c ∈ line, (c == '\n') = false := by
    rcases List.mem_append.1 h with h | h
    · obtain ⟨piece, hpiece, rfl⟩ := List.mem_map.1 h
      intro c hc
      refine splitBy_ne (List.mem_of_mem_dropLast hpiece) c ?_
      unfold dropReturn at hc
      split at hc
      · exact List.mem_of_mem_dropLast hc
      · exact hc
    · rw [Option.mem_toList, Option.filter_eq_some_iff] at h
      exact splitBy_ne (List.mem_of_getLast? h.1)
  rw [lines, splitBy_of_ne hfeed]
  simp [hne]

end Text

namespace Timeline

open Text

/-! ### Comments -/

/-- The line up to its comment: up to the first `#` with an even number of quotes before it, or all of
it if there is none. -/
def Uncommented (line text : List Char) : Prop :=
  (∀ before after, text = before ++ '#' :: after → before.count '"' % 2 = 1) ∧
    (line = text ∨ ∃ comment, line = text ++ '#' :: comment ∧ text.count '"' % 2 = 0)

theorem count_quotes_cons (quoted : Bool) (c : Char) (cs : List Char) :
    ((c :: cs).count '"' + quoted.toNat) % 2 =
      (cs.count '"' + (quoted != (c == '"')).toNat) % 2 := by
  rw [List.count_cons]
  cases quoted <;> cases c == '"' <;> simp [Nat.add_assoc]

theorem withoutComment_quotes (quoted : Bool) (line : List Char) :
    (∀ before after, withoutComment quoted line = before ++ '#' :: after →
      (before.count '"' + quoted.toNat) % 2 = 1) ∧
    (line = withoutComment quoted line ∨
      ∃ comment, line = withoutComment quoted line ++ '#' :: comment ∧
        ((withoutComment quoted line).count '"' + quoted.toNat) % 2 = 0) := by
  induction line generalizing quoted with
  | nil => simp [withoutComment]
  | cons c rest ih =>
    by_cases hc : (c = '#' && !quoted) = true
    · rw [withoutComment, if_pos hc]
      simp only [Bool.and_eq_true, decide_eq_true_eq, Bool.not_eq_true'] at hc
      obtain ⟨rfl, rfl⟩ := hc
      exact ⟨by simp, .inr ⟨rest, rfl, rfl⟩⟩
    · rw [withoutComment, if_neg hc]
      obtain ⟨hopen, hrest⟩ := ih (quoted != (c == '"'))
      refine ⟨?_, ?_⟩
      · rintro (_ | ⟨d, before⟩) after h
        · obtain ⟨rfl, -⟩ := List.cons.inj h
          have hquoted : quoted = true := by simpa using hc
          rw [hquoted]
          rfl
        · obtain ⟨rfl, htail⟩ := List.cons.inj h
          rw [count_quotes_cons]
          exact hopen before after htail
      · rcases hrest with hrest | ⟨comment, hrest, heven⟩
        · exact .inl (congrArg _ hrest)
        · rw [← count_quotes_cons] at heven
          exact .inr ⟨comment, congrArg _ hrest, heven⟩

theorem Uncommented.isPrefix {line text : List Char} (h : Uncommented line text) : text <+: line := by
  rcases h.2 with rfl | ⟨comment, rfl, -⟩
  · exact List.prefix_refl _
  · exact List.prefix_append _ _

theorem Uncommented.eq_of_isPrefix {line text text' : List Char} (h : Uncommented line text)
    (h' : Uncommented line text') (hp : text <+: text') : text = text' := by
  obtain ⟨more, rfl⟩ := hp
  obtain ⟨rest, hrest⟩ := h'.isPrefix
  rw [List.append_assoc] at hrest
  rcases h.2 with hline | ⟨comment, hline, heven⟩
  · rw [hline, List.append_right_eq_self, List.append_eq_nil_iff] at hrest
    rw [hrest.1, List.append_nil]
  · rw [hline, List.append_cancel_left_eq] at hrest
    cases more with
    | nil => rw [List.append_nil]
    | cons c after =>
      -- The longer text holds the `#` at which the shorter one ends.
      obtain ⟨rfl, -⟩ := List.cons.inj hrest
      exact absurd (h'.1 text after rfl) (by omega)

theorem uncommented_iff {line text : List Char} :
    Uncommented line text ↔ text = withoutComment false line := by
  have hspec : Uncommented line (withoutComment false line) := withoutComment_quotes false line
  constructor
  · intro h
    rcases List.prefix_or_prefix_of_prefix h.isPrefix hspec.isPrefix with hp | hp
    · exact h.eq_of_isPrefix hspec hp
    · exact (hspec.eq_of_isPrefix h hp).symm
  · rintro rfl
    exact hspec

/-! ### Lines with cues -/

/-- The line is not blank without its comment. -/
def HoldsCue (line : List Char) : Prop :=
  ∃ text, Uncommented line text ∧ ∃ c ∈ text, isBlank c = false

theorem holdsCue_iff {line : List Char} :
    HoldsCue line ↔ (withoutComment false line).all isBlank = false := by
  simp only [HoldsCue, uncommented_iff, exists_eq_left, List.all_eq_false, Bool.not_eq_true]

instance : DecidablePred HoldsCue := fun _ => decidable_of_iff' _ holdsCue_iff

/-- The lines with cues, each with its number, if the first line has the given one. -/
def cueLinesFrom (first : Nat) (lines : List (List Char)) : List (List Char × Nat) :=
  (lines.zipIdx first).filter fun line => decide (HoldsCue line.1)

/-- The lines of a timeline with cues. -/
def cueLines (source : String) : List (List Char × Nat) :=
  cueLinesFrom 1 (lines source.toList)

/-- The cue of a line that holds one. -/
def cueAt (p : Project) (line : List Char × Nat) : Except Error Cue :=
  match readCue p (withoutComment false line.1) with
  | .ok (time, input) => .ok ⟨time, input, line.2⟩
  | .error cause => .error ⟨line.2, cause⟩

theorem readLine_eq (p : Project) (line : List Char) (n : Nat) :
    readLine p n line = if HoldsCue line then some <$> cueAt p (line, n) else .ok none := by
  simp only [readLine, holdsCue_iff]
  cases (withoutComment false line).all isBlank with
  | true => rfl
  | false =>
    rw [if_neg Bool.false_ne_true, if_pos rfl, cueAt]
    cases readCue p (withoutComment false line) <;> rfl

/-- Lines that hold no cue only count for the numbers of the others. -/
theorem readLines_eq (p : Project) (first : Nat) (lines : List (List Char)) :
    readLines p first lines = (cueLinesFrom first lines).mapM (cueAt p) := by
  induction lines generalizing first with
  | nil => rfl
  | cons line rest ih =>
    have hlines : cueLinesFrom first (line :: rest) =
        if HoldsCue line then (line, first) :: cueLinesFrom (first + 1) rest
        else cueLinesFrom (first + 1) rest := by
      simp [cueLinesFrom, List.zipIdx_cons, List.filter_cons]
    rw [readLines, ih, readLine_eq, hlines]
    split
    · rw [List.mapM_cons]
      cases cueAt p (line, first) <;> rfl
    · cases (cueLinesFrom (first + 1) rest).mapM (cueAt p) <;> rfl

/-! ### The order of cues -/

/-- Items that are all alike to the order stay in their order. -/
theorem filter_mergeSort {α : Type} {le : α → α → Bool}
    (htrans : ∀ a b c, le a b = true → le b c = true → le a c = true)
    (htotal : ∀ a b, (le a b || le b a) = true) (q : α → Bool)
    (hq : ∀ a b, q a = true → q b = true → le a b = true) (l : List α) :
    (l.mergeSort le).filter q = l.filter q := by
  have hsorted : (l.filter q).Pairwise fun a b => le a b = true :=
    List.pairwise_of_forall_mem_list fun a ha b hb =>
      hq a b (List.mem_filter.1 ha).2 (List.mem_filter.1 hb).2
  have hsub := (List.sublist_mergeSort htrans htotal hsorted List.filter_sublist).filter q
  rw [List.filter_filter, funext fun a => Bool.and_self (q a)] at hsub
  exact (hsub.eq_of_length ((List.mergeSort_perm l le).filter q).length_eq.symm).symm

/-- The time of one cue is not later than that of the other. -/
def notLater (a b : Cue) : Bool :=
  a.time.nanos ≤ b.time.nanos

theorem notLater_trans (a b c : Cue) (hab : notLater a b = true) (hbc : notLater b c = true) :
    notLater a c = true :=
  decide_eq_true (Nat.le_trans (of_decide_eq_true hab) (of_decide_eq_true hbc))

theorem notLater_total (a b : Cue) : (notLater a b || notLater b a) = true := by
  simpa [notLater] using Nat.le_total a.time.nanos b.time.nanos

theorem filter_mergeSort_time (cues : List Cue) (time : Span) :
    (cues.mergeSort notLater).filter (·.time = time) = cues.filter (·.time = time) := by
  refine filter_mergeSort notLater_trans notLater_total _ ?_ cues
  intro a b ha hb
  have htime : a.time = b.time := (of_decide_eq_true ha).trans (of_decide_eq_true hb).symm
  exact decide_eq_true (Nat.le_of_eq (congrArg Span.nanos htime))

/-- Cues that come in the order of their lines are sorted by their times first, then by their lines. -/
theorem pairwise_mergeSort_notLater {cues : List Cue} (h : cues.Pairwise fun a b => a.line < b.line) :
    (cues.mergeSort notLater).Pairwise fun a b =>
      a.time.nanos < b.time.nanos ∨ a.time = b.time ∧ a.line < b.line := by
  have hle := List.pairwise_mergeSort notLater_trans notLater_total cues
  rw [List.pairwise_iff_forall_sublist] at h hle ⊢
  intro a b hab
  rcases Nat.lt_or_eq_of_le (of_decide_eq_true (hle hab)) with hlt | heq
  · exact .inl hlt
  · have htime : a.time = b.time := congrArg Span.mk heq
    refine .inr ⟨htime, h ?_⟩
    have hkept := hab.filter (·.time = b.time)
    rw [filter_mergeSort_time] at hkept
    simpa [htime] using hkept.trans List.filter_sublist

/-! ### Lines on their own -/

theorem cueAt_eq_ok_iff {p : Project} {line : List Char × Nat} {cue : Cue} :
    cueAt p line = .ok cue ↔
      cue.line = line.2 ∧ readCue p (withoutComment false line.1) = .ok (cue.time, cue.input) := by
  obtain ⟨time, input, n⟩ := cue
  unfold cueAt
  cases readCue p (withoutComment false line.1) with
  | error cause => simp
  | ok found =>
    constructor
    · intro h
      cases h
      exact ⟨rfl, rfl⟩
    · rintro ⟨rfl, h⟩
      cases h
      rfl

theorem cueAt_eq_error_iff {p : Project} {line : List Char × Nat} {e : Error} :
    cueAt p line = .error e ↔
      e.line = line.2 ∧ readCue p (withoutComment false line.1) = .error e.cause := by
  obtain ⟨n, cause⟩ := e
  unfold cueAt
  cases readCue p (withoutComment false line.1) with
  | error cause' => simp [eq_comm]
  | ok found => simp

theorem read_eq (p : Project) (source : String) :
    read p source = (·.mergeSort notLater) <$> (cueLines source).mapM (cueAt p) := by
  rw [read, readLines_eq]
  rfl

theorem of_mem_cueLines {source : String} {line : List Char × Nat} (h : line ∈ cueLines source) :
    line.1 ∈ lines source.toList ∧ HoldsCue line.1 := by
  obtain ⟨hmem, hcue⟩ := List.mem_filter.1 h
  exact ⟨List.fst_mem_of_mem_zipIdx hmem, of_decide_eq_true hcue⟩

/-- A line with a cue is a timeline of its own. -/
theorem cueLines_of_mem {source : String} {line : List Char × Nat} (h : line ∈ cueLines source) :
    cueLines (String.ofList line.1) = [(line.1, 1)] := by
  obtain ⟨hline, hcue⟩ := of_mem_cueLines h
  have hne : line.1 ≠ [] := by
    intro hnil
    simp [hnil, holdsCue_iff, withoutComment] at hcue
  rw [cueLines, String.toList_ofList, lines_of_mem_lines hline hne]
  simp [cueLinesFrom, hcue]

theorem read_alone {source : String} {line : List Char × Nat} (h : line ∈ cueLines source)
    (p : Project) : read p (String.ofList line.1) = List.singleton <$> cueAt p (line.1, 1) := by
  rw [read_eq, cueLines_of_mem h, List.mapM_cons, List.mapM_nil]
  cases cueAt p (line.1, 1) with
  | error e => rfl
  | ok cue => exact congrArg Except.ok (List.mergeSort_singleton cue)

theorem read_alone_eq_ok_iff {source : String} {line : List Char × Nat} (h : line ∈ cueLines source)
    {p : Project} {cue : Cue} :
    read p (String.ofList line.1) = .ok [cue] ↔
      cue.line = 1 ∧ readCue p (withoutComment false line.1) = .ok (cue.time, cue.input) := by
  rw [← @cueAt_eq_ok_iff p (line.1, 1), read_alone h]
  cases cueAt p (line.1, 1) <;> simp [Functor.map, Except.map, List.singleton]

theorem read_alone_eq_error_iff {source : String} {line : List Char × Nat} (h : line ∈ cueLines source)
    {p : Project} {e : Error} :
    read p (String.ofList line.1) = .error e ↔
      e.line = 1 ∧ readCue p (withoutComment false line.1) = .error e.cause := by
  rw [← @cueAt_eq_error_iff p (line.1, 1), read_alone h]
  cases cueAt p (line.1, 1) <;> simp [Functor.map, Except.map]

/-- But for the number, a line says at its place what it says on its own. -/
theorem cueAt_eq_ok_iff_alone {source : String} {line : List Char × Nat} (h : line ∈ cueLines source)
    {p : Project} {cue : Cue} :
    cueAt p line = .ok cue ↔
      cue.line = line.2 ∧ read p (String.ofList line.1) = .ok [{ cue with line := 1 }] := by
  rw [cueAt_eq_ok_iff, read_alone_eq_ok_iff h]
  exact and_congr_right fun _ => (and_iff_right rfl).symm

theorem cueAt_eq_error_iff_alone {source : String} {line : List Char × Nat}
    (h : line ∈ cueLines source) {p : Project} {e : Error} :
    cueAt p line = .error e ↔
      e.line = line.2 ∧ read p (String.ofList line.1) = .error ⟨1, e.cause⟩ := by
  rw [cueAt_eq_error_iff, read_alone_eq_error_iff h]
  exact and_congr_right fun _ => (and_iff_right rfl).symm

theorem exists_cueAt_iff_alone {source : String} {line : List Char × Nat} (h : line ∈ cueLines source)
    {p : Project} :
    (∃ cue, cueAt p line = .ok cue) ↔ ∃ cue, read p (String.ofList line.1) = .ok [cue] := by
  simp only [cueAt_eq_ok_iff, read_alone_eq_ok_iff h]
  constructor
  · rintro ⟨cue, -, hcue⟩
    exact ⟨{ cue with line := 1 }, rfl, hcue⟩
  · rintro ⟨cue, -, hcue⟩
    exact ⟨{ cue with line := line.2 }, rfl, hcue⟩

/-! ### The lines of errors -/

/-- The message names the line with the number. -/
def NamesLine (message : String) (n : Nat) : Prop :=
  ∃ front back, message = front ++ ("at line " ++ toString n) ++ back ∧
    ∀ c, back.toList.head? = some c → c.isDigit = false

theorem namesLine_message (e : Error) : NamesLine e.message e.line := by
  obtain ⟨n, cause⟩ := e
  have hstop : ∀ c, ".".toList.head? = some c → c.isDigit = false := by
    rintro _ ⟨⟩
    rfl
  cases cause with
  | noTime found =>
    refine ⟨"Expected 'at <seconds> <action>' ", ", found '" ++ (found ++ "'."), ?_, ?_⟩
    · simp only [Error.message, String.append_assoc]
    · intro c hc
      rw [String.toList_append] at hc
      cases hc
      rfl
  | outOfRange secs => exact ⟨"Time " ++ Number.plain secs ++ " is out of range ", ".", rfl, hstop⟩
  | unknownSprite name => exact ⟨"Unknown sprite '" ++ name ++ "' ", ".", rfl, hstop⟩
  | unknownAction action => exact ⟨"Unknown timeline action '" ++ action ++ "' ", ".", rfl, hstop⟩

/-! ### Timelines -/

theorem exists_read_iff {p : Project} {source : String} :
    (∃ cues, read p source = .ok cues) ↔
      ∀ line ∈ cueLines source, ∃ cue, cueAt p line = .ok cue := by
  rw [← exists_mapM_iff, read_eq]
  cases (cueLines source).mapM (cueAt p) <;> simp [Functor.map, Except.map]

theorem read_eq_error_iff {p : Project} {source : String} {e : Error} :
    read p source = .error e ↔ ∃ before line after, cueLines source = before ++ line :: after ∧
      (∀ other ∈ before, ∃ cue, cueAt p other = .ok cue) ∧ cueAt p line = .error e := by
  rw [← mapM_eq_error_iff, read_eq]
  cases (cueLines source).mapM (cueAt p) <;> simp [Functor.map, Except.map]

theorem exists_of_read {p : Project} {source : String} {cues : List Cue}
    (h : read p source = .ok cues) :
    ∃ own, List.Forall₂ (fun line cue => cueAt p line = .ok cue) (cueLines source) own ∧
      cues = own.mergeSort notLater := by
  simp only [← mapM_eq_ok_iff]
  rw [read_eq] at h
  cases hown : (cueLines source).mapM (cueAt p) with
  | error e =>
    rw [hown] at h
    cases h
  | ok own =>
    rw [hown] at h
    cases h
    exact ⟨own, rfl, rfl⟩

/-- The lines with cues come in the order of their numbers. -/
theorem pairwise_cueLines (source : String) :
    (cueLines source).Pairwise fun a b => a.2 < b.2 := by
  have hnumbers : (((lines source.toList).zipIdx 1).map Prod.snd).Pairwise (· < ·) := by
    rw [List.zipIdx_map_snd]
    exact List.pairwise_lt_range'
  exact (List.pairwise_map.1 hnumbers).filter _

theorem pairwise_line {p : Project} {source : String} {own : List Cue}
    (h : List.Forall₂ (fun line cue => cueAt p line = .ok cue) (cueLines source) own) :
    own.Pairwise fun a b => a.line < b.line := by
  have hsame : (cueLines source).map Prod.snd = own.map Cue.line := by
    rw [← List.forall₂_eq_eq_eq, List.forall₂_map_left_iff, List.forall₂_map_right_iff]
    exact h.imp fun line cue hcue => (cueAt_eq_ok_iff.1 hcue).1.symm
  rw [← List.pairwise_map, ← hsame, List.pairwise_map]
  exact pairwise_cueLines source

/-- A timeline is read line by line. It can be read if each of its lines with a cue can be read as a
timeline of its own; then each gives one cue with its number, and the cues come in the order of their
times, those of one time in the order of their lines. Otherwise the error is that of the first line
that cannot be read on its own, and names its number. -/
theorem timeline_is_read_by_lines (p : Project) (source : String) :
    ((∃ cues, read p source = .ok cues) ↔
      ∀ line ∈ cueLines source, ∃ cue, read p (String.ofList line.1) = .ok [cue]) ∧
    (∀ cues, read p source = .ok cues → ∃ own,
      List.Forall₂ (fun line cue => cue.line = line.2 ∧
          read p (String.ofList line.1) = .ok [{ cue with line := 1 }]) (cueLines source) own ∧
        cues.Perm own ∧
        cues.Pairwise fun a b =>
          a.time.nanos < b.time.nanos ∨ a.time = b.time ∧ a.line < b.line) ∧
    (∀ e, read p source = .error e ↔ ∃ before line after,
      cueLines source = before ++ line :: after ∧
        (∀ other ∈ before, ∃ cue, read p (String.ofList other.1) = .ok [cue]) ∧
        read p (String.ofList line.1) = .error ⟨1, e.cause⟩ ∧
        e.line = line.2 ∧ NamesLine e.message line.2) ∧
    ∀ line ∈ cueLines source, ∀ cue, read p (String.ofList line.1) = .ok [cue] ↔
      cue.line = 1 ∧ ∃ text, Uncommented line.1 text ∧ IsCue p text cue.time cue.input := by
  refine ⟨?_, ?_, ?_, ?_⟩
  · rw [exists_read_iff]
    exact forall₂_congr fun line hline => exists_cueAt_iff_alone hline
  · intro cues hcues
    obtain ⟨own, hown, rfl⟩ := exists_of_read hcues
    refine ⟨own, ?_, List.mergeSort_perm own _, pairwise_mergeSort_notLater (pairwise_line hown)⟩
    have hmem := (List.forall₂_and_left _ _).2 ⟨fun line hline => hline, hown⟩
    exact hmem.imp fun line cue hcue => (cueAt_eq_ok_iff_alone hcue.1).1 hcue.2
  · intro e
    rw [read_eq_error_iff]
    refine exists₃_congr fun before line after => and_congr_right fun hsplit => ?_
    have hbefore : ∀ other ∈ before, other ∈ cueLines source := by
      intro other hother
      rw [hsplit]
      exact List.mem_append_left _ hother
    have hline : line ∈ cueLines source := by simp [hsplit]
    refine and_congr ?_ ?_
    · exact forall₂_congr fun other hother => exists_cueAt_iff_alone (hbefore other hother)
    · rw [cueAt_eq_error_iff_alone hline]
      constructor
      · rintro ⟨hnumber, halone⟩
        exact ⟨halone, hnumber, hnumber ▸ namesLine_message e⟩
      · rintro ⟨halone, hnumber, -⟩
        exact ⟨hnumber, halone⟩
  · intro line hline cue
    simp only [read_alone_eq_ok_iff hline, uncommented_iff, exists_eq_left, readCue_eq_ok_iff]

/-- Cues out of order, a blank line and a comment on a line of its own. -/
def sampleSource : String :=
  "at 2 stop\n\n # a pause\nat 1 mouse 3 -4 # to the left\nat 1 key up a\n"

/-- The cues of the sample in the order of their times. -/
def sampleCues : List Cue :=
  [⟨.ofMillis 1000, .mouse 3 (-4), 4⟩, ⟨.ofMillis 1000, .keyUp "a", 5⟩, ⟨.ofMillis 2000, .stop, 1⟩]

theorem read_sampleSource : read ⟨[]⟩ sampleSource = .ok sampleCues := by
  have hown : (cueLines sampleSource).mapM (cueAt ⟨[]⟩) = .ok
      [⟨.ofMillis 2000, .stop, 1⟩, ⟨.ofMillis 1000, .mouse 3 (-4), 4⟩,
        ⟨.ofMillis 1000, .keyUp "a", 5⟩] := by
    decide +kernel
  rw [read_eq, hown]
  refine congrArg Except.ok ?_
  simp [List.mergeSort, notLater, Span.ofMillis, sampleCues]

theorem timeline_is_read_by_lines_sample :
    (cueLines sampleSource).map Prod.snd = [1, 4, 5] ∧ read ⟨[]⟩ sampleSource = .ok sampleCues ∧
      (∀ line ∈ cueLines sampleSource, ∃ cue, read ⟨[]⟩ (String.ofList line.1) = .ok [cue]) ∧
      ∃ own,
        List.Forall₂ (fun line cue => cue.line = line.2 ∧
            read ⟨[]⟩ (String.ofList line.1) = .ok [{ cue with line := 1 }])
          (cueLines sampleSource) own ∧
        sampleCues.Perm own := by
  obtain ⟨hreads, hcues, -⟩ := timeline_is_read_by_lines ⟨[]⟩ sampleSource
  obtain ⟨own, hown, hperm, -⟩ := hcues sampleCues read_sampleSource
  exact ⟨by decide +kernel, read_sampleSource, hreads.1 ⟨_, read_sampleSource⟩, own, hown, hperm⟩

end Timeline

end SpriteStage
