import SpriteStage.Proofs.Compile.Hats
import SpriteStage.Proofs.Message.Registry
import SpriteStage.Proofs.Text.KeyName
import SpriteStage.Timeline.Reader

/-!
Scripts under key hats. A hat, the host and a timeline may spell a key in different ways, and what they
spell is normalised once or more often before a listener is looked up. The script starts if both
spellings have one normal form, or if the hat stands for every key.
-/

namespace SpriteStage

/-- A script that waits for a key, and the key as its program spells it. -/
structure KeyHat where
  spelling : String
  listener : Listener

/-- Does the script start when the key goes down? -/
def KeyHat.hears (key : String) (hat : KeyHat) : Bool :=
  Name.key hat.spelling = Name.key key || Name.key hat.spelling = anyKey

def EntityProgram.keyHats (p : EntityProgram) (entity : EntityId) : List KeyHat :=
  (Compile.named p.onKey).map fun (spelling, s) => ⟨spelling, ⟨entity, s⟩⟩

def Registry.keyHats (r : Registry) : List KeyHat :=
  r.flatMap fun (entity, p) => p.keyHats entity

/-! ### Listeners -/

theorem EntityProgram.filter_keyHats (p : EntityProgram) (entity : EntityId) (name : String) :
    ((p.keyHats entity).filter (Name.key ·.spelling = name)).map (·.listener) =
      (scriptsUnder Name.key p.onKey name).map (⟨entity, ·⟩) := by
  unfold keyHats Compile.named scriptsUnder
  induction p.onKey.entries with
  | nil => rfl
  | cons entry rest ih =>
    rw [List.flatMap_cons, List.map_append, List.filter_append, List.map_append, ih]
    by_cases h : Name.key entry.1 = name <;> simp [h, List.filter_map, Function.comp_def]

theorem Registry.heard_keyHats (r : Registry) (name : String) :
    (r.heard fun p => scriptsUnder Name.key p.onKey name) =
      (r.keyHats.filter (Name.key ·.spelling = name)).map (·.listener) := by
  rw [keyHats, List.filter_flatMap, List.map_flatMap]
  exact List.flatMap_congr fun entry _ => (entry.2.filter_keyHats entry.1 name).symm

theorem perm_filter_or {α : Type} {p q : α → Bool} (h : ∀ a, p a = true → q a = false) (l : List α) :
    (l.filter p ++ l.filter q).Perm (l.filter fun a => p a || q a) := by
  induction l with
  | nil => exact .refl _
  | cons a rest ih =>
    cases hp : p a with
    | true =>
      have hq := h a hp
      simpa [hp, hq] using ih
    | false =>
      cases hq : q a with
      | true => simpa [hp, hq] using List.perm_middle.trans (ih.cons a)
      | false => simpa [hp, hq] using ih

/-- Of the listeners to a key each stands there once, though they are looked up in two places. -/
theorem Switchboard.Serves.perm_keyListeners {b : Switchboard} {r : Registry} (h : b.Serves r)
    (key : String) :
    (b.keyListeners key).Perm ((r.keyHats.filter (·.hears key)).map (·.listener)) := by
  rw [h.keyListeners, Registry.heard_keyHats, Registry.heard_keyHats]
  split
  next hany =>
    simp [KeyHat.hears, hany]
  next hany =>
    rw [← List.map_append]
    have hapart : ∀ hat : KeyHat, decide (Name.key hat.spelling = Name.key key) = true →
        decide (Name.key hat.spelling = anyKey) = false := by
      intro hat hkey
      rw [of_decide_eq_true hkey]
      exact decide_eq_false hany
    exact (perm_filter_or hapart r.keyHats).map _

/-! ### Compiled hats -/

/-- The key as the block spells it; a block that does not say is for the space key. -/
def Block.spelledKey (hat : Block) : String :=
  (hat.fieldText? "KEY_OPTION").getD "space"

namespace Compile

def isKeyHat (hat : Block) : Bool :=
  hat.kind.trigger? = some .key

theorem onKey_file (p : EntityProgram) (hat : Block) (trigger : Trigger) (s : Script) :
    (file p hat trigger s).1.onKey =
      if trigger = .key then addScript p.onKey (Name.key hat.spelledKey) s else p.onKey := by
  have hspace : Name.key "space" = "space" := by decide +kernel
  fun_cases file p hat trigger s <;> simp_all [Block.spelledKey]

theorem perm_named_hats (lookup : String → Option Block) (fuel : Nat) {blocks : List Block}
    (hhats : ∀ hat ∈ blocks, hat.kind.isHat = true) :
    (named (hats lookup fuel blocks).1.onKey).Perm
      ((blocks.filter isKeyHat).map fun hat => (Name.key hat.spelledKey, scriptOf lookup fuel hat)) := by
  induction blocks using List.reverseRecOn with
  | nil => exact .refl _
  | append_singleton before hat ih =>
    have hbefore := ih fun b hb => hhats b (List.mem_append_left _ hb)
    obtain ⟨trigger, ht⟩ := Option.isSome_iff_exists.1 (hhats hat (by simp))
    have hhats' : hats lookup fuel (before ++ [hat]) =
        addHat lookup fuel (hats lookup fuel before) hat := List.foldl_concat ..
    rw [hhats', addHat_fst ht, onKey_file, List.filter_append, List.map_append]
    by_cases hkey : trigger = .key
    · rw [if_pos hkey]
      have hfilter : [hat].filter isKeyHat = [hat] := by simp [isKeyHat, ht, hkey]
      rw [hfilter]
      exact (perm_named_addScript _ _ _).trans (hbefore.append_right _)
    · rw [if_neg hkey]
      have hfilter : [hat].filter isKeyHat = [] := by simp [isKeyHat, ht, hkey]
      rw [hfilter, List.map_nil, List.append_nil]
      exact hbefore

end Compile

/-- The key hats of a block tree, spelled as its blocks spell them. -/
def BlockTree.keyHats (t : BlockTree) (entity : EntityId) : List KeyHat :=
  (t.hats.filter Compile.isKeyHat).map fun hat =>
    ⟨hat.spelledKey, ⟨entity, Compile.scriptOf t.get? (t.blocks.size + 1) hat⟩⟩

/-- Compilation normalises the spellings and so changes nothing for any key. -/
theorem BlockTree.perm_keyHats (t : BlockTree) (name : String) (entity : EntityId) (key : String) :
    ((((Compile.entity name t).1.keyHats entity).filter (·.hears key)).map (·.listener)).Perm
      (((t.keyHats entity).filter (·.hears key)).map (·.listener)) := by
  have hnamed := Compile.perm_named_hats t.get? (t.blocks.size + 1) fun _ => t.isHat_of_mem_hats
  have hhats := ((hnamed.map fun (spelling, s) => (⟨spelling, ⟨entity, s⟩⟩ : KeyHat)).filter
    (·.hears key)).map (·.listener)
  simp only [List.map_map, List.filter_map, Function.comp_def, KeyHat.hears, Name.key_key] at hhats
  simp only [BlockTree.keyHats, List.map_map, List.filter_map, Function.comp_def, KeyHat.hears]
  refine .trans ?_ hhats
  simp only [EntityProgram.keyHats, List.map_map, List.filter_map, Function.comp_def]
  exact .refl _

/-! ### Timelines -/

namespace Text

theorem after?_append (word : String) (cs : List Char) :
    after? word (word.toList ++ cs) = some cs := by
  have hprefix : word.toList.isPrefixOf (word.toList ++ cs) = true :=
    List.isPrefixOf_iff_prefix.2 (List.prefix_append _ _)
  rw [after?, if_pos hprefix, ← String.length_toList, List.drop_left]

/-- One blank or more. -/
def IsGap (cs : List Char) : Prop :=
  cs ≠ [] ∧ ∀ c ∈ cs, isBlank c = true

theorem afterBlanks?_append {gap : List Char} (h : IsGap gap) (cs : List Char) :
    afterBlanks? (gap ++ cs) = some (dropBlanks cs) := by
  obtain ⟨c, rest, rfl⟩ := List.exists_cons_of_ne_nil h.1
  obtain ⟨hc, hrest⟩ := List.forall_mem_cons.1 h.2
  rw [List.cons_append, afterBlanks?, if_pos hc, dropBlanks, List.dropWhile_append_of_pos hrest]
  rfl

end Text

theorem Name.key_trimmed {key : String} (h : Text.isBlankText key = false) :
    Name.key (String.ofList (Text.trimmed key.toList)) = Name.key key := by
  have hblank : key ≠ " " := by
    rintro rfl
    cases h
  have htrim : Text.trim (String.ofList (Text.trimmed key.toList)) = Text.trim key := by
    rw [Text.trim, String.toList_ofList, Text.trimmed_of_tight (Text.tight_trimmed _), Text.trim]
  have htight : String.ofList (Text.trimmed key.toList) ≠ " " := by
    intro he
    have hchars := congrArg String.toList he
    rw [String.toList_ofList] at hchars
    have hspace : Text.isBlank ' ' = false :=
      (Text.tight_trimmed key.toList).1 ' ' (by rw [hchars]; rfl)
    cases hspace
  rw [Name.key, if_neg htight, htrim, Name.key, if_neg hblank]

namespace Timeline

/-- How a timeline says that a key goes down or up. -/
def keyText (down : Bool) (gap gap' : List Char) (key : String) : List Char :=
  "key".toList ++ (gap ++ ((if down then "down" else "up").toList ++ (gap' ++ key.toList)))

theorem keyAction?_keyText (down : Bool) {gap gap' : List Char} {key : String} (hgap : Text.IsGap gap)
    (hgap' : Text.IsGap gap') (hkey : Text.isBlankText key = false) :
    keyAction? (keyText down gap gap' key) = some (down, Name.key key) := by
  have hword : Text.dropBlanks ((if down then "down" else "up").toList ++ (gap' ++ key.toList)) =
      (if down then "down" else "up").toList ++ (gap' ++ key.toList) := by
    cases down <;> rfl
  have hway : ((Text.after? "down" ((if down then "down" else "up").toList ++
      (gap' ++ key.toList))).map (true, ·)).or
        ((Text.after? "up" ((if down then "down" else "up").toList ++
          (gap' ++ key.toList))).map (false, ·)) = some (down, gap' ++ key.toList) := by
    cases down with
    | true =>
      rw [if_pos rfl, Text.after?_append]
      rfl
    | false => rfl
  have hrest : (Text.dropBlanks key.toList).isEmpty = false := by
    rw [List.isEmpty_eq_false_iff, Text.dropBlanks, Ne, List.dropWhile_eq_nil_iff]
    intro hall
    have hblank : Text.isBlankText key = true := List.all_eq_true.2 hall
    rw [hkey] at hblank
    cases hblank
  have htrimmed : Text.trimmed (Text.dropBlanks key.toList) = Text.trimmed key.toList := by
    rw [Text.trimmed, Text.dropBlanks, Text.dropBlanks, List.dropWhile_idempotent]
    rfl
  simp only [keyAction?, keyText, Text.after?_append, Text.afterBlanks?_append hgap, hword, hway,
    Text.afterBlanks?_append hgap', hrest, htrimmed, Name.key_trimmed hkey, Option.bind_eq_bind,
    Option.bind_some]
  rfl

theorem readInput_keyText (p : Project) (down : Bool) {gap gap' : List Char} {key : String}
    (hgap : Text.IsGap gap) (hgap' : Text.IsGap gap') (hkey : Text.isBlankText key = false) :
    readInput p (keyText down gap gap' key) =
      .ok (if down then .keyDown (Name.key key) else .keyUp (Name.key key)) := by
  rw [readInput, keyAction?_keyText down hgap hgap' hkey]
  cases down <;> rfl

end Timeline

end SpriteStage
