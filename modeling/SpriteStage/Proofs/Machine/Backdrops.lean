import SpriteStage.Proofs.Machine.Costumes
import SpriteStage.Proofs.Text.KeyName
import SpriteStage.Proofs.World.Random

/-!
Random backdrops. A script that asks for a random backdrop never gets the one that is there, and
each of the others comes up for some draw.

The place that is drawn lies one or more places behind the current one, going round at the end, and
fewer than all of them. So it is another place as long as the current one is among them, which holds
in every machine that is visited (`Visited.dressed`).
-/

namespace SpriteStage

namespace World

/-! ### Which words ask for it -/

/-- The words `random backdrop` in small letters or capitals, with blanks around them. -/
def IsRandomChoice (text : String) : Prop :=
  ∃ before word after, text.toList = before ++ word ++ after ∧
    (∀ c ∈ before, Text.isBlank c = true) ∧ (∀ c ∈ after, Text.isBlank c = true) ∧
    word.map Char.toLower = "random backdrop".toList

theorem IsRandomChoice.asksForRandom {text : String} (h : IsRandomChoice text) :
    asksForRandom (.text text) = true := by
  obtain ⟨before, word, after, htext, hbefore, hafter, hword⟩ := h
  have htight : Text.Tight word := by
    apply Text.tight_of_map_toLower
    rw [hword]
    refine ⟨fun c hc => ?_, fun c hc => ?_⟩
    · obtain rfl : 'r' = c := Option.some_inj.1 hc
      decide
    · obtain rfl : 'p' = c := Option.some_inj.1 hc
      decide
  show Text.equalFold (Text.trim text) "random backdrop" = true
  rw [Text.trim, htext, Text.trimmed_append hbefore htight hafter, Text.equalFold,
    String.toList_ofList, hword]
  decide

/-! ### Which backdrop is drawn -/

/-- The place reached from the current one by so many steps as the bits say, at least one and fewer
than there are places. -/
def anotherPlace (current length : Nat) (bits : UInt64) : Nat :=
  (current + (1 + bits.toNat % (length - 1))) % length

section

variable {current length : Nat}

theorem anotherPlace_lt (hmany : 2 ≤ length) (bits : UInt64) :
    anotherPlace current length bits < length :=
  Nat.mod_lt _ (by omega)

theorem anotherPlace_ne (hmany : 2 ≤ length) (hcurrent : current < length) (bits : UInt64) :
    anotherPlace current length bits ≠ current := by
  have hshare : bits.toNat % (length - 1) < length - 1 := Nat.mod_lt _ (by omega)
  unfold anotherPlace
  rcases Nat.lt_or_ge (current + (1 + bits.toNat % (length - 1))) length with hlt | hge
  · rw [Nat.mod_eq_of_lt hlt]
    omega
  · rw [Nat.mod_eq_sub_mod hge, Nat.mod_eq_of_lt (by omega)]
    omega

theorem exists_anotherPlace {place : Nat} (hfew : length ≤ 2 ^ 63) (hcurrent : current < length)
    (hplace : place < length) (hne : place ≠ current) :
    ∃ bits, anotherPlace current length bits = place := by
  -- the way from the current place on to the other, round the end if that lies before it
  have hway : ∃ way < length - 1, (current + (1 + way)) % length = place := by
    rcases Nat.lt_or_ge current place with hlt | hge
    · exact ⟨place - current - 1, by omega, by rw [Nat.mod_eq_of_lt (by omega)]; omega⟩
    · refine ⟨place + length - current - 1, by omega, ?_⟩
      rw [Nat.mod_eq_sub_mod (by omega), Nat.mod_eq_of_lt (by omega)]
      omega
  obtain ⟨way, hlt, hway⟩ := hway
  refine ⟨UInt64.ofNat way, ?_⟩
  rw [anotherPlace, UInt64.toNat_ofNat_of_lt' (show way < 2 ^ 64 by omega), Nat.mod_eq_of_lt hlt, hway]

theorem run_drawOther (hmany : 2 ≤ length) (hfew : length ≤ 2 ^ 63) (r : SplitMix) :
    (drawOther current length).run.run r =
      (.ok (anotherPlace current length r.draw.1), r.draw.2) := by
  have hlast : (Int64.ofNat (length - 1)).toInt = (length - 1 : Nat) :=
    Int64.toInt_ofNat_of_lt (by omega)
  have hone : (1 : Int64).toInt = 1 := rfl
  have hle : (1 : Int64).toInt ≤ (Int64.ofNat (length - 1)).toInt := by omega
  have hdraw := r.toInt_drawBetween hle
  rw [hlast, hone, Int.sub_add_cancel] at hdraw
  have hoffset : (r.drawBetween 1 (Int64.ofNat (length - 1))).1.toNatClampNeg =
      1 + r.draw.1.toNat % (length - 1) := by
    show Int.toNat _ = _
    rw [hdraw]
    omega
  rw [drawOther, if_neg (by omega)]
  show ((Except.ok ((current + (r.drawBetween 1 _).1.toNatClampNeg) % length), _) : _ × _) = _
  rw [hoffset]
  rfl

end

/-! ### The switch -/

variable {w : World} {id : EntityId} {e : Entity}

theorem exists_applyCostume (he : w.entities[id]? = some e) (index : Nat) :
    ∃ w', w.applyCostume id index = .ok w' ∧
      w'.entities = w.entities.set id { e with currentCostume := index } := by
  have hentity : w.entity id = .ok e := entity_eq_ok_iff.2 he
  unfold applyCostume
  rw [hentity]
  refine ⟨_, rfl, ?_⟩
  dsimp only
  split <;> rfl

theorem run_switchBackground_random (hid : w.background? = some id) (he : w.entities[id]? = some e)
    (hmany : 2 ≤ e.costumes.length) (hfew : e.costumes.length ≤ 2 ^ 63) {choice : Value}
    (hchoice : asksForRandom choice = true) (r : SplitMix) :
    ∃ w', (w.switchBackground choice).run.run r = (.ok w', r.draw.2) ∧
      w'.entities = w.entities.set id
        { e with currentCostume := anotherPlace e.currentCostume e.costumes.length r.draw.1 } := by
  have hbackground : w.background = .ok id := by rw [background, hid]
  have hentity : w.entity id = .ok e := entity_eq_ok_iff.2 he
  have hdressed : e.costumes.isEmpty = false := by
    rw [List.isEmpty_eq_false_iff, ← List.length_pos_iff]
    omega
  obtain ⟨w', happly, hentities⟩ :=
    exists_applyCostume he (anotherPlace e.currentCostume e.costumes.length r.draw.1)
  refine ⟨w', ?_, hentities⟩
  have hguard : (asksForRandom choice && !e.costumes.isEmpty) = true := by
    rw [hchoice, hdressed]
    rfl
  rw [switchBackground, hbackground, Eval.run_bind]
  show (Eval.ofExcept (w.entity id) >>= _).run.run r = _
  rw [hentity, Eval.run_bind]
  show (ite _ _ _ : Eval World).run.run r = _
  rw [if_pos hguard, Eval.run_bind, run_drawOther hmany hfew]
  show (Eval.ofExcept (w.applyCostume id _)).run.run r.draw.2 = _
  rw [happly]
  rfl

end World

namespace Machine

/-- A switch to a random backdrop shows a backdrop other than the current one, which depends on one
draw from the random source, and each other one comes up for some state of the source. No list in
memory is longer than `2 ^ 63`. -/
theorem random_backdrop_is_another {n : Machine} (h : n.Visited) {id : EntityId} {e : Entity}
    (hid : n.world.background? = some id) (he : n.world.entities[id]? = some e)
    (hmany : 2 ≤ e.costumes.length) (hfew : e.costumes.length ≤ 2 ^ 63) {text : String}
    (htext : World.IsRandomChoice text) (self : EntityId) :
    ∃ place : UInt64 → Nat,
      (∀ r, ∃ w, ((Action.switchBackground (.literal (.text text))).run n.world self).run.run r =
          (.ok (w, .proceed), r.draw.2) ∧
        w.entities = n.world.entities.set id { e with currentCostume := place r.draw.1 }) ∧
      (∀ bits, place bits < e.costumes.length ∧ place bits ≠ e.currentCostume) ∧
      ∀ other < e.costumes.length, other ≠ e.currentCostume →
        ∃ r : SplitMix, place r.draw.1 = other := by
  have hworn : e.currentCostume < e.costumes.length := by
    refine (h.dressed e (List.mem_of_getElem? he)).worn ?_
    rw [← List.length_pos_iff]
    omega
  refine ⟨World.anotherPlace e.currentCostume e.costumes.length, fun r => ?_, fun bits => ?_,
    fun other hother hne => ?_⟩
  · obtain ⟨w, hrun, hentities⟩ :=
      World.run_switchBackground_random hid he hmany hfew htext.asksForRandom r
    refine ⟨w, ?_, hentities⟩
    rw [Action.run, Eval.run_bind]
    show (n.world.switchBackground (.text text) >>= _).run.run r = _
    rw [Eval.run_bind, hrun]
    rfl
  · exact ⟨World.anotherPlace_lt hmany bits, World.anotherPlace_ne hmany hworn bits⟩
  · obtain ⟨bits, hbits⟩ := World.exists_anotherPlace hfew hworn hother hne
    obtain ⟨r, hr⟩ := SplitMix.exists_draw bits
    exact ⟨r, by rw [hr, hbits]⟩

namespace Sample

-- A cat, and a stage that shows the last of its three backdrops.
def staging : List Move :=
  [.command (.loadProgram
    [cat, { cat with name := "Stage", kind := .background, costumes := wardrobe,
                     currentCostume := 7 }] ⟨[]⟩),
    .command .start]

end Sample

theorem random_backdrop_is_another_sample :
    let n := (Machine.new .standard).after Sample.staging
    n.world.background? = some 1 ∧
      (n.world.entities[1]?.map fun e => (e.costumes.length, e.currentCostume)) = some (3, 2) ∧
      ∃ e, n.world.entities[1]? = some e ∧ ∃ place : UInt64 → Nat,
        (∀ r, ∃ w, ((Action.switchBackground (.literal (.text "\tRandom BACKDROP "))).run
            n.world 0).run.run r = (.ok (w, .proceed), r.draw.2) ∧
          w.entities = n.world.entities.set 1 { e with currentCostume := place r.draw.1 }) ∧
        (∀ bits, place bits < 3 ∧ place bits ≠ 2) ∧
        ∀ other < 3, other ≠ 2 → ∃ r : SplitMix, place r.draw.1 = other := by
  intro n
  have hspelled : World.IsRandomChoice "\tRandom BACKDROP " :=
    ⟨['\t'], "Random BACKDROP".toList, [' '], rfl, List.forall_mem_singleton.2 rfl,
      List.forall_mem_singleton.2 rfl, rfl⟩
  exact ⟨by decide +kernel, by decide +kernel, _, rfl,
    random_backdrop_is_another (.inl ⟨.standard, Sample.staging, rfl⟩) (by decide +kernel) rfl
      (by decide) (by decide) hspelled 0⟩

end Machine

end SpriteStage
