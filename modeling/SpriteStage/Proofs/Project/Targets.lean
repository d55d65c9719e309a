import SpriteStage.Project.Reader
import SpriteStage.Proofs.Traversal

/-!
The targets of a project file. Reading goes through the targets in the order of the file and stops
at the first that lacks something (`Faulty`). If none does (`Complete`), every target becomes one
entity, those of the stage first, and the monitors then change how variables are shown and nothing
else (`shownBy`). A drawing that uses no entities is read by a fold over its bytes
(`run_of_foldlM_takePlain?`), so that whether a small one can be read is a matter of evaluation.
-/

namespace SpriteStage

namespace Media.Markup

/-! ### Plain documents -/

theorem Encoding.head_of_ascii {b : UInt8} (h : b.toNat < 0x80) (rest : List UInt8) :
    Encoding.assumed.head (b :: rest) = .char (Char.ofNat b.toNat) rest := by
  simp [head, Text.firstChar, Text.leadByte?, h, Text.followingBytes]

namespace State

/-- Takes a byte as a character of its own that uses no entity. -/
def takePlain? (s : State) (b : UInt8) : Option State :=
  if s.encoding = .assumed ∧ b.toNat < 0x80 then
    (s.takeChar (Char.ofNat b.toNat)).filter (·.inserted.isEmpty)
  else none

theorem run_cons_of_takePlain? {s next : State} {b : UInt8} (h : s.takePlain? b = some next)
    (depth : Nat) (rest : List UInt8) :
    s.run depth [] (b :: rest) = next.run 0 [] rest := by
  unfold takePlain? at h
  split at h
  case isFalse => cases h
  case isTrue hplain =>
    obtain ⟨hencoding, hascii⟩ := hplain
    obtain ⟨hnext, hinserted⟩ := Option.filter_eq_some_iff.1 h
    have hhead : s.encoding.head (b :: rest) = .char (Char.ofNat b.toNat) rest := by
      rw [hencoding, Encoding.head_of_ascii hascii]
    rw [run]
    split
    next h => cases h.symm.trans hhead
    next h => cases h.symm.trans hhead
    next h =>
      cases h.symm.trans hhead
      simp only [hnext, hinserted, if_true]

/-- Where no byte uses an entity, the reading is a fold over the bytes. -/
theorem run_of_foldlM_takePlain? {s : State} {bytes : List UInt8} {d : Dict String}
    (h : (bytes.foldlM takePlain? s).bind finish = some d) (depth : Nat) :
    s.run depth [] bytes = some d := by
  induction bytes generalizing s depth with
  | nil =>
    rw [run]
    exact h
  | cons b rest ih =>
    obtain ⟨t, ht, hfinish⟩ := Option.bind_eq_some_iff.1 h
    obtain ⟨next, hnext, hrest⟩ := Option.bind_eq_some_iff.1 ht
    rw [run_cons_of_takePlain? hnext, ih (Option.bind_eq_some_iff.2 ⟨t, hrest, hfinish⟩)]

end State

end Media.Markup

namespace Project

/-! ### Drawings -/

/-- The format of a costume's picture. -/
def pictureFormat (costume : Json) : String :=
  Text.lower ((text? costume "dataFormat").getD "svg")

/-- The file that holds a costume's picture. -/
def pictureFile (costume : Json) : String :=
  ((text? costume "md5ext").or
    ((text? costume "assetId").map (· ++ "." ++ pictureFormat costume))).getD ""

/-- The picture is a drawing among the assets, and cannot be read. -/
def BadDrawing (assets : Assets) (costume : Json) : Prop :=
  pictureFormat costume = "svg" ∧ ∃ data, assets.get? (pictureFile costume) = some data ∧
    Media.Markup.rootAttributes? data = none

theorem costume_of_badDrawing {assets : Assets} {j : Json} (h : BadDrawing assets j) (index : Nat) :
    costume assets j index = .error (.badDrawing (pictureFile j)) := by
  obtain ⟨hformat, data, hdata, hroot⟩ := h
  have hsize : pictureSize data (pictureFormat j) (pictureFile j) =
      .error (.badDrawing (pictureFile j)) := by
    rw [pictureSize, if_pos hformat, hroot]
  simp only [pictureFile, pictureFormat] at hdata hsize
  simp only [costume, hdata, hsize]
  rfl

theorem exists_pictureSize {data : ByteArray} {format : String}
    (h : format = "svg" → Media.Markup.rootAttributes? data ≠ none) (fileName : String) :
    ∃ size, pictureSize data format fileName = .ok size := by
  unfold pictureSize
  split
  next hformat =>
    cases hroot : Media.Markup.rootAttributes? data with
    | none => exact absurd hroot (h hformat)
    | some attributes => exact ⟨_, rfl⟩
  · split <;> exact ⟨_, rfl⟩

theorem exists_costume {assets : Assets} {j : Json} (h : ¬ BadDrawing assets j) (index : Nat) :
    ∃ c, costume assets j index = .ok c := by
  cases hdata : assets.get? (pictureFile j) with
  | none =>
    simp only [pictureFile, pictureFormat] at hdata
    simp only [costume, hdata]
    exact ⟨_, rfl⟩
  | some data =>
    obtain ⟨size, hsize⟩ :=
      exists_pictureSize (fun hformat hroot => h ⟨hformat, data, hdata, hroot⟩) (pictureFile j)
    simp only [pictureFile, pictureFormat] at hdata hsize
    simp only [costume, hdata, hsize]
    exact ⟨_, rfl⟩

theorem exists_costumes {assets : Assets} {target : Json}
    (h : ∀ c ∈ items target "costumes", ¬ BadDrawing assets c) :
    ∃ cs, costumes assets target = .ok cs := by
  refine exists_mapM_iff.2 fun p hp => exists_costume (h p.1 ?_) p.2
  exact List.fst_mem_of_mem_zipIdx hp

theorem costumes_of_badDrawing {assets : Assets} {target c : Json} {before after : List Json}
    (hcostumes : items target "costumes" = before ++ c :: after)
    (hbefore : ∀ d ∈ before, ¬ BadDrawing assets d) (hc : BadDrawing assets c) :
    costumes assets target = .error (.badDrawing (pictureFile c)) := by
  refine mapM_eq_error_iff.2 ⟨before.zipIdx, (c, before.length), after.zipIdx (before.length + 1),
    ?_, fun p hp => exists_costume (hbefore p.1 (List.fst_mem_of_mem_zipIdx hp)) p.2,
    costume_of_badDrawing hc _⟩
  rw [hcostumes, List.zipIdx_append, List.zipIdx_cons, Nat.zero_add]

/-! ### Targets -/

/-- The target has all that an entity needs. -/
structure Complete (assets : Assets) (target : Json) : Prop where
  name : ∃ name, target.field? "name" = some (.str name)
  stageFlag : ∃ isStage, target.field? "isStage" = some (.bool isStage)
  blocks : ∃ blocks, target.field? "blocks" = some (.obj blocks)
  drawings : ∀ c ∈ items target "costumes", ¬ BadDrawing assets c

/-- The first thing that a target lacks. -/
inductive Faulty (assets : Assets) (target : Json) : LoadError → Prop where
  | noName (h : ∀ name, target.field? "name" ≠ some (.str name)) : Faulty assets target .noName
  | noStageFlag {name : String} (hname : target.field? "name" = some (.str name))
      (h : ∀ isStage, target.field? "isStage" ≠ some (.bool isStage)) :
      Faulty assets target (.noStageFlag name)
  | noBlocks {name : String} {isStage : Bool} (hname : target.field? "name" = some (.str name))
      (hstage : target.field? "isStage" = some (.bool isStage))
      (h : ∀ blocks, target.field? "blocks" ≠ some (.obj blocks)) :
      Faulty assets target (.noBlocks name)
  | badDrawing {name : String} {isStage : Bool} {blocks : List (String × Json)} {c : Json}
      {before after : List Json} (hname : target.field? "name" = some (.str name))
      (hstage : target.field? "isStage" = some (.bool isStage))
      (hblocks : target.field? "blocks" = some (.obj blocks))
      (hcostumes : items target "costumes" = before ++ c :: after)
      (hbefore : ∀ d ∈ before, ¬ BadDrawing assets d) (h : BadDrawing assets c) :
      Faulty assets target (.badDrawing (pictureFile c))

theorem complete_or_faulty (assets : Assets) (target : Json) :
    Complete assets target ∨ ∃ e, Faulty assets target e := by
  by_cases hname : ∃ name, target.field? "name" = some (.str name)
  · by_cases hstage : ∃ isStage, target.field? "isStage" = some (.bool isStage)
    · by_cases hblocks : ∃ blocks, target.field? "blocks" = some (.obj blocks)
      · by_cases hdrawings : ∀ c ∈ items target "costumes", ¬ BadDrawing assets c
        · exact .inl ⟨hname, hstage, hblocks, hdrawings⟩
        · classical
          have hsome : ((items target "costumes").find? (BadDrawing assets ·)).isSome := by
            simpa using hdrawings
          obtain ⟨c, hc⟩ := Option.isSome_iff_exists.1 hsome
          obtain ⟨hbad, before, after, hcostumes, hbefore⟩ := List.find?_eq_some_iff_append.1 hc
          obtain ⟨_, hname⟩ := hname
          obtain ⟨_, hstage⟩ := hstage
          obtain ⟨_, hblocks⟩ := hblocks
          refine .inr ⟨_, .badDrawing hname hstage hblocks hcostumes (fun d hd => ?_)
            (of_decide_eq_true hbad)⟩
          simpa using hbefore d hd
      · obtain ⟨_, hname⟩ := hname
        obtain ⟨_, hstage⟩ := hstage
        exact .inr ⟨_, .noBlocks hname hstage (not_exists.1 hblocks)⟩
    · obtain ⟨_, hname⟩ := hname
      exact .inr ⟨_, .noStageFlag hname (not_exists.1 hstage)⟩
  · exact .inr ⟨_, .noName (not_exists.1 hname)⟩

section Fields

variable {j : Json} {name : String}

theorem text?_eq_some_iff {s : String} : text? j name = some s ↔ j.field? name = some (.str s) := by
  have hstr : ∀ v : Json, v.str? = some s ↔ v = .str s := by
    intro v
    cases v <;> simp [Json.str?]
  simp [text?, Option.bind_eq_some_iff, hstr]

theorem bool?_eq_some_iff {b : Bool} : bool? j name = some b ↔ j.field? name = some (.bool b) := by
  have hbool : ∀ v : Json, v.bool? = some b ↔ v = .bool b := by
    intro v
    cases v <;> simp [Json.bool?]
  simp [bool?, Option.bind_eq_some_iff, hbool]

theorem bind_obj?_eq_some_iff {fields : List (String × Json)} :
    (j.field? name).bind Json.obj? = some fields ↔ j.field? name = some (.obj fields) := by
  have hobj : ∀ v : Json, v.obj? = some fields ↔ v = .obj fields := by
    intro v
    cases v <;> simp [Json.obj?]
  simp [Option.bind_eq_some_iff, hobj]

theorem bind_arr?_eq_some_iff {items : List Json} :
    (j.field? name).bind Json.arr? = some items ↔ j.field? name = some (.arr items) := by
  have harr : ∀ v : Json, v.arr? = some items ↔ v = .arr items := by
    intro v
    cases v <;> simp [Json.arr?]
  simp [Option.bind_eq_some_iff, harr]

end Fields

theorem entity_of_faulty {assets : Assets} {target : Json} {e : LoadError}
    (h : Faulty assets target e) : entity assets target = .error e := by
  cases h with
  | noName h =>
    have hname : text? target "name" = none :=
      Option.eq_none_iff_forall_ne_some.2 fun _ hs => h _ (text?_eq_some_iff.1 hs)
    rw [entity, hname]
    rfl
  | noStageFlag hname h =>
    have hstage : bool? target "isStage" = none :=
      Option.eq_none_iff_forall_ne_some.2 fun _ hs => h _ (bool?_eq_some_iff.1 hs)
    rw [entity, text?_eq_some_iff.2 hname, hstage]
    rfl
  | noBlocks hname hstage h =>
    have hblocks : (target.field? "blocks").bind Json.obj? = none :=
      Option.eq_none_iff_forall_ne_some.2 fun _ hs => h _ (bind_obj?_eq_some_iff.1 hs)
    rw [entity, text?_eq_some_iff.2 hname, bool?_eq_some_iff.2 hstage, hblocks]
    rfl
  | badDrawing hname hstage hblocks hcostumes hbefore h =>
    rw [entity, text?_eq_some_iff.2 hname, bool?_eq_some_iff.2 hstage,
      bind_obj?_eq_some_iff.2 hblocks, costumes_of_badDrawing hcostumes hbefore h]
    rfl

/-- What of an entity is told by its target. -/
structure ReadAs (target : Json) (d : EntityDoc) : Prop where
  name : target.field? "name" = some (.str d.name)
  stageFlag : target.field? "isStage" = some (.bool (isBackground d))
  vars : d.vars = vars target

theorem exists_entity {assets : Assets} {target : Json} (h : Complete assets target) :
    ∃ d, entity assets target = .ok d ∧ ReadAs target d := by
  obtain ⟨⟨name, hname⟩, ⟨isStage, hstage⟩, ⟨blocks, hblocks⟩, hdrawings⟩ := h
  obtain ⟨cs, hcs⟩ := exists_costumes hdrawings
  rw [entity, text?_eq_some_iff.2 hname, bool?_eq_some_iff.2 hstage,
      bind_obj?_eq_some_iff.2 hblocks, hcs]
  refine ⟨_, rfl, hname, ?_, rfl⟩
  cases isStage <;> exact hstage

theorem complete_of_entity {assets : Assets} {target : Json} {d : EntityDoc}
    (h : entity assets target = .ok d) : Complete assets target := by
  rcases complete_or_faulty assets target with hcomplete | ⟨e, hfaulty⟩
  · exact hcomplete
  · rw [entity_of_faulty hfaulty] at h
    cases h

theorem entity_eq_error_iff {assets : Assets} {target : Json} {e : LoadError} :
    entity assets target = .error e ↔ Faulty assets target e := by
  refine ⟨fun h => ?_, entity_of_faulty⟩
  rcases complete_or_faulty assets target with hcomplete | ⟨e', hfaulty⟩
  · obtain ⟨d, hd, -⟩ := exists_entity hcomplete
    rw [hd] at h
    cases h
  · rw [entity_of_faulty hfaulty] at h
    cases h
    exact hfaulty

theorem exists_entity_iff {assets : Assets} {target : Json} :
    (∃ d, entity assets target = .ok d) ↔ Complete assets target := by
  constructor
  · rintro ⟨d, hd⟩
    exact complete_of_entity hd
  · intro h
    obtain ⟨d, hd, -⟩ := exists_entity h
    exact ⟨d, hd⟩

theorem readAs_of_entity {assets : Assets} {target : Json} {d : EntityDoc}
    (h : entity assets target = .ok d) : ReadAs target d := by
  obtain ⟨d', hd', hread⟩ := exists_entity (complete_of_entity h)
  rw [h] at hd'
  cases hd'
  exact hread

/-! ### Monitors -/

/-- The entity as the monitors show it. -/
def shownBy (monitors : List Monitor) (e : EntityDoc) : EntityDoc :=
  { e with vars := (monitors.filter (·.owns e)).foldl (fun vars m => m.applyTo vars) e.vars }

/-- A monitor looks for the name and the kind of an entity, which no monitor changes. -/
theorem Monitor.owns_with_vars (m : Monitor) (e : EntityDoc) (vars : List VariableDoc) :
    m.owns { e with vars } = m.owns e := by
  unfold owns
  split <;> rfl

theorem foldl_apply (monitors : List Monitor) (entities : List EntityDoc) :
    monitors.foldl (fun entities m => m.apply entities) entities =
      entities.map (shownBy monitors) := by
  induction monitors generalizing entities with
  | nil => exact (List.map_id' entities).symm
  | cons m rest ih =>
    rw [List.foldl_cons, ih, Monitor.apply, List.map_map]
    refine List.map_congr_left fun e _ => ?_
    cases howns : m.owns e <;> simp [shownBy, howns, Monitor.owns_with_vars]

/-- The variable as it is without monitors. -/
def hidden (v : VariableDoc) : VariableDoc :=
  { v with visible := false, displayPosition := none }

/-- The entity with its variables as they are without monitors. -/
def unshown (e : EntityDoc) : EntityDoc :=
  { e with vars := e.vars.map hidden }

theorem map_hidden_applyTo (m : Monitor) (vars : List VariableDoc) :
    (m.applyTo vars).map hidden = vars.map hidden := by
  induction vars with
  | nil => rfl
  | cons v rest ih =>
    rw [Monitor.applyTo]
    split
    · rfl
    · rw [List.map_cons, ih, List.map_cons]

theorem unshown_shownBy (monitors : List Monitor) (e : EntityDoc) :
    unshown (shownBy monitors e) = unshown e := by
  have hvars : ∀ (ms : List Monitor) (vars : List VariableDoc),
      (ms.foldl (fun vars m => m.applyTo vars) vars).map hidden = vars.map hidden := by
    intro ms
    induction ms with
    | nil => exact fun _ => rfl
    | cons m rest ih =>
      intro vars
      rw [List.foldl_cons, ih, map_hidden_applyTo]
  simp only [unshown, shownBy, hvars]

theorem hidden_of_variableOf? {j : Json} {v : VariableDoc} (h : variableOf? j = some v) :
    hidden v = v := by
  unfold variableOf? at h
  split at h
  · cases h
    rfl
  · cases h

theorem hidden_of_mem_vars {target : Json} {v : VariableDoc} (h : v ∈ vars target) :
    hidden v = v := by
  obtain ⟨p, -, hp⟩ := List.mem_filterMap.1 h
  exact hidden_of_variableOf? hp

theorem ReadAs.unshown {target : Json} {d : EntityDoc} (h : ReadAs target d) : unshown d = d := by
  have hvars : d.vars.map hidden = d.vars := by
    rw [h.vars, List.map_congr_left fun v => hidden_of_mem_vars, List.map_id']
  rw [Project.unshown, hvars]

/-! ### The whole file -/

theorem read_of_targets {file : Json} {targets : List Json}
    (h : file.field? "targets" = some (.arr targets)) (assets : Assets) :
    read file assets = (targets.mapM (entity assets)).map fun docs =>
      ⟨(backgroundFirst docs).map (shownBy ((items file "monitors").filterMap monitor?))⟩ := by
  rw [read, bind_arr?_eq_some_iff.2 h]
  simp only [foldl_apply]
  cases targets.mapM (entity assets) <;> rfl

theorem read_of_no_targets {file : Json} (h : ∀ targets, file.field? "targets" ≠ some (.arr targets))
    (assets : Assets) : read file assets = .error .noTargets := by
  have htargets : (file.field? "targets").bind Json.arr? = none :=
    Option.eq_none_iff_forall_ne_some.2 fun _ hs => h _ (bind_arr?_eq_some_iff.1 hs)
  rw [read, htargets]
  rfl

theorem exists_docs {file : Json} {assets : Assets} {p : Project} (h : read file assets = .ok p) :
    ∃ targets docs, file.field? "targets" = some (.arr targets) ∧
      List.Forall₂ (fun t d => entity assets t = .ok d) targets docs ∧
      p.entities = (backgroundFirst docs).map
        (shownBy ((items file "monitors").filterMap monitor?)) := by
  by_cases htargets : ∃ targets, file.field? "targets" = some (.arr targets)
  · obtain ⟨targets, htargets⟩ := htargets
    rw [read_of_targets htargets] at h
    cases hdocs : targets.mapM (entity assets) with
    | error e => rw [hdocs] at h; cases h
    | ok docs =>
      rw [hdocs] at h
      cases h
      exact ⟨targets, docs, htargets, mapM_eq_ok_iff.1 hdocs, rfl⟩
  · rw [read_of_no_targets (not_exists.1 htargets)] at h
    cases h

/-- Does the target belong to the stage? -/
def isStage (target : Json) : Bool :=
  bool? target "isStage" == some true

/-- The targets of the stage, and then the others. -/
def stageFirst (targets : List Json) : List Json :=
  targets.filter isStage ++ targets.filter fun t => !isStage t

/-- The entity is that of the target, and but for how its variables are shown it is what the target
gives in a file of its own. -/
structure IsEntityOf (assets : Assets) (target : Json) (e : EntityDoc) : Prop where
  name : target.field? "name" = some (.str e.name)
  stageFlag : target.field? "isStage" = some (.bool (isBackground e))
  alone : read (.obj [("targets", .arr [target])]) assets = .ok ⟨[unshown e]⟩

theorem isEntityOf_shownBy {assets : Assets} {target : Json} {d : EntityDoc}
    (h : entity assets target = .ok d) (monitors : List Monitor) :
    IsEntityOf assets target (shownBy monitors d) where
  name := (readAs_of_entity h).name
  stageFlag := (readAs_of_entity h).stageFlag
  alone := by
    have hfirst : backgroundFirst [d] = [d] := by
      cases hb : isBackground d <;> simp [backgroundFirst, hb]
    rw [unshown_shownBy, (readAs_of_entity h).unshown, read_of_targets rfl,
      mapM_eq_ok_iff.2 (.cons h .nil)]
    simp only [Except.map, hfirst]
    rfl

theorem forall₂_stageFirst {assets : Assets} {targets : List Json} {docs : List EntityDoc}
    (h : List.Forall₂ (fun t d => entity assets t = .ok d) targets docs) :
    List.Forall₂ (fun t d => entity assets t = .ok d) (stageFirst targets) (backgroundFirst docs) := by
  have hstage : ∀ t d, entity assets t = .ok d → isStage t = isBackground d := by
    intro t d hd
    rw [isStage, bool?_eq_some_iff.2 (readAs_of_entity hd).stageFlag]
    cases isBackground d <;> rfl
  refine List.rel_append (List.rel_filter (fun t d hd => ?_) h) (List.rel_filter (fun t d hd => ?_) h)
  · simp only [hstage t d hd]
  · simp only [hstage t d hd]

theorem exists_read_iff {file : Json} {assets : Assets} :
    (∃ p, read file assets = .ok p) ↔
      ∃ targets, file.field? "targets" = some (.arr targets) ∧ ∀ t ∈ targets, Complete assets t := by
  constructor
  · rintro ⟨p, hp⟩
    obtain ⟨targets, docs, htargets, hdocs, -⟩ := exists_docs hp
    refine ⟨targets, htargets, fun t ht => exists_entity_iff.1 ?_⟩
    exact exists_mapM_iff.1 ⟨docs, mapM_eq_ok_iff.2 hdocs⟩ t ht
  · rintro ⟨targets, htargets, hcomplete⟩
    obtain ⟨docs, hdocs⟩ := exists_mapM_iff.2 fun t ht => exists_entity_iff.2 (hcomplete t ht)
    exact ⟨_, by rw [read_of_targets htargets, hdocs]; rfl⟩

theorem read_eq_error_iff_of_targets {file : Json} {targets : List Json}
    (h : file.field? "targets" = some (.arr targets)) {assets : Assets} {e : LoadError} :
    read file assets = .error e ↔ ∃ before t after, targets = before ++ t :: after ∧
      (∀ s ∈ before, Complete assets s) ∧ Faulty assets t e := by
  have herror : read file assets = .error e ↔ targets.mapM (entity assets) = .error e := by
    rw [read_of_targets h]
    cases targets.mapM (entity assets) <;> simp [Except.map]
  simp only [herror, mapM_eq_error_iff, exists_entity_iff, entity_eq_error_iff]

/-- Reading a file succeeds if every target is complete, and otherwise fails as the first faulty one
says. The entities are those of the targets, one each, the stage's first and otherwise in the order
of the file. But for how its variables are shown, an entity depends on its own target only. -/
theorem project_follows_targets (file : Json) (assets : Assets) :
    ((∃ p, read file assets = .ok p) ↔
      ∃ targets, file.field? "targets" = some (.arr targets) ∧ ∀ t ∈ targets, Complete assets t) ∧
    (∀ e, read file assets = .error e ↔
      (e = .noTargets ∧ ∀ targets, file.field? "targets" ≠ some (.arr targets)) ∨
      ∃ before t after, file.field? "targets" = some (.arr (before ++ t :: after)) ∧
        (∀ s ∈ before, Complete assets s) ∧ Faulty assets t e) ∧
    ∀ p targets, read file assets = .ok p → file.field? "targets" = some (.arr targets) →
      List.Forall₂ (IsEntityOf assets) (stageFirst targets) p.entities := by
  refine ⟨exists_read_iff, fun e => ?_, fun p targets hp htargets => ?_⟩
  · by_cases htargets : ∃ targets, file.field? "targets" = some (.arr targets)
    · obtain ⟨targets, htargets⟩ := htargets
      rw [read_eq_error_iff_of_targets htargets]
      simp [htargets]
    · have hnone := not_exists.1 htargets
      rw [read_of_no_targets hnone]
      simp [hnone, eq_comm]
  · obtain ⟨targets', docs, htargets', hdocs, hentities⟩ := exists_docs hp
    rw [htargets] at htargets'
    cases htargets'
    rw [hentities, List.forall₂_map_right_iff]
    exact (forall₂_stageFirst hdocs).imp fun t d hd => isEntityOf_shownBy hd _

namespace Sample

def target (name : String) (isStage : Bool) (costumes : List Json) : Json :=
  .obj [("blocks", .obj []), ("costumes", .arr costumes), ("isStage", .bool isStage),
    ("name", .str name)]

def file (targets : List Json) : Json :=
  .obj [("targets", .arr targets)]

def hat : Json :=
  .obj [("md5ext", .str "hat.svg")]

def cap : Json :=
  .obj [("md5ext", .str "cap.svg")]

def drawing : ByteArray :=
  "<svg width='48' height='32'/>".toUTF8

-- The picture of the hat is an empty file.
def assets : Assets :=
  (Dict.empty.insert "hat.svg" .empty).insert "cap.svg" drawing

theorem complete_target (name : String) (isStage : Bool) {costumes : List Json}
    (h : ∀ c ∈ costumes, ¬ BadDrawing assets c) :
    Complete assets (target name isStage costumes) where
  name := ⟨name, rfl⟩
  stageFlag := ⟨isStage, rfl⟩
  blocks := ⟨[], rfl⟩
  drawings := h

theorem badDrawing_hat : BadDrawing assets hat := by
  have hbytes : ByteArray.empty.toList = [] := by decide +kernel
  refine ⟨by decide +kernel, .empty, rfl, ?_⟩
  rw [Media.Markup.rootAttributes?, hbytes]
  show (Media.Markup.State.start _).run 0 [] [] = none
  rw [Media.Markup.State.run]
  rfl

open Media.Markup in
theorem exists_rootAttributes_drawing : ∃ d, rootAttributes? drawing = some d := by
  have hmark : Encoding.ofMark drawing.toList = (.assumed, drawing.toList) := by decide +kernel
  have hplain : ((drawing.toList.foldlM State.takePlain? (.start .assumed)).bind
      State.finish).isSome := by decide +kernel
  obtain ⟨d, hd⟩ := Option.isSome_iff_exists.1 hplain
  refine ⟨d, ?_⟩
  rw [rootAttributes?, hmark]
  exact State.run_of_foldlM_takePlain? hd 0

theorem not_badDrawing_cap : ¬ BadDrawing assets cap := by
  rintro ⟨-, data, hdata, hroot⟩
  have hcap : assets.get? (pictureFile cap) = some drawing := rfl
  obtain ⟨d, hd⟩ := exists_rootAttributes_drawing
  cases hcap.symm.trans hdata
  cases hroot.symm.trans hd

end Sample

theorem project_follows_targets_sample :
    let cat := Sample.target "Cat" false [Sample.cap]
    let stage := Sample.target "Stage" true []
    let dog := Sample.target "Dog" false []
    let hatter := Sample.target "Hatter" false [Sample.cap, Sample.hat]
    (∃ p, read (Sample.file [cat, stage, dog]) Sample.assets = .ok p ∧
      List.Forall₂ (IsEntityOf Sample.assets) [stage, cat, dog] p.entities) ∧
    read (Sample.file [cat, hatter, .null]) Sample.assets = .error (.badDrawing "hat.svg") := by
  intro cat stage dog hatter
  have hcap : ∀ c ∈ [Sample.cap], ¬ BadDrawing Sample.assets c :=
    List.forall_mem_singleton.2 Sample.not_badDrawing_cap
  have hcat : Complete Sample.assets cat := Sample.complete_target "Cat" false hcap
  have hcomplete : ∀ t ∈ [cat, stage, dog], Complete Sample.assets t := by
    simp [hcat, stage, dog, Sample.complete_target]
  obtain ⟨hread, -, hentities⟩ :=
    project_follows_targets (Sample.file [cat, stage, dog]) Sample.assets
  obtain ⟨p, hp⟩ := hread.2 ⟨_, rfl, hcomplete⟩
  obtain ⟨-, herror, -⟩ := project_follows_targets (Sample.file [cat, hatter, .null]) Sample.assets
  refine ⟨⟨p, hp, hentities p _ hp rfl⟩, (herror _).2 (.inr ⟨[cat], hatter, [.null], rfl, ?_, ?_⟩)⟩
  · exact List.forall_mem_singleton.2 hcat
  · have hcostumes : items hatter "costumes" = [Sample.cap] ++ Sample.hat :: [] := rfl
    exact .badDrawing rfl rfl rfl hcostumes hcap Sample.badDrawing_hat

end Project

end SpriteStage
