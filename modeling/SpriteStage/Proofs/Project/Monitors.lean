import SpriteStage.Proofs.Project.Targets

/-!
Monitors. A monitor of the file says whether and where a variable is shown, and the last one that
speaks of a variable counts.

Each monitor goes to the first variable of its name, while the description of an entity keeps the
last variable of a name. So what a monitor says reaches the stage if the entity has one variable of
the name; if it has several, the one that is kept is never shown.
-/

namespace SpriteStage

namespace Dict

variable {α : Type}

/-- Of the entries with a key, the last counts. -/
theorem get?_ofList (l : List (String × α)) (key : String) :
    (ofList l).get? key = (l.filter (·.1 = key)).getLast?.map (·.2) := by
  have hfold : ∀ d : Dict α, (l.foldl (fun d p => d.insert p.1 p.2) d).get? key =
      ((l.filter (·.1 = key)).getLast?.map (·.2)).or (d.get? key) := by
    induction l with
    | nil => exact fun _ => rfl
    | cons p rest ih =>
      intro d
      rw [List.foldl_cons, ih, get?_insert, List.filter_cons]
      by_cases hkey : p.1 = key
      · cases hrest : rest.filter (·.1 = key) <;> simp [hkey, List.getLast?_cons]
      · simp [hkey]
  rw [ofList, hfold, get?_empty, Option.or_none]

end Dict

theorem EntityDoc.get?_spec (e : EntityDoc) (name : String) :
    e.spec.vars.get? name = (e.vars.filter (·.name = name)).getLast?.map VariableDoc.variable := by
  show (Dict.ofList (e.vars.map fun v => (v.name, v.variable))).get? name = _
  rw [Dict.get?_ofList, List.filter_map, List.getLast?_map, Option.map_map]
  rfl

namespace Project

/-- Whether a variable is shown, and where. -/
abbrev Display := Bool × Option (Float × Float)

def Monitor.display (m : Monitor) : Display :=
  (m.visible, m.position)

/-- The variable shown in this way. -/
def displayed (display : Display) (v : VariableDoc) : VariableDoc :=
  { v with visible := display.1, displayPosition := display.2 }

/-! ### Monitors of the file -/

/-- The monitor speaks of the entity's variable with this name. -/
def Addresses (e : EntityDoc) (name : String) (monitor : Json) : Prop :=
  text? monitor "opcode" = some "data_variable" ∧
    (monitor.field? "params").bind (text? · "VARIABLE") = some name ∧
    (text? monitor "spriteName" = some e.name ∨
      text? monitor "spriteName" = none ∧ e.kind = .background)

instance (e : EntityDoc) (name : String) : DecidablePred (Addresses e name) := fun _ =>
  inferInstanceAs (Decidable (_ ∧ _))

/-- What a monitor says of its variable. -/
def displayOf (monitor : Json) : Display :=
  ((bool? monitor "visible").getD false,
    match number? monitor "x", number? monitor "y" with
    | some x, some y => some (x, y)
    | _, _ => none)

/-- What the last monitor of the file that speaks of a variable says; without one it is hidden. -/
def lastDisplay (file : Json) (e : EntityDoc) (name : String) : Display :=
  (((items file "monitors").filter (Addresses e name ·)).map displayOf).getLast?.getD (false, none)

theorem owns_iff {m : Monitor} {e : EntityDoc} :
    m.owns e = true ↔ m.owner = some e.name ∨ m.owner = none ∧ e.kind = .background := by
  unfold Monitor.owns
  cases m.owner with
  | none => simp [isBackground]
  | some sprite => simp [eq_comm (a := sprite)]

theorem monitor?_cases (e : EntityDoc) (name : String) (j : Json) :
    (∃ m, monitor? j = some m ∧ (m.name = name ∧ m.owns e = true ↔ Addresses e name j) ∧
      m.display = displayOf j) ∨
    monitor? j = none ∧ ¬ Addresses e name j := by
  by_cases hopcode : text? j "opcode" = some "data_variable"
  · cases hname : (j.field? "params").bind (text? · "VARIABLE") with
    | none => exact .inr ⟨by simp [monitor?, hopcode, hname], by simp [Addresses, hname]⟩
    | some given =>
      refine .inl ⟨⟨text? j "spriteName", given, (displayOf j).1, (displayOf j).2⟩, ?_, ?_, rfl⟩
      · simp [monitor?, hopcode, hname]
        exact ⟨rfl, rfl⟩
      · simp [Addresses, owns_iff, hopcode, hname]
  · exact .inr ⟨by simp [monitor?, hopcode], by simp [Addresses, hopcode]⟩

/-- The monitors that count for a variable are those of the file that speak of it. -/
theorem map_display_monitors (l : List Json) (e : EntityDoc) (name : String) :
    (((l.filterMap monitor?).filter (·.owns e)).filter (·.name = name)).map Monitor.display =
      (l.filter (Addresses e name ·)).map displayOf := by
  induction l with
  | nil => rfl
  | cons j rest ih =>
    rw [List.filter_filter] at ih ⊢
    rcases monitor?_cases e name j with ⟨m, hm, haddresses, hdisplay⟩ | ⟨hm, haddresses⟩
    · rw [List.filterMap_cons_some hm, List.filter_cons, List.filter_cons]
      by_cases h : Addresses e name j
      · have hboth := haddresses.2 h
        simp [h, hboth, ih, hdisplay]
      · have hboth := mt haddresses.1 h
        simp only [Bool.and_eq_true, decide_eq_true_eq, hboth, h, if_false, ih]
    · rw [List.filterMap_cons_none hm, List.filter_cons_of_neg (by simp [haddresses]), ih]

/-! ### Variables of one name -/

theorem filter_applyTo (m : Monitor) (vars : List VariableDoc) (name : String) :
    (m.applyTo vars).filter (·.name = name) =
      if m.name = name then (vars.filter (·.name = name)).modifyHead (displayed m.display)
      else vars.filter (·.name = name) := by
  induction vars with
  | nil => simp [Monitor.applyTo]
  | cons v rest ih =>
    rw [Monitor.applyTo]
    by_cases hv : v.name = m.name
    · by_cases hm : m.name = name <;> simp [hv, hm, displayed, Monitor.display]
    · rw [if_neg hv, List.filter_cons, ih]
      by_cases hname : v.name = name
      · have hm : m.name ≠ name := fun h => hv (hname.trans h.symm)
        simp [hname, hm]
      · simp [hname]

-- A monitor takes back all that those before it said.
theorem filter_foldl_applyTo (monitors : List Monitor) (vars : List VariableDoc) (name : String) :
    (monitors.foldl (fun vars m => m.applyTo vars) vars).filter (·.name = name) =
      ((monitors.filter (·.name = name)).map Monitor.display).getLast?.elim
        (vars.filter (·.name = name))
        fun display => (vars.filter (·.name = name)).modifyHead (displayed display) := by
  induction monitors generalizing vars with
  | nil => rfl
  | cons m rest ih =>
    rw [List.foldl_cons, ih, filter_applyTo, List.filter_cons]
    by_cases hm : m.name = name
    · cases hrest : rest.filter (·.name = name) with
      | nil => simp [hm]
      | cons m' rest' =>
        cases vars.filter (·.name = name) <;> simp [hm, List.getLast?_cons, displayed]
    · simp [hm]

theorem filter_shownBy (file : Json) {d : EntityDoc} (h : ∀ v ∈ d.vars, hidden v = v)
    (name : String) :
    (shownBy ((items file "monitors").filterMap monitor?) d).vars.filter (·.name = name) =
      (d.vars.filter (·.name = name)).modifyHead (displayed (lastDisplay file d name)) := by
  have hhidden : (d.vars.filter (·.name = name)).modifyHead (displayed (false, none)) =
      d.vars.filter (·.name = name) := by
    cases hvars : d.vars.filter (·.name = name) with
    | nil => rfl
    | cons v rest =>
      have hv : v ∈ d.vars.filter (·.name = name) := hvars ▸ List.mem_cons_self
      exact congrArg (· :: rest) (h v (List.mem_of_mem_filter hv))
  rw [shownBy, filter_foldl_applyTo, map_display_monitors, lastDisplay]
  cases ((items file "monitors").filter (Addresses d name ·)).map displayOf |>.getLast? with
  | none => exact hhidden.symm
  | some display => rfl

theorem exists_shownBy {file : Json} {assets : Assets} {p : Project} {e : EntityDoc}
    (h : read file assets = .ok p) (he : e ∈ p.entities) :
    ∃ d, e = shownBy ((items file "monitors").filterMap monitor?) d ∧
      ∀ v ∈ d.vars, hidden v = v := by
  obtain ⟨targets, docs, -, hdocs, hentities⟩ := exists_docs h
  have hvars : ∀ d ∈ docs, ∀ v ∈ d.vars, hidden v = v := by
    clear hentities
    induction hdocs with
    | nil => nofun
    | cons ht _ ih =>
      refine List.forall_mem_cons.2 ⟨fun v hv => ?_, ih⟩
      rw [(readAs_of_entity ht).vars] at hv
      exact hidden_of_mem_vars hv
  rw [hentities] at he
  obtain ⟨d, hd, rfl⟩ := List.mem_map.1 he
  refine ⟨d, rfl, hvars d ?_⟩
  rcases List.mem_append.1 hd with hd | hd <;> exact List.mem_of_mem_filter hd

/-- A variable of an entity is shown in the world as the last monitor of the file that speaks of it
says, and hidden if none does, provided that the entity has no other variable of its name. If it has
others, the variable that the world gets is hidden, whatever the monitors say. -/
theorem monitors_reach_world {file : Json} {assets : Assets} {p : Project} {e : EntityDoc}
    {name : String} (h : read file assets = .ok p) (he : e ∈ p.entities)
    (hname : name ∈ e.vars.map (·.name)) :
    ∃ v, e.spec.vars.get? name = some v ∧
      (v.visible, v.displayPosition) =
        if (e.vars.filter (·.name = name)).length = 1 then lastDisplay file e name
        else (false, none) := by
  obtain ⟨d, rfl, hhidden⟩ := exists_shownBy h he
  have hsome : (shownBy ((items file "monitors").filterMap monitor?) d).vars.filter
      (·.name = name) ≠ [] := by
    obtain ⟨v, hv, hvname⟩ := List.mem_map.1 hname
    exact List.ne_nil_of_mem (List.mem_filter.2 ⟨hv, decide_eq_true hvname⟩)
  have hvars : ∀ v ∈ d.vars.filter (·.name = name), hidden v = v := fun v hv =>
    hhidden v (List.mem_of_mem_filter hv)
  rw [EntityDoc.get?_spec, filter_shownBy file hhidden]
  rw [filter_shownBy file hhidden] at hsome
  generalize d.vars.filter (·.name = name) = vars at hsome hvars ⊢
  match vars with
  | [] => exact absurd rfl hsome
  | [v] => exact ⟨_, rfl, rfl⟩
  | v :: w :: rest =>
    -- what was said of the first of them is lost with it
    obtain ⟨u, hu⟩ : ∃ u, (w :: rest).getLast? = some u :=
      ⟨_, List.getLast?_eq_some_getLast (List.cons_ne_nil w rest)⟩
    have hkept : hidden u = u := hvars u (.tail v (List.mem_of_getLast? hu))
    refine ⟨u.variable, ?_, ?_⟩
    · rw [List.modifyHead_cons, List.getLast?_cons_cons, hu]
      rfl
    · rw [← hkept]
      rfl

namespace Sample

def monitor (name : String) (visible : Bool) : Json :=
  .obj [("opcode", .str "data_variable"), ("params", .obj [("VARIABLE", .str name)]),
    ("spriteName", .str "Cat"), ("visible", .bool visible), ("x", .int 5), ("y", .int 6)]

/-- A cat with the variables, and monitors that hide its lives first and show them then. -/
def watched (vars : List (String × Json)) : Json :=
  .obj [("monitors", .arr [monitor "lives" false, monitor "lives" true]),
    ("targets", .arr [.obj [("blocks", .obj []), ("isStage", .bool false), ("name", .str "Cat"),
      ("variables", .obj vars)]])]

def one : List (String × Json) :=
  [("v1", .arr [.str "lives", .int 3])]

def two : List (String × Json) :=
  [("v1", .arr [.str "lives", .int 3]), ("v2", .arr [.str "lives", .int 5])]

end Sample

theorem monitors_reach_world_sample :
    ∃ p e, read (Sample.watched Sample.one) .empty = .ok p ∧ e ∈ p.entities ∧
      ∃ v, e.spec.vars.get? "lives" = some v ∧ (v.visible, v.displayPosition) = (true, some (5, 6)) := by
  refine ⟨_, _, rfl, .head _, ?_⟩
  obtain ⟨v, hv, hdisplay⟩ :=
    @monitors_reach_world (Sample.watched Sample.one) .empty _ _ "lives" rfl (.head _) (.head _)
  exact ⟨v, hv, hdisplay.trans (by decide +kernel)⟩

/-- Of two variables with one name the world gets the second, which no monitor shows. -/
theorem second_variable_stays_hidden :
    ∃ p e v, read (Sample.watched Sample.two) .empty = .ok p ∧ e ∈ p.entities ∧
      "lives" ∈ e.vars.map (·.name) ∧ e.spec.vars.get? "lives" = some v ∧
      lastDisplay (Sample.watched Sample.two) e "lives" = (true, some (5, 6)) ∧
      (v.visible, v.displayPosition) = (false, none) := by
  refine ⟨_, _, _, rfl, .head _, .head _, rfl, ?_, rfl⟩
  rfl

end Project

end SpriteStage
