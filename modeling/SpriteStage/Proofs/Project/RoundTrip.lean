import SpriteStage.Project.Document
import SpriteStage.Proofs.Json.Record

/-!
Projects survive being written as JSON.

What describes an entity, its blocks and a whole project is given back by its decoder, if the
numbers in it are finite.
-/

namespace SpriteStage

open Json

/-! ### Descriptions of entities -/

@[simp]
theorem EntityKind.ofName?_name (k : EntityKind) : ofName? k.name = some k := by
  cases k <;> rfl

namespace Costume

def isFinite (c : Costume) : Bool :=
  c.width.isFinite && c.height.isFinite && isFinitePair c.rotationCenter

theorem ofJson?_toJson {c : Costume} (h : c.isFinite = true) : ofJson? c.toJson = some c := by
  simp only [isFinite, Bool.and_eq_true] at h
  obtain ⟨⟨hwidth, hheight⟩, hcenter⟩ := h
  exact build (float?_num hwidth) (build (float?_num hheight) (build (pair?_pair hcenter) rfl))

end Costume

theorem Sound.ofJson?_toJson {s : Sound} (h : s.durationSecs.isFinite = true) :
    ofJson? s.toJson = some s :=
  build (float?_num h) rfl

namespace Variable

def isFinite (v : Variable) : Bool :=
  v.value.isFinite && v.displayPosition.all isFinitePair

theorem ofJson?_toJson {v : Variable} (h : v.isFinite = true) : ofJson? v.toJson = some v := by
  simp only [isFinite, Bool.and_eq_true, Option.all_eq_true] at h
  refine build (Value.ofJson?_toJson h.1) (build rfl (build ?_ rfl))
  exact Fields.getOption_option rfl rfl fun p hp => pair?_pair (h.2 p hp)

end Variable

namespace EntitySpec

def isFinite (s : EntitySpec) : Bool :=
  s.x.isFinite && s.y.isFinite && s.direction.isFinite && s.size.isFinite &&
    s.costumes.all Costume.isFinite && s.sounds.all (·.durationSecs.isFinite) &&
    s.vars.values.all Variable.isFinite

theorem read_toJson {s : EntitySpec} (standing : Standing) (h : s.isFinite = true) :
    read standing s.toJson = some s := by
  simp only [isFinite, Bool.and_eq_true, List.all_eq_true] at h
  obtain ⟨⟨⟨⟨⟨⟨hx, hy⟩, hdirection⟩, hsize⟩, hcostumes⟩, hsounds⟩, hvars⟩ := h
  refine build s.kind.ofName?_name (build (float?_num hx) (build (float?_num hy) (build
    (float?_num hdirection) (build (float?_num hsize) (build rfl (build rfl (build ?_ (build ?_
    (build ?_ rfl)))))))))
  · exact list?_list fun c hc => Costume.ofJson?_toJson (hcostumes c hc)
  · exact list?_list fun sound hs => Sound.ofJson?_toJson (hsounds sound hs)
  · exact dict?_dict fun v hv => Variable.ofJson?_toJson (hvars v hv)

end EntitySpec

/-! ### Blocks -/

namespace BlockKind

theorem mem_all (k : BlockKind) : k ∈ unknown :: all := by
  cases k <;> decide

@[simp]
theorem ofName?_name (k : BlockKind) : ofName? k.name = some k := by
  have hnames : ∀ k ∈ unknown :: all, ofName? k.name = some k := by decide +kernel
  exact hnames k k.mem_all

end BlockKind

namespace Block

def isFinite (b : Block) : Bool :=
  b.fields.values.all Value.isFinite && b.x.isFinite && b.y.isFinite

theorem ofJson?_toJson {b : Block} (h : b.isFinite = true) : ofJson? b.toJson = some b := by
  simp only [isFinite, Bool.and_eq_true, List.all_eq_true] at h
  obtain ⟨⟨hfields, hx⟩, hy⟩ := h
  refine build b.kind.ofName?_name (build ?_ (build ?_ (build ?_ (build ?_ (build rfl (build
    (float?_num hx) (build (float?_num hy) rfl)))))))
  · exact dict?_dict fun v hv => Value.ofJson?_toJson (hfields v hv)
  · exact dict?_dict fun _ _ => option?_option rfl fun s _ => str?_str s
  · exact dict?_dict fun _ _ => option?_option rfl fun s _ => str?_str s
  · exact Fields.getOptionD_option rfl rfl fun s _ => str?_str s

end Block

namespace BlockTree

def isFinite (t : BlockTree) : Bool :=
  t.blocks.values.all Block.isFinite

theorem ofJson?_toJson {t : BlockTree} (h : t.isFinite = true) : ofJson? t.toJson = some t := by
  refine build (dict?_dict fun b hb => ?_) rfl
  exact Block.ofJson?_toJson (List.all_eq_true.1 h b hb)

end BlockTree

/-! ### Projects -/

namespace CostumeDoc

def isFinite (c : CostumeDoc) : Bool :=
  c.width.isFinite && c.height.isFinite && c.centerX.isFinite && c.centerY.isFinite

theorem ofJson?_toJson {c : CostumeDoc} (h : c.isFinite = true) : ofJson? c.toJson = some c := by
  simp only [isFinite, Bool.and_eq_true] at h
  obtain ⟨⟨⟨hwidth, hheight⟩, hx⟩, hy⟩ := h
  exact build (float?_num hwidth) (build (float?_num hheight) (build (float?_num hx) (build
    (float?_num hy) rfl)))

end CostumeDoc

theorem SoundDoc.ofJson?_toJson (s : SoundDoc) : ofJson? s.toJson = some s := rfl

namespace VariableDoc

def isFinite (v : VariableDoc) : Bool :=
  v.variable.isFinite

theorem ofJson?_toJson {v : VariableDoc} (h : v.isFinite = true) : ofJson? v.toJson = some v := by
  simp only [isFinite, Variable.isFinite, Bool.and_eq_true, Option.all_eq_true] at h
  refine build (Value.ofJson?_toJson h.1) (build rfl (build ?_ rfl))
  exact Fields.getOption_option rfl rfl fun p hp => pair?_pair (h.2 p hp)

end VariableDoc

namespace EntityDoc

def isFinite (e : EntityDoc) : Bool :=
  e.x.isFinite && e.y.isFinite && e.direction.isFinite && e.size.isFinite &&
    e.costumes.all CostumeDoc.isFinite && e.vars.all VariableDoc.isFinite && e.blocks.isFinite

theorem ofJson?_toJson {e : EntityDoc} (h : e.isFinite = true) : ofJson? e.toJson = some e := by
  simp only [isFinite, Bool.and_eq_true, List.all_eq_true] at h
  obtain ⟨⟨⟨⟨⟨⟨hx, hy⟩, hdirection⟩, hsize⟩, hcostumes⟩, hvars⟩, hblocks⟩ := h
  refine build e.kind.ofName?_name (build (float?_num hx) (build (float?_num hy) (build
    (float?_num hdirection) (build (float?_num hsize) (build rfl (build rfl (build ?_ (build ?_
    (build ?_ (build (BlockTree.ofJson?_toJson hblocks) rfl))))))))))
  · exact list?_list fun c hc => CostumeDoc.ofJson?_toJson (hcostumes c hc)
  · exact list?_list fun sound _ => sound.ofJson?_toJson
  · exact list?_list fun v hv => VariableDoc.ofJson?_toJson (hvars v hv)

end EntityDoc

namespace Project

def isFinite (p : Project) : Bool :=
  p.entities.all EntityDoc.isFinite

theorem ofJson?_toJson {p : Project} (h : p.isFinite = true) : ofJson? p.toJson = some p := by
  refine build (list?_list fun e he => ?_) rfl
  exact EntityDoc.ofJson?_toJson (List.all_eq_true.1 h e he)

end Project

end SpriteStage
