import SpriteStage.Json.Record

/-!
What decoding gives back.

For the encoders of numbers, lists, dictionaries and optional values, the decoder gives back what
was encoded if it does so for the parts. A decoder of a record takes its fields one after the other
(`build`).
-/

namespace SpriteStage

namespace Dict

variable {α : Type}

theorem get?_foldl_insert {l : List (String × α)} (h : l.Pairwise fun a b => a.1 < b.1) (d : Dict α)
    (key : String) :
    (l.foldl (fun d p => d.insert p.1 p.2) d).get? key = (lookupIn key l).or (d.get? key) := by
  induction l generalizing d with
  | nil => rfl
  | cons p rest ih =>
    obtain ⟨hfirst, hrest⟩ := List.pairwise_cons.1 h
    rw [List.foldl_cons, ih hrest, get?_insert, lookupIn]
    by_cases hkey : p.1 = key
    · have hnone : lookupIn key rest = none := lookupIn_eq_none (hkey ▸ hfirst)
      simp [hkey, hnone]
    · simp [hkey]

theorem ofList_entries (d : Dict α) : ofList d.entries = d := by
  refine ext_get? fun key => ?_
  rw [ofList, get?_foldl_insert d.sorted, get?_empty, Option.or_none]
  rfl

theorem lookupIn_append (key : String) (l rest : List (String × α)) :
    lookupIn key (l ++ rest) = (lookupIn key l).or (lookupIn key rest) := by
  induction l with
  | nil => rfl
  | cons p l ih =>
    rw [List.cons_append, lookupIn, lookupIn, ih]
    split <;> rfl

end Dict

namespace Json

variable {α : Type} {encode : α → Json} {decode : Json → Option α}

/-! ### Values -/

@[simp]
theorem str?_str (s : String) : (Json.str s).str? = some s := rfl

@[simp]
theorem bool?_bool (b : Bool) : (Json.bool b).bool? = some b := rfl

@[simp]
theorem nat?_nat (n : Nat) : (nat n).nat? = some n := rfl

theorem num_of_isFinite {x : Float} (h : x.isFinite = true) : num x = .float x :=
  if_pos h

@[simp]
theorem float?_num {x : Float} (h : x.isFinite = true) : (num x).float? = some x := by
  rw [num_of_isFinite h, float?]

/-- Are both numbers of a pair finite? -/
def isFinitePair (p : Float × Float) : Bool :=
  p.1.isFinite && p.2.isFinite

theorem pair?_pair {p : Float × Float} (h : isFinitePair p = true) : (pair p).pair? = some p := by
  rw [isFinitePair, Bool.and_eq_true] at h
  rw [pair, pair?, float?_num h.1, float?_num h.2]
  rfl

theorem mapM_map {β : Type} {f : α → β} {g : β → Option α} {l : List α}
    (h : ∀ a ∈ l, g (f a) = some a) : (l.map f).mapM g = some l := by
  induction l with
  | nil => rfl
  | cons a rest ih =>
    have hrest := ih fun b hb => h b (List.mem_cons_of_mem a hb)
    rw [List.map_cons, List.mapM_cons, h a List.mem_cons_self, hrest]
    rfl

theorem list?_list {l : List α} (h : ∀ a ∈ l, decode (encode a) = some a) :
    list? decode (list encode l) = some l :=
  mapM_map h

theorem dict?_dict {d : Dict α} (h : ∀ a ∈ d.values, decode (encode a) = some a) :
    dict? decode (dict encode d) = some d := by
  have hentries : (d.entries.map fun p => (p.1, encode p.2)).mapM
      (fun p => (decode p.2).map fun value => (p.1, value)) = some d.entries := by
    refine mapM_map fun p hp => ?_
    rw [h p.2 (List.mem_map_of_mem hp)]
    rfl
  rw [dict, dict?, hentries, Option.map_some, Dict.ofList_entries]

/-! ### Optional values -/

/-- A value is not taken for an absent one, since null does not decode. -/
theorem option?_option {v : Option α} (hnull : decode .null = none)
    (h : ∀ a ∈ v, decode (encode a) = some a) : option? decode (option encode v) = some v := by
  cases v with
  | none => rfl
  | some a =>
    have hvalue := h a rfl
    have hne : encode a ≠ .null := fun he => by simp [he, hnull] at hvalue
    rw [option, option?.eq_2 _ _ hne, hvalue]
    rfl

namespace Fields

variable {fields : Fields} {name : String} {v : Option α}

theorem getOption_option (hfind : fields.find? name = some (option encode v))
    (hnull : decode .null = none) (h : ∀ a ∈ v, decode (encode a) = some a) :
    fields.getOption name decode = some v := by
  refine Eq.trans ?_ (option?_option hnull h)
  unfold getOption
  rw [hfind]
  cases option encode v <;> rfl

/-- An absent value may be left out or written as null. -/
theorem getOptionD_option (hfind : (fields.find? name).getD .null = option encode v)
    (hnull : decode .null = none) (h : ∀ a ∈ v, decode (encode a) = some a) :
    fields.getOptionD name decode = some v := by
  refine Eq.trans ?_ (option?_option hnull h)
  rw [getOptionD, ← hfind]
  cases fields.find? name with
  | none => rfl
  | some j => cases j <;> rfl

end Fields

/-! ### Records -/

/-- A decoder comes down to decoding the fields of a record one after the other and building the
value from them. -/
theorem build {β : Type} {p : Option α} {f : α → Option β} {a : α} {b : β} (hp : p = some a)
    (hf : f a = some b) : p.bind f = some b :=
  Option.bind_eq_some_iff.2 ⟨a, hp, hf⟩

end Json

end SpriteStage
