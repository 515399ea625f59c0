import Mathlib.Data.List.Forall2
import Mathlib.Data.List.Perm.Subperm
import PushDispatch.Proofs.Condition.Booleans

/-! The equality asked of a leaf is an equivalence as long as no number is undefined. Booleans stand
for themselves at the leaf and for numbers inside containers, integers and doubles are compared
exactly, mappings in any order; all of it fits together. So of two equal values it does not matter
which one a rule expects. -/
namespace PushDispatch

namespace Value

/-- Values without undefined numbers: null, booleans, numbers, texts, lists and tuples of such, and
mappings from distinct names to such. -/
inductive IsDefinite : Value → Prop where
  | null : IsDefinite .null
  | bool (b : Bool) : IsDefinite (.bool b)
  | int (n : Int) : IsDefinite (.int n)
  | float {d : Double} (defined : d.isNaN = false) : IsDefinite (.float d)
  | str (s : String) : IsDefinite (.str s)
  | list {items : List Value} (each : ∀ v ∈ items, IsDefinite v) : IsDefinite (.list items)
  | tuple {items : List Value} (each : ∀ v ∈ items, IsDefinite v) : IsDefinite (.tuple items)
  | fields {fields : List (String × Value)} (distinct : (fields.map (·.1)).Nodup)
      (each : ∀ f ∈ fields, IsDefinite f.2) : IsDefinite (.ofFields fields)

section

variable {R : Value → Value → Prop}

private theorem forall₂_symm {as bs : List Value} (h : List.Forall₂ R as bs)
    (back : ∀ a ∈ as, ∀ b ∈ bs, R a b → R b a) : List.Forall₂ R bs as := by
  obtain ⟨length, each⟩ := List.forall₂_iff_get.1 h
  refine List.forall₂_iff_get.2 ⟨length.symm, fun i hi hi' => ?_⟩
  exact back _ (List.get_mem _ _) _ (List.get_mem _ _) (each i hi' hi)

private theorem forall₂_trans {as bs cs : List Value} (h : List.Forall₂ R as bs)
    (h' : List.Forall₂ R bs cs) (along : ∀ b ∈ bs, ∀ a c, R a b → R b c → R a c) :
    List.Forall₂ R as cs := by
  obtain ⟨length, each⟩ := List.forall₂_iff_get.1 h
  obtain ⟨length', each'⟩ := List.forall₂_iff_get.1 h'
  refine List.forall₂_iff_get.2 ⟨length.trans length', fun i hi hi'' => ?_⟩
  have hi' : i < bs.length := length ▸ hi
  exact along _ (List.get_mem bs ⟨i, hi'⟩) _ _ (each i hi hi') (each' i hi' hi'')

private theorem rel_symm {x y : Option Value} (h : Option.Rel R x y)
    (back : ∀ v ∈ x, ∀ w ∈ y, R v w → R w v) : Option.Rel R y x := by
  cases h with
  | none => exact .none
  | some related => exact .some (back _ rfl _ rfl related)

end

@[simp] theorem field?_ofFields (fields : List (String × Value)) (name : String) :
    Entries.field? (Entries.ofFields fields) name = fields.lookup name := by
  induction fields with
  | nil => rfl
  | cons f rest ih =>
    obtain ⟨other, v⟩ := f
    rw [List.lookup_cons, ← ih]
    show (if (Key.str other).same (.str name) then some v else _) = _
    rw [Key.same, Bool.beq_comm]
    cases name == other <;> rfl

private theorem exists_mem_of_lookup?_ofFields {fields : List (String × Value)} {k : Key}
    {v : Value}
    (found : Entries.lookup? (Entries.ofFields fields) k = some v) :
    ∃ name, k = .str name ∧ (name, v) ∈ fields := by
  rw [Entries.lookup?_eq] at found
  obtain ⟨entry, here, rfl⟩ := Option.map_eq_some_iff.1 found
  obtain ⟨f, mem, rfl⟩ := List.mem_map.1 (List.mem_of_find?_eq_some here)
  have same := List.find?_some here
  exact ⟨f.1, Key.same_str_iff.1 same, mem⟩

private theorem mem_of_lookup {fields : List (String × Value)} {name : String} {v : Value}
    (found : fields.lookup name = some v) : (name, v) ∈ fields := by
  obtain ⟨before, after, rfl, -⟩ := List.lookup_eq_some_iff.1 found
  exact List.mem_append_right before List.mem_cons_self

private theorem lookup_of_mem {fields : List (String × Value)} (distinct : (fields.map (·.1)).Nodup)
    {name : String} {v : Value} (mem : (name, v) ∈ fields) : fields.lookup name = some v := by
  obtain ⟨before, after, rfl⟩ := List.append_of_mem mem
  rw [List.map_append, List.nodup_append] at distinct
  refine List.lookup_eq_some_iff.2 ⟨before, after, rfl, fun f earlier => ?_⟩
  rw [bne_iff_ne]
  exact (distinct.2.2 f.1 (List.mem_map_of_mem earlier) name (by simp)).symm

theorem sameItems_iff {as bs : List Value} :
    sameItems as bs ↔ List.Forall₂ (fun a b => a.same b) as bs := by
  induction as generalizing bs with
  | nil => cases bs <;> simp [sameItems]
  | cons a as ih => cases bs <;> simp [sameItems, ih]

theorem within_ofFields_iff {fields : List (String × Value)} {bs : Entries} :
    within (Entries.ofFields fields) bs ↔
      ∀ f ∈ fields, ∃ w, Entries.field? bs f.1 = some w ∧ f.2.same w := by
  induction fields with
  | nil => simp [Entries.ofFields, within]
  | cons f rest ih =>
    have fields : Entries.ofFields (f :: rest) = (.str f.1, f.2) :: Entries.ofFields rest := rfl
    rw [fields, within, Bool.and_eq_true, ih, List.forall_mem_cons, Entries.field?]
    refine and_congr_left fun _ => ?_
    cases Entries.lookup? bs (.str f.1) <;> simp

theorem mem_names_iff {fields : List (String × Value)} {name : String} :
    name ∈ fields.map (·.1) ↔ (fields.lookup name).isSome := by
  rw [List.lookup_isSome_iff, List.mem_map]
  refine exists_congr fun f => and_congr_right fun _ => ?_
  rw [beq_iff_eq, eq_comm]

private theorem mem_of_length_eq {names others : List String} (distinct : names.Nodup)
    (among : names ⊆ others) (length : names.length = others.length) {name : String}
    (mem : name ∈ others) : name ∈ names := by
  have perm := (distinct.subperm among).perm_of_length_le (Nat.le_of_eq length.symm)
  exact perm.mem_iff.2 mem

section Mapping

variable {fs gs : List (String × Value)}

private theorem rel_lookup_of_within (distinct : (fs.map (·.1)).Nodup)
    (length : (fs.map (·.1)).length = (gs.map (·.1)).length)
    (each : ∀ f ∈ fs, ∃ w, gs.lookup f.1 = some w ∧ f.2.same w) (name : String) :
    Option.Rel (fun v w => v.same w) (fs.lookup name) (gs.lookup name) := by
  have among : fs.map (·.1) ⊆ gs.map (·.1) := by
    intro name mem
    obtain ⟨f, here, rfl⟩ := List.mem_map.1 mem
    obtain ⟨w, found, -⟩ := each f here
    rw [mem_names_iff, found]
    rfl
  cases found : fs.lookup name with
  | some v =>
    obtain ⟨w, found', same⟩ := each _ (mem_of_lookup found)
    rw [found']
    exact .some same
  | none =>
    -- there are as many names on either side, so a name that is not here is not there
    have absent : name ∉ gs.map (·.1) := by
      intro mem
      have here := mem_of_length_eq distinct among length mem
      rw [mem_names_iff, found] at here
      cases here
    rw [mem_names_iff, Option.not_isSome_iff_eq_none] at absent
    rw [absent]
    exact .none

private theorem length_names_eq_of_rel (distinct : (fs.map (·.1)).Nodup)
    (distinct' : (gs.map (·.1)).Nodup)
    (rel : ∀ name, Option.Rel (fun v w => v.same w) (fs.lookup name) (gs.lookup name)) :
    (fs.map (·.1)).length = (gs.map (·.1)).length := by
  have perm : (fs.map (·.1)).Perm (gs.map (·.1)) := by
    refine (List.perm_ext_iff_of_nodup distinct distinct').2 fun name => ?_
    have both := rel name
    rw [mem_names_iff, mem_names_iff]
    generalize fs.lookup name = x, gs.lookup name = y at both
    cases both <;> simp
  exact perm.length_eq

theorem same_ofFields_iff (distinct : (fs.map (·.1)).Nodup)
    (distinct' : (gs.map (·.1)).Nodup) :
    (ofFields fs).same (ofFields gs) ↔
      ∀ name, Option.Rel (fun v w => v.same w) (fs.lookup name) (gs.lookup name) := by
  have counted (fields : List (String × Value)) :
      (Entries.ofFields fields).length = (fields.map (·.1)).length := by
    simp [Entries.ofFields]
  show ((Entries.ofFields fs).length == (Entries.ofFields gs).length &&
    within (Entries.ofFields fs) (Entries.ofFields gs)) = true ↔ _
  rw [Bool.and_eq_true, beq_iff_eq, within_ofFields_iff, counted, counted]
  simp only [field?_ofFields]
  constructor
  · rintro ⟨length, each⟩
    exact rel_lookup_of_within distinct length each
  · intro rel
    refine ⟨length_names_eq_of_rel distinct distinct' rel, fun f here => ?_⟩
    have both := rel f.1
    rw [lookup_of_mem distinct here] at both
    generalize gs.lookup f.1 = found at both ⊢
    cases both with
    | some same => exact ⟨_, rfl, same⟩

end Mapping

variable {a b c v : Value}

@[simp] theorem same_null_iff : Value.null.same b ↔ b = .null := by
  cases b <;> simp [same, sameNumber, extent?]

@[simp] theorem same_str_iff {s : String} : (Value.str s).same b ↔ b = .str s := by
  cases b with
  | str t => rw [same, beq_iff_eq, Value.str.injEq, eq_comm]
  | _ => simp [same, sameNumber, extent?]

theorem same_number_iff {x : Double.Extent} (number : a.extent? = some x) :
    a.same b ↔ ∃ y, b.extent? = some y ∧ x.same y := by
  cases a with
  | bool | int | float =>
    cases number
    cases b <;> simp [same, sameNumber, extent?]
  | _ => cases number

theorem same_list_iff {as : List Value} :
    (Value.list as).same b ↔ ∃ bs, b = .list bs ∧ List.Forall₂ (fun a b => a.same b) as bs := by
  simp only [← sameItems_iff]
  cases b <;> simp [same, sameNumber, extent?]

theorem same_tuple_iff {as : List Value} :
    (Value.tuple as).same b ↔ ∃ bs, b = .tuple bs ∧ List.Forall₂ (fun a b => a.same b) as bs := by
  simp only [← sameItems_iff]
  cases b <;> simp [same, sameNumber, extent?]

theorem same_mapping_iff {as : Entries} (mapping : a.entries? = some as) :
    a.same b ↔ ∃ bs, b.entries? = some bs ∧ as.length = bs.length ∧ within as bs := by
  cases a with
  | dict | proxy =>
    cases mapping
    cases b <;> simp [same, sameNumber, extent?, entries?]
  | _ => cases mapping

theorem exists_fields_of_same (definite : b.IsDefinite) {fs : List (String × Value)}
    (distinct : (fs.map (·.1)).Nodup) (h : (ofFields fs).same b) :
    ∃ gs, b = .ofFields gs ∧ (gs.map (·.1)).Nodup ∧ (∀ g ∈ gs, g.2.IsDefinite) ∧
      ∀ name, Option.Rel (fun v w => v.same w) (fs.lookup name) (gs.lookup name) := by
  cases definite with
  | fields distinct' each =>
    exact ⟨_, rfl, distinct', each, (same_ofFields_iff distinct distinct').1 h⟩
  | _ => simp [ofFields, same, sameNumber, extent?] at h

theorem IsDefinite.same_self (h : v.IsDefinite) : v.same v := by
  induction h with
  | null => rfl
  | str s => exact same_str_iff.2 rfl
  | bool | int => exact (same_number_iff rfl).2 ⟨_, rfl, Double.Extent.same_iff.2 ⟨rfl, nofun⟩⟩
  | float defined =>
    refine (same_number_iff rfl).2 ⟨_, rfl, Double.Extent.same_iff.2 ⟨rfl, fun undefined => ?_⟩⟩
    simp [Double.isNaN, undefined] at defined
  | list _ ih => exact same_list_iff.2 ⟨_, rfl, List.forall₂_same.2 ih⟩
  | tuple _ ih => exact same_tuple_iff.2 ⟨_, rfl, List.forall₂_same.2 ih⟩
  | @fields fs distinct _ ih =>
    refine (same_ofFields_iff distinct distinct).2 fun name => ?_
    cases found : fs.lookup name with
    | none => exact .none
    | some v => exact .some (ih _ (mem_of_lookup found))

theorem same_symm (ha : a.IsDefinite) (hb : b.IsDefinite) (h : a.same b) : b.same a := by
  induction ha generalizing b with
  | null =>
    obtain rfl := same_null_iff.1 h
    exact h
  | str s =>
    obtain rfl := same_str_iff.1 h
    exact h
  | bool | int | float =>
    obtain ⟨y, number, equal⟩ := (same_number_iff rfl).1 h
    rw [Double.Extent.same_comm] at equal
    exact (same_number_iff number).2 ⟨_, rfl, equal⟩
  | list _ ih =>
    obtain ⟨bs, rfl, each⟩ := same_list_iff.1 h
    cases hb with
    | list definite =>
      exact same_list_iff.2 ⟨_, rfl, forall₂_symm each fun v hv w hw => ih v hv (definite w hw)⟩
  | tuple _ ih =>
    obtain ⟨bs, rfl, each⟩ := same_tuple_iff.1 h
    cases hb with
    | tuple definite =>
      exact same_tuple_iff.2 ⟨_, rfl, forall₂_symm each fun v hv w hw => ih v hv (definite w hw)⟩
  | @fields fs distinct _ ih =>
    obtain ⟨gs, rfl, distinct', definite, rel⟩ := exists_fields_of_same hb distinct h
    refine (same_ofFields_iff distinct' distinct).2 fun name => ?_
    refine rel_symm (rel name) fun v hv w hw => ?_
    exact ih (name, v) (mem_of_lookup hv) (definite (name, w) (mem_of_lookup hw))

/-- What a mapping has under a name of a middle one, another has that covers the middle one. -/
theorem within_trans {as cs : Entries} {fs : List (String × Value)}
    (h : within as (Entries.ofFields fs)) (h' : within (Entries.ofFields fs) cs)
    (along : ∀ f ∈ fs, ∀ u w : Value, u.same f.2 → f.2.same w → u.same w) : within as cs := by
  induction as with
  | nil => rfl
  | cons entry rest ih =>
    obtain ⟨k, u⟩ := entry
    rw [within, Bool.and_eq_true] at h ⊢
    refine ⟨?_, ih h.2⟩
    cases found : Entries.lookup? (Entries.ofFields fs) k with
    | none => simp [found] at h
    | some v =>
      have same : u.same v := by simpa [found] using h.1
      obtain ⟨name, rfl, mem⟩ := exists_mem_of_lookup?_ofFields found
      obtain ⟨w, there, same'⟩ := within_ofFields_iff.1 h' _ mem
      have there : Entries.lookup? cs (.str name) = some w := there
      rw [there]
      exact along _ mem u w same same'

theorem same_trans (hb : b.IsDefinite) (h : a.same b) (h' : b.same c) : a.same c := by
  induction hb generalizing a c with
  | null =>
    obtain rfl := same_null_iff.1 h'
    exact h
  | str s =>
    obtain rfl := same_str_iff.1 h'
    exact h
  | bool | int | float =>
    obtain ⟨z, number, equal'⟩ := (same_number_iff rfl).1 h'
    cases a with
    | bool | int | float =>
      obtain ⟨y, same_number, equal⟩ := (same_number_iff rfl).1 h
      cases same_number
      exact (same_number_iff rfl).2 ⟨z, number, Double.Extent.same_trans equal equal'⟩
    | _ => simp [same, sameNumber, extent?] at h
  | list _ ih =>
    obtain ⟨cs, rfl, each'⟩ := same_list_iff.1 h'
    cases a with
    | list as =>
      obtain ⟨_, ⟨rfl⟩, each⟩ := same_list_iff.1 h
      exact same_list_iff.2 ⟨_, rfl, forall₂_trans each each' fun v mem _ _ => ih v mem⟩
    | _ => simp [same, sameNumber, extent?] at h
  | tuple _ ih =>
    obtain ⟨cs, rfl, each'⟩ := same_tuple_iff.1 h'
    cases a with
    | tuple as =>
      obtain ⟨_, ⟨rfl⟩, each⟩ := same_tuple_iff.1 h
      exact same_tuple_iff.2 ⟨_, rfl, forall₂_trans each each' fun v mem _ _ => ih v mem⟩
    | _ => simp [same, sameNumber, extent?] at h
  | @fields fs _ _ ih =>
    obtain ⟨cs, mapping, length', covers'⟩ := (same_mapping_iff rfl).1 h'
    cases a with
    | dict as | proxy _ as =>
      obtain ⟨_, ⟨rfl⟩, length, covers⟩ := (same_mapping_iff rfl).1 h
      refine (same_mapping_iff rfl).2 ⟨cs, mapping, length.trans length', ?_⟩
      exact within_trans covers covers' fun f mem _ _ => ih f mem
    | _ => simp [ofFields, same, sameNumber, extent?] at h

theorem matchesLeaf_iff : a.matchesLeaf b ↔
    (∃ x, a = .bool x ∧ b = .bool x) ∨
      (∀ x, a ≠ .bool x) ∧ (∀ x, b ≠ .bool x) ∧ a.same b := by
  refine ⟨matchesLeaf_cases, ?_⟩
  have plain {v : Value} (notBool : ∀ x, v ≠ .bool x) : v.isBool = false := by
    cases v with
    | bool x => exact absurd rfl (notBool x)
    | _ => rfl
  rintro (⟨x, rfl, rfl⟩ | ⟨notBool, notBool', same⟩)
  · exact beq_self_eq_true x
  · unfold matchesLeaf
    rw [plain notBool, plain notBool']
    exact same

theorem IsDefinite.matchesLeaf_self (h : v.IsDefinite) : v.matchesLeaf v := by
  by_cases bool : ∃ x, v = .bool x
  · obtain ⟨x, rfl⟩ := bool
    exact matchesLeaf_iff.2 (.inl ⟨x, rfl, rfl⟩)
  · have notBool : ∀ x, v ≠ .bool x := not_exists.1 bool
    exact matchesLeaf_iff.2 (.inr ⟨notBool, notBool, h.same_self⟩)

theorem matchesLeaf_symm (ha : a.IsDefinite) (hb : b.IsDefinite) (h : a.matchesLeaf b) :
    b.matchesLeaf a := by
  rw [matchesLeaf_iff] at h ⊢
  rcases h with ⟨x, first, second⟩ | ⟨notBool, notBool', same⟩
  · exact .inl ⟨x, second, first⟩
  · exact .inr ⟨notBool', notBool, same_symm ha hb same⟩

theorem matchesLeaf_trans (hb : b.IsDefinite) (h : a.matchesLeaf b) (h' : b.matchesLeaf c) :
    a.matchesLeaf c := by
  rw [matchesLeaf_iff] at h
  rcases h with ⟨x, rfl, rfl⟩ | ⟨notBool, notBool', same⟩
  · exact h'
  · rw [matchesLeaf_iff] at h' ⊢
    rcases h' with ⟨x, rfl, -⟩ | ⟨-, notBool'', same'⟩
    · exact absurd rfl (notBool' x)
    · exact .inr ⟨notBool, notBool'', same_trans hb same same'⟩

end Value

namespace Leaf

theorem holds_congr {v w : Value} (hv : v.IsDefinite) (hw : w.IsDefinite)
    (equal : v.matchesLeaf w) (keys : List String) (subject : Value) :
    Leaf.holds ⟨keys, v⟩ subject = Leaf.holds ⟨keys, w⟩ subject := by
  unfold Leaf.holds
  cases subject.reach? keys with
  | none => rfl
  | some actual =>
    rw [Bool.eq_iff_iff]
    constructor
    · intro matched
      exact Value.matchesLeaf_trans hv matched equal
    · intro matched
      exact Value.matchesLeaf_trans hw matched (Value.matchesLeaf_symm hv hw equal)

end Leaf

namespace Rule

/-- Among the values without undefined numbers, what is asked of a leaf is an equivalence. So a rule
accepts the same envelopes when it expects an equal value at one of its leaves. -/
theorem expectation_up_to_equality {η : Type} :
    Equivalence (fun a b : {v : Value // v.IsDefinite} => a.1.matchesLeaf b.1 = true) ∧
    ∀ (index : Int) (before after : List Leaf) (keys : List String) (handler : η) (v w : Value),
      v.IsDefinite → w.IsDefinite → v.matchesLeaf w → ∀ e : Envelope,
      (⟨index, before ++ ⟨keys, v⟩ :: after, handler⟩ : Rule η).accepts e
        = (⟨index, before ++ ⟨keys, w⟩ :: after, handler⟩ : Rule η).accepts e := by
  constructor
  · constructor
    · intro a
      exact a.2.matchesLeaf_self
    · intro a b h
      exact Value.matchesLeaf_symm a.2 b.2 h
    · intro a b c h h'
      exact Value.matchesLeaf_trans b.2 h h'
  · intro index before after keys handler v w hv hw equal e
    simp only [accepts, List.all_append, List.all_cons, Leaf.holds_congr hv hw equal]

theorem expectation_up_to_equality_listed_flag :
    let one := Value.float ⟨0x3FF0000000000000⟩
    let v := Value.list [.bool true, .ofFields [("a", .int 1), ("b", .null)]]
    let w := Value.list [.int 1, .ofFields [("b", .null), ("a", one)]]
    let rule (expected : Value) : Rule Unit :=
      ⟨0, [] ++ ⟨["data", "n"], expected⟩ :: [⟨["attributes", "t"], .str "x"⟩], ()⟩
    let found := Value.list [one, .ofFields [("a", .bool true), ("b", .null)]]
    let e : Envelope :=
      ⟨"s", "1", none, some (.ofFields [("n", found)]), .ofFields [("t", .str "x")]⟩
    v.IsDefinite ∧ w.IsDefinite ∧ v.matchesLeaf w ∧ (rule w).accepts e ∧
      w.matchesLeaf v := by
  intro one v w rule found e
  have listed {x y : Value} (hx : x.IsDefinite) (hy : y.IsDefinite) :
      (Value.list [x, y]).IsDefinite := by
    refine .list fun item mem => ?_
    rcases List.mem_pair.1 mem with rfl | rfl
    · exact hx
    · exact hy
  have named {a b : String} {x y : Value} (differ : a ≠ b) (hx : x.IsDefinite)
      (hy : y.IsDefinite) : (Value.ofFields [(a, x), (b, y)]).IsDefinite := by
    refine .fields (by simpa using differ) fun f mem => ?_
    rcases List.mem_pair.1 mem with rfl | rfl
    · exact hx
    · exact hy
  have hone : one.IsDefinite := .float (by decide +kernel)
  have hv : v.IsDefinite := listed (.bool true) (named (by decide) (.int 1) .null)
  have hw : w.IsDefinite := listed (.int 1) (named (by decide) .null hone)
  have equal : v.matchesLeaf w := by decide +kernel
  have met : (rule v).accepts e := by decide +kernel
  obtain ⟨equivalence, expects⟩ := expectation_up_to_equality (η := Unit)
  have same := expects 0 [] [⟨["attributes", "t"], .str "x"⟩] ["data", "n"] () v w hv hw equal e
  exact ⟨hv, hw, equal, same.symm.trans met,
    equivalence.symm (x := ⟨v, hv⟩) (y := ⟨w, hw⟩) equal⟩

end Rule
end PushDispatch
