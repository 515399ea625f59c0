import PushDispatch.Proofs.Condition.Containment
import PushDispatch.Proofs.Condition.Leaves

/-! Messages that grow. A leaf stays met when keys are added to the data or the attributes, at any
depth: the path to it still leads to the same value, because a leaf never asks for a mapping. -/
namespace PushDispatch

namespace Value

/-- The second value is the first, or a mapping that has all its names, under each of them a value
which extends the one there. -/
inductive IsExtendedBy : Value → Value → Prop where
  | refl (v : Value) : IsExtendedBy v v
  | mapping {v w : Value} {as bs : Entries} (first : v.entries? = some as)
      (second : w.entries? = some bs)
      (names : ∀ name, Entries.hasField as name → Entries.hasField bs name)
      (values : ∀ name a b, Entries.field? as name = some a → Entries.field? bs name = some b →
        IsExtendedBy a b) : IsExtendedBy v w

variable {v w : Value}

theorem IsExtendedBy.field? (h : v.IsExtendedBy w) {name : String} {a : Value}
    (found : v.field? name = some a) : ∃ b, w.field? name = some b ∧ a.IsExtendedBy b := by
  cases h with
  | refl => exact ⟨a, found, .refl a⟩
  | @mapping _ _ as bs first second names values =>
    have found : Entries.field? as name = some a := by simpa [Value.field?, first] using found
    have has : Entries.hasField bs name := names name (by rw [Entries.hasField, found]; rfl)
    obtain ⟨b, there⟩ := Option.isSome_iff_exists.1 has
    exact ⟨b, by simpa [Value.field?, second] using there, values name a b found there⟩

theorem IsExtendedBy.reach? (h : v.IsExtendedBy w) {names : List String} {a : Value}
    (found : v.reach? names = some a) : ∃ b, w.reach? names = some b ∧ a.IsExtendedBy b := by
  induction names generalizing v w with
  | nil =>
    cases found
    exact ⟨w, rfl, h⟩
  | cons name names ih =>
    rw [reach?_cons] at found ⊢
    obtain ⟨u, here, found⟩ := Option.bind_eq_some_iff.1 found
    obtain ⟨u', there, extended⟩ := h.field? here
    rw [there]
    exact ih extended found

theorem IsExtendedBy.eq_of_bare (h : v.IsExtendedBy w) (bare : v.entries? = none) : w = v := by
  cases h with
  | refl => rfl
  | mapping first => cases bare.symm.trans first

theorem entries?_of_matchesLeaf (h : v.matchesLeaf w) (bare : w.entries? = none) :
    v.entries? = none := by
  cases v with
  | dict | proxy => cases w <;> simp_all [matchesLeaf, isBool, same, sameNumber, extent?, entries?]
  | _ => rfl

end Value

structure Envelope.IsExtendedBy (e e' : Envelope) : Prop where
  attributes : ∀ name v, Entries.field? e.attributes name = some v →
    Entries.field? e'.attributes name = some v
  data : ∀ entries, e.data = some entries → ∃ entries', e'.data = some entries' ∧
    (Value.dict entries).IsExtendedBy (.dict entries')

namespace Envelope

variable {e e' : Envelope}

theorem IsExtendedBy.reach? (h : e.IsExtendedBy e') {root name : String} {names : List String}
    (rooted : root ∈ Condition.roots) {a : Value}
    (found : e.subject.reach? (root :: name :: names) = some a) :
    ∃ b, e'.subject.reach? (root :: name :: names) = some b ∧ a.IsExtendedBy b := by
  have either : root = "data" ∨ root = "attributes" := by simpa [Condition.roots] using rooted
  rcases either with rfl | rfl
  · have found : e.dataValue.reach? (name :: names) = some a := found
    show ∃ b, e'.dataValue.reach? (name :: names) = some b ∧ _
    cases data : e.data with
    | none =>
      simp [dataValue, data, Value.reach?, Value.entries?] at found
    | some entries =>
      obtain ⟨entries', data', extended⟩ := h.data entries data
      simp only [dataValue, data, data', Option.map_some, Option.getD_some] at found ⊢
      exact extended.reach? found
  · have found : (Value.dict e.attributes).reach? (name :: names) = some a := found
    show ∃ b, (Value.dict e'.attributes).reach? (name :: names) = some b ∧ _
    have extended : (Value.dict e.attributes).IsExtendedBy (.dict e'.attributes) := by
      refine .mapping rfl rfl (fun name has => ?_) fun name a b here there => ?_
      · obtain ⟨v, here⟩ := Option.isSome_iff_exists.1 has
        rw [Entries.hasField, h.attributes name v here]
        rfl
      · cases (h.attributes name a here).symm.trans there
        exact .refl a
    exact extended.reach? found

theorem isExtendedBy_of_absent {name : String} (absent : Entries.field? e.attributes name = none)
    (v : Value) :
    e.IsExtendedBy { e with attributes := (.str name, v) :: e.attributes } := by
  refine ⟨fun other w found => ?_, fun entries data => ⟨entries, data, .refl _⟩⟩
  by_cases same : name = other
  · subst same
    cases absent.symm.trans found
  · have different : (Key.str name).same (.str other) = false := by simpa [Key.same] using same
    rw [Entries.field?, Entries.lookup?, different]
    exact found

end Envelope

namespace Leaf

structure IsAsked (leaf : Leaf) : Prop where
  rooted : leaf.IsRooted
  bare : leaf.value.entries? = none

theorem isAsked_of_mem_leaves {v : Value} {entries : Entries}
    (checked : Condition.check v = .ok entries) {leaf : Leaf}
    (mem : leaf ∈ Condition.leaves entries) : leaf.IsAsked :=
  ⟨Condition.isRooted_of_mem_leaves checked mem,
    Condition.entries?_of_mem_leavesBelow [] entries mem⟩

theorem IsAsked.holds_of_isExtendedBy {leaf : Leaf} (asked : leaf.IsAsked) {e e' : Envelope}
    (grown : e.IsExtendedBy e') (met : leaf.holds e.subject) : leaf.holds e'.subject := by
  obtain ⟨root, name, names, keys, rooted⟩ := asked.rooted
  unfold holds at met ⊢
  rw [keys] at met ⊢
  split at met
  · cases met
  · rename_i actual found
    obtain ⟨b, there, extended⟩ := grown.reach? rooted found
    obtain rfl := extended.eq_of_bare (Value.entries?_of_matchesLeaf met asked.bare)
    rw [there]
    exact met

end Leaf

namespace Rule

variable {η : Type} {r r' : Rule η} {e e' : Envelope}

theorem accepts_of_isExtendedBy (asked : ∀ leaf ∈ r.leaves, leaf.IsAsked)
    (grown : e.IsExtendedBy e') (met : r.accepts e) : r.accepts e' := by
  rw [accepts, List.all_eq_true] at met ⊢
  intro leaf mem
  exact (asked leaf mem).holds_of_isExtendedBy grown (met leaf mem)

theorem accepts_of_subset (fewer : r.leaves ⊆ r'.leaves) (met : r'.accepts e) : r.accepts e := by
  rw [accepts, List.all_eq_true] at met ⊢
  intro leaf mem
  exact met leaf (fewer mem)

end Rule
end PushDispatch
