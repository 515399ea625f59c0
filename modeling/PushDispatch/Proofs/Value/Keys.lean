import PushDispatch.Value.Equality

/-! Equality of keys is symmetric and transitive, so that equal keys equal the same keys. It is not
reflexive: an undefined number equals no key, and neither does a function. -/
namespace PushDispatch

namespace Double.Extent

theorem same_iff {x y : Extent} : x.same y ↔ x = y ∧ x ≠ .undefined := by
  cases x <;> simp [same]

theorem same_comm (x y : Extent) : x.same y = y.same x := by
  rw [Bool.eq_iff_iff, same_iff, same_iff]
  constructor <;> rintro ⟨rfl, defined⟩ <;> exact ⟨rfl, defined⟩

theorem same_trans {x y z : Extent} (h : x.same y) (h' : y.same z) : x.same z := by
  rw [same_iff] at h h' ⊢
  exact ⟨h.1.trans h'.1, h.2⟩

end Double.Extent

namespace Key

mutual

theorem same_comm (a b : Key) : a.same b = b.same a := by
  cases a with
  | tuple as =>
    cases b with
    | tuple bs => exact sameItems_comm as bs
    | _ => simp [same, extent?]
  | str s =>
    cases b with
    | str t => exact Bool.beq_comm
    | _ => simp [same, extent?]
  | _ => cases b <;> simp [same, extent?, Double.Extent.same_comm]

theorem sameItems_comm (as bs : List Key) : sameItems as bs = sameItems bs as := by
  match as, bs with
  | [], [] => rfl
  | [], _ :: _ => rfl
  | _ :: _, [] => rfl
  | a :: as, b :: bs => rw [sameItems, sameItems, same_comm a b, sameItems_comm as bs]

end

@[simp] theorem same_null_iff {b : Key} : Key.null.same b ↔ b = .null := by
  cases b <;> simp [same, extent?]

@[simp] theorem same_str_iff {s : String} {b : Key} : (Key.str s).same b ↔ b = .str s := by
  cases b with
  | str t => rw [same, beq_iff_eq, Key.str.injEq, eq_comm]
  | _ => simp [same, extent?]

theorem same_tuple_iff {as : List Key} {b : Key} :
    (Key.tuple as).same b ↔ ∃ bs, b = .tuple bs ∧ sameItems as bs := by
  cases b <;> simp [same, extent?]

theorem same_number_iff {a b : Key} {x : Double.Extent} (number : a.extent? = some x) :
    a.same b ↔ ∃ y, b.extent? = some y ∧ x.same y := by
  cases a with
  | bool | int | float =>
    cases number
    cases b <;> simp [same, extent?]
  | _ => cases number

mutual

theorem same_trans {a b c : Key} (h : a.same b) (h' : b.same c) : a.same c := by
  cases a with
  | null =>
    obtain rfl := same_null_iff.1 h
    exact h'
  | str s =>
    obtain rfl := same_str_iff.1 h
    exact h'
  | tuple as =>
    obtain ⟨bs, rfl, items⟩ := same_tuple_iff.1 h
    obtain ⟨cs, rfl, items'⟩ := same_tuple_iff.1 h'
    exact same_tuple_iff.2 ⟨cs, rfl, sameItems_trans items items'⟩
  | bool | int | float =>
    obtain ⟨y, number, equal⟩ := (same_number_iff rfl).1 h
    obtain ⟨z, number', equal'⟩ := (same_number_iff number).1 h'
    exact (same_number_iff rfl).2 ⟨z, number', Double.Extent.same_trans equal equal'⟩
  | thunk => cases b <;> cases h

theorem sameItems_trans {as bs cs : List Key} (h : sameItems as bs) (h' : sameItems bs cs) :
    sameItems as cs := by
  match as, bs, cs with
  | [], [], [] => rfl
  | a :: as, b :: bs, c :: cs =>
    simp only [sameItems, Bool.and_eq_true] at h h' ⊢
    exact ⟨same_trans h.1 h'.1, sameItems_trans h.2 h'.2⟩

end

theorem same_congr {k k' : Key} (h : k.same k') (other : Key) : other.same k = other.same k' := by
  rw [Bool.eq_iff_iff]
  constructor
  · intro here
    exact same_trans here h
  · intro here
    rw [same_comm] at h
    exact same_trans here h

end Key

end PushDispatch
