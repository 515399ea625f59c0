import PushDispatch.Proofs.Value.Keys

/-! Places inside values, however deep. Where one of two equal values has something, the other has
something equal there, keys included. Equal is not the same: a boolean may stand where the other
value has the number one or zero. -/
namespace PushDispatch

namespace Entries

def entry? (entries : Entries) (key : Key) : Option (Key × Value) :=
  entries.find? (·.1.same key)

theorem lookup?_eq (entries : Entries) (key : Key) :
    entries.lookup? key = (entries.entry? key).map (·.2) := by
  induction entries with
  | nil => rfl
  | cons entry rest ih =>
    obtain ⟨k, v⟩ := entry
    rw [lookup?, entry?, List.find?_cons]
    cases k.same key with
    | true => rfl
    | false => exact ih

theorem entry?_congr {k k' : Key} (h : k.same k') (entries : Entries) :
    entries.entry? k = entries.entry? k' := by
  unfold entry?
  congr 1
  funext entry
  exact Key.same_congr h entry.1

end Entries

namespace Value

inductive Place where
  | item (index : Nat)
  | valueAt (key : Key)
  | keyAt (key : Key)
  | data
  | attributes

def items? : Value → Option (List Value)
  | .list items => some items
  | .tuple items => some items
  | _ => none

def parts? : Value → Option (Value × Value)
  | .message _ _ data attributes => some (data, attributes)
  | .envelope _ _ _ data attributes => some (data, attributes)
  | _ => none

def entry? (v : Value) (key : Key) : Option (Key × Value) :=
  v.entries?.bind fun entries => Entries.entry? entries key

def step? (v : Value) : Place → Option Value
  | .item i => v.items?.bind (·[i]?)
  | .valueAt k => (v.entry? k).map (·.2)
  | .keyAt k => (v.entry? k).map (·.1.toValue)
  | .data => v.parts?.map (·.1)
  | .attributes => v.parts?.map (·.2)

def at? : Value → List Place → Option Value
  | v, [] => some v
  | v, p :: path => (v.step? p).bind (·.at? path)

variable {a b v : Value}

mutual

@[simp] theorem same_toValue (a b : Key) : a.toValue.same b.toValue = a.same b := by
  cases a with
  | tuple as =>
    cases b with
    | tuple bs => exact sameItems_toValues as bs
    | _ => rfl
  | _ => cases b <;> rfl

@[simp] theorem sameItems_toValues (as bs : List Key) :
    sameItems (Key.toValues as) (Key.toValues bs) = Key.sameItems as bs := by
  match as, bs with
  | [], [] => rfl
  | [], _ :: _ => rfl
  | _ :: _, [] => rfl
  | a :: as, b :: bs =>
    rw [Key.toValues, Key.toValues, sameItems, Key.sameItems, same_toValue a b,
      sameItems_toValues as bs]

end

theorem exists_items?_of_same (h : a.same b) {as : List Value} (found : a.items? = some as) :
    ∃ bs, b.items? = some bs ∧ sameItems as bs := by
  cases a with
  | list | tuple =>
    cases found
    cases b <;> simp_all [same, sameNumber, extent?, items?]
  | _ => cases found

theorem exists_parts?_of_same (h : a.same b) {p : Value × Value} (found : a.parts? = some p) :
    ∃ q, b.parts? = some q ∧ p.1.same q.1 ∧ p.2.same q.2 := by
  cases a with
  | message | envelope =>
    cases found
    cases b <;> simp_all [same, sameNumber, extent?, parts?]
  | _ => cases found

private theorem exists_getElem?_of_sameItems {as bs : List Value} (h : sameItems as bs) {i : Nat}
    (found : as[i]? = some v) : ∃ w, bs[i]? = some w ∧ v.same w := by
  induction as generalizing bs i with
  | nil => cases found
  | cons a as ih =>
    cases bs with
    | nil => cases h
    | cons b bs =>
      rw [sameItems, Bool.and_eq_true] at h
      cases i with
      | zero =>
        cases found
        exact ⟨b, rfl, h.1⟩
      | succ i => exact ih h.2 found

private theorem exists_entry?_of_within {as bs : Entries} (h : within as bs) {key : Key}
    {entry : Key × Value} (found : as.entry? key = some entry) :
    ∃ other, bs.entry? key = some other ∧ entry.1.same other.1 ∧ entry.2.same other.2 := by
  induction as with
  | nil => cases found
  | cons first rest ih =>
    obtain ⟨k, v⟩ := first
    rw [within, Bool.and_eq_true, Entries.lookup?_eq] at h
    rw [Entries.entry?, List.find?_cons] at found
    split at found
    · rename_i here
      cases found
      rw [← Entries.entry?_congr here]
      cases there : Entries.entry? bs k with
      | none =>
        rw [there] at h
        cases h.1
      | some other =>
        have equal := List.find?_some (show bs.find? (·.1.same k) = some other from there)
        rw [there] at h
        rw [Key.same_comm] at equal
        exact ⟨other, rfl, equal, h.1⟩
    · exact ih h.2 found

theorem exists_entry?_of_same (h : a.same b) {key : Key} {entry : Key × Value}
    (found : a.entry? key = some entry) :
    ∃ other, b.entry? key = some other ∧ entry.1.same other.1 ∧ entry.2.same other.2 := by
  obtain ⟨as, entries, here⟩ := Option.bind_eq_some_iff.1 found
  obtain ⟨bs, entries', equal⟩ : ∃ bs, b.entries? = some bs ∧ within as bs := by
    cases a with
    | dict | proxy =>
      cases entries
      cases b <;> simp_all [same, sameNumber, extent?, entries?]
    | _ => cases entries
  obtain ⟨other, there, same⟩ := exists_entry?_of_within equal here
  exact ⟨other, Option.bind_eq_some_iff.2 ⟨bs, entries', there⟩, same⟩

theorem exists_step?_of_same (h : a.same b) {p : Place} (found : a.step? p = some v) :
    ∃ w, b.step? p = some w ∧ v.same w := by
  cases p with
  | item i =>
    obtain ⟨as, items, here⟩ := Option.bind_eq_some_iff.1 found
    obtain ⟨bs, items', equal⟩ := exists_items?_of_same h items
    obtain ⟨w, there, same⟩ := exists_getElem?_of_sameItems equal here
    exact ⟨w, Option.bind_eq_some_iff.2 ⟨bs, items', there⟩, same⟩
  | valueAt k =>
    obtain ⟨entry, here, rfl⟩ := Option.map_eq_some_iff.1 found
    obtain ⟨other, there, -, same⟩ := exists_entry?_of_same h here
    exact ⟨other.2, Option.map_eq_some_iff.2 ⟨other, there, rfl⟩, same⟩
  | keyAt k =>
    obtain ⟨entry, here, rfl⟩ := Option.map_eq_some_iff.1 found
    obtain ⟨other, there, same, -⟩ := exists_entry?_of_same h here
    rw [← same_toValue] at same
    exact ⟨_, Option.map_eq_some_iff.2 ⟨other, there, rfl⟩, same⟩
  | data =>
    obtain ⟨parts, here, rfl⟩ := Option.map_eq_some_iff.1 found
    obtain ⟨parts', there, same, -⟩ := exists_parts?_of_same h here
    exact ⟨_, Option.map_eq_some_iff.2 ⟨parts', there, rfl⟩, same⟩
  | attributes =>
    obtain ⟨parts, here, rfl⟩ := Option.map_eq_some_iff.1 found
    obtain ⟨parts', there, -, same⟩ := exists_parts?_of_same h here
    exact ⟨_, Option.map_eq_some_iff.2 ⟨parts', there, rfl⟩, same⟩

/-- Where a value has something, a value that it equals has something equal. -/
theorem exists_at?_of_same (h : a.same b) {path : List Place} (found : a.at? path = some v) :
    ∃ w, b.at? path = some w ∧ v.same w := by
  induction path generalizing a b with
  | nil =>
    cases found
    exact ⟨b, rfl, h⟩
  | cons p path ih =>
    obtain ⟨a', step, rest⟩ := Option.bind_eq_some_iff.1 found
    obtain ⟨b', step', same⟩ := exists_step?_of_same h step
    obtain ⟨w, rest', same⟩ := ih same rest
    exact ⟨w, Option.bind_eq_some_iff.2 ⟨b', step', rest'⟩, same⟩

end Value
end PushDispatch
