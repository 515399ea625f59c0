import PushDispatch.Condition.Basic

/-! What is known of every leaf of a condition: its path leads on from where it was looked for, its
value is no mapping, a condition that passed its check has no leaf outside data and attributes, and
a condition that can be written has only names and values that can be. -/
namespace PushDispatch

namespace Key

private theorem areWritable_filter {ks : List Key} (p : Key → Bool) (h : areWritable ks) :
    areWritable (ks.filter p) := by
  induction ks with
  | nil => rfl
  | cons k ks ih =>
    simp only [areWritable, Bool.and_eq_true] at h
    rw [List.filter_cons]
    split
    · simp [areWritable, h.1, ih h.2]
    · exact ih h.2

end Key

namespace Leaf

def IsRooted (leaf : Leaf) : Prop :=
  ∃ root name names, leaf.keys = root :: name :: names ∧ root ∈ Condition.roots

end Leaf

namespace Condition

mutual

theorem keys_of_mem_leavesAt (path : List String) (v : Value) {leaf : Leaf}
    (h : leaf ∈ leavesAt path v) : ∃ names, leaf.keys = path ++ names := by
  cases v with
  | dict entries | proxy _ entries =>
    obtain ⟨name, names, he⟩ := keys_of_mem_leavesBelow path entries h
    exact ⟨name :: names, he⟩
  | _ =>
    obtain rfl := List.mem_singleton.1 h
    exact ⟨[], (List.append_nil path).symm⟩

theorem keys_of_mem_leavesBelow (path : List String) (entries : List (Key × Value))
    {leaf : Leaf} (h : leaf ∈ leavesBelow path entries) :
    ∃ name names, leaf.keys = path ++ name :: names := by
  match entries with
  | (k, v) :: rest =>
    rcases List.mem_append.1 h with h | h
    · obtain ⟨names, he⟩ := keys_of_mem_leavesAt (path ++ [k.name]) v h
      exact ⟨k.name, names, by rw [he, List.append_assoc, List.singleton_append]⟩
    · exact keys_of_mem_leavesBelow path rest h

end

mutual

theorem entries?_of_mem_leavesAt (path : List String) (v : Value) {leaf : Leaf}
    (h : leaf ∈ leavesAt path v) : leaf.value.entries? = none := by
  cases v with
  | dict entries | proxy _ entries => exact entries?_of_mem_leavesBelow path entries h
  | _ =>
    obtain rfl := List.mem_singleton.1 h
    rfl

theorem entries?_of_mem_leavesBelow (path : List String) (entries : List (Key × Value))
    {leaf : Leaf} (h : leaf ∈ leavesBelow path entries) : leaf.value.entries? = none := by
  match entries with
  | (k, v) :: rest =>
    rcases List.mem_append.1 h with h | h
    · exact entries?_of_mem_leavesAt (path ++ [k.name]) v h
    · exact entries?_of_mem_leavesBelow path rest h

end

mutual

theorem isWritable_of_mem_leavesAt (path : List String) (v : Value) {leaf : Leaf}
    (hw : v.isWritable) (h : leaf ∈ leavesAt path v) : leaf.value.isWritable := by
  cases v with
  | dict entries | proxy _ entries => exact isWritable_of_mem_leavesBelow path entries hw h
  | _ =>
    obtain rfl := List.mem_singleton.1 h
    exact hw

theorem isWritable_of_mem_leavesBelow (path : List String) (entries : List (Key × Value))
    {leaf : Leaf} (hw : Value.entriesWritable entries) (h : leaf ∈ leavesBelow path entries) :
    leaf.value.isWritable := by
  match entries with
  | (k, v) :: rest =>
    simp only [Value.entriesWritable, Bool.and_eq_true] at hw
    rcases List.mem_append.1 h with h | h
    · exact isWritable_of_mem_leavesAt (path ++ [k.name]) v hw.1.2 h
    · exact isWritable_of_mem_leavesBelow path rest hw.2 h

end

mutual

theorem isNameable_of_isWritable (v : Value) (h : v.isWritable) : isNameable v := by
  cases v with
  | dict entries | proxy _ entries => exact areNameable_of_entriesWritable entries h
  | _ => rfl

theorem areNameable_of_entriesWritable (entries : List (Key × Value))
    (h : Value.entriesWritable entries) : areNameable entries := by
  match entries with
  | [] => rfl
  | (k, v) :: rest =>
    simp only [Value.entriesWritable, Bool.and_eq_true] at h
    simp [areNameable, h.1.1, isNameable_of_isWritable v h.1.2,
      areNameable_of_entriesWritable rest h.2]

end

theorem areWritable_keys {entries : Entries} (h : Value.entriesWritable entries) :
    Key.areWritable entries.keys := by
  induction entries with
  | nil => rfl
  | cons entry rest ih =>
    simp only [Value.entriesWritable, Bool.and_eq_true] at h
    exact Bool.and_eq_true_iff.2 ⟨h.1.1, ih h.2⟩

theorem entries?_isSome_of_firstBare? {entries : Entries} (h : firstBare? entries = none) :
    ∀ entry ∈ entries, entry.2.entries?.isSome := by
  induction entries with
  | nil => simp
  | cons entry rest ih =>
    rw [firstBare?] at h
    split at h
    · rename_i isMapping
      exact List.forall_mem_cons.2 ⟨isMapping, ih h⟩
    · cases h

/-- Everything there is to a condition that passes: it is null or a mapping of mappings below the
two roots. -/
theorem entries_of_check {v : Value} {entries : Entries} (h : check v = .ok entries) :
    v.entries?.getD [] = entries ∧ ∀ entry ∈ entries,
      (∃ root ∈ roots, entry.1 = .str root) ∧ entry.2.entries?.isSome := by
  unfold check at h
  split at h
  · cases h
    simp [Value.entries?]
  · split at h
    · cases h
    · rename_i entries' hv
      split at h
      · rename_i known
        split at h
        · cases h
        · rename_i bare
          cases h
          refine ⟨by rw [hv]; rfl, fun entry he => ⟨?_, entries?_isSome_of_firstBare? bare _ he⟩⟩
          have isRoot := List.filter_eq_nil_iff.1 known entry.1 (List.mem_map_of_mem he)
          cases hk : entry.1 with
          | str s => exact ⟨s, by simpa [hk, Condition.isRoot] using isRoot, rfl⟩
          | _ => simp [hk, Condition.isRoot] at isRoot
      · cases h

theorem isRooted_of_mem_leaves {v : Value} {entries : Entries} (h : check v = .ok entries)
    {leaf : Leaf} (hl : leaf ∈ leaves entries) : leaf.IsRooted := by
  have rooted := (entries_of_check h).2
  clear h
  unfold leaves at hl
  induction entries with
  | nil => cases hl
  | cons entry rest ih =>
    obtain ⟨k, c⟩ := entry
    rcases List.mem_append.1 hl with hl | hl
    · obtain ⟨⟨root, hr, rfl⟩, isMapping⟩ := rooted (k, c) (by simp)
      have below : ∃ es, leaf ∈ leavesBelow [root] es := by
        cases c with
        | dict es => exact ⟨es, hl⟩
        | proxy _ es => exact ⟨es, hl⟩
        | _ => cases isMapping
      obtain ⟨es, he⟩ := below
      obtain ⟨name, names, hk⟩ := keys_of_mem_leavesBelow [root] es he
      exact ⟨root, name, names, hk, hr⟩
    · exact ih hl fun entry he => rooted entry (List.mem_cons_of_mem _ he)

theorem isWritable_entries {v : Value} {entries : Entries} (hw : v.isWritable)
    (h : v.entries? = some entries) : Value.entriesWritable entries := by
  cases v with
  | dict _ | proxy _ _ =>
    cases h
    exact hw
  | _ => cases h

theorem ne_unwritable_of_check {v : Value} {cause : Error} (hw : v.isWritable)
    (h : check v = .error cause) : cause ≠ .unwritable := by
  rintro rfl
  unfold check at h
  split at h
  · cases h
  · split at h
    · cases h
    · rename_i entries hv
      have writable := Key.areWritable_filter (!isRoot ·)
        (areWritable_keys (isWritable_entries hw hv))
      split at h
      · split at h <;> cases h
      · rename_i known
        simp [writable] at h

theorem entriesWritable_of_check {v : Value} {entries : Entries} (hw : v.isWritable)
    (h : check v = .ok entries) : Value.entriesWritable entries := by
  obtain ⟨rfl, -⟩ := entries_of_check h
  cases hv : v.entries? with
  | none => rfl
  | some es => exact isWritable_entries hw hv

end Condition
end PushDispatch
