import PushDispatch.Proofs.Value.Places
import PushDispatch.Value.Mapping

/-! Entries set one after the other. The last one set under a key is what is found there, and no key
comes to be there twice. -/
namespace PushDispatch.Entries

@[simp] theorem lookup?_insert (entries : Entries) (k : Key) (v : Value) (key : Key) :
    lookup? (insert entries k v) key = if k.same key then some v else lookup? entries key := by
  induction entries with
  | nil => rfl
  | cons entry rest ih =>
    obtain ⟨k', v'⟩ := entry
    rw [insert]
    by_cases equal : k'.same k
    · have here : k'.same key = k.same key := by
        rw [Key.same_comm k', Key.same_comm k, Key.same_congr equal]
      rw [if_pos equal, lookup?, lookup?, here]
      split <;> rfl
    · rw [if_neg equal, lookup?, lookup?, ih]
      by_cases here : k'.same key
      · -- both keys at once would be equal keys
        have other : ¬ k.same key := by
          intro there
          rw [Key.same_comm] at there
          exact equal (Key.same_trans here there)
        rw [if_pos here, if_neg other, if_pos here]
      · rw [if_neg here, if_neg here]

private theorem lookup?_eq_none {entries : Entries} {key : Key}
    (absent : ∀ entry ∈ entries, ¬ entry.1.same key) : lookup? entries key = none := by
  have unfound : entries.entry? key = none := List.find?_eq_none.2 absent
  rw [lookup?_eq, unfound]
  rfl

def KeysOnce (entries : Entries) : Prop := entries.Pairwise fun a b => ¬ a.1.same b.1

private theorem mem_insert_key {entries : Entries} {k : Key} {v : Value} {entry : Key × Value}
    (mem : entry ∈ insert entries k v) : entry.1 = k ∨ ∃ other ∈ entries, other.1 = entry.1 := by
  induction entries with
  | nil => exact .inl (by rw [List.mem_singleton.1 mem])
  | cons first rest ih =>
    obtain ⟨k', v'⟩ := first
    rw [insert] at mem
    split at mem
    · obtain rfl | mem := List.mem_cons.1 mem
      · exact .inr ⟨(k', v'), List.mem_cons_self, rfl⟩
      · exact .inr ⟨entry, List.mem_cons_of_mem _ mem, rfl⟩
    · obtain rfl | mem := List.mem_cons.1 mem
      · exact .inr ⟨(k', v'), List.mem_cons_self, rfl⟩
      · obtain new | ⟨other, old, same⟩ := ih mem
        · exact .inl new
        · exact .inr ⟨other, List.mem_cons_of_mem _ old, same⟩

theorem KeysOnce.insert {entries : Entries} (h : KeysOnce entries) (k : Key) (v : Value) :
    KeysOnce (Entries.insert entries k v) := by
  induction entries with
  | nil => exact List.pairwise_singleton _ _
  | cons first rest ih =>
    obtain ⟨k', v'⟩ := first
    obtain ⟨apart, once⟩ := List.pairwise_cons.1 h
    rw [Entries.insert]
    split
    · exact List.pairwise_cons.2 ⟨apart, once⟩
    · rename_i different
      refine List.pairwise_cons.2 ⟨fun entry mem => ?_, ih once⟩
      obtain new | ⟨other, old, same⟩ := mem_insert_key mem
      · rwa [new]
      · rw [← same]
        exact apart other old

theorem KeysOnce.merge {xs : Entries} (h : KeysOnce xs) (ys : Entries) :
    KeysOnce (Entries.merge xs ys) := by
  induction ys generalizing xs with
  | nil => exact h
  | cons entry ys ih => exact ih (h.insert entry.1 entry.2)

theorem keysOnce_nil : KeysOnce [] := .nil

theorem keysOnce_collapse (entries : Entries) : KeysOnce (collapse entries) :=
  keysOnce_nil.merge entries

theorem lookup?_merge (xs : Entries) {ys : Entries} (once : KeysOnce ys) (key : Key) :
    lookup? (merge xs ys) key = (lookup? ys key).or (lookup? xs key) := by
  induction ys generalizing xs with
  | nil => rfl
  | cons entry ys ih =>
    obtain ⟨k, v⟩ := entry
    obtain ⟨apart, once⟩ := List.pairwise_cons.1 once
    show lookup? (merge (insert xs k v) ys) key = _
    rw [ih _ once, lookup?_insert, lookup?]
    by_cases here : k.same key
    · have later : lookup? ys key = none := by
        refine lookup?_eq_none fun entry mem there => apart entry mem ?_
        rw [Key.same_comm] at there
        exact Key.same_trans here there
      rw [if_pos here, if_pos here, later]
      rfl
    · rw [if_neg here, if_neg here]

theorem keysOnce_ofFields {fields : List (String × Value)} (once : (fields.map (·.1)).Nodup) :
    KeysOnce (ofFields fields) := by
  rw [KeysOnce, ofFields, List.pairwise_map]
  rw [List.Nodup, List.pairwise_map] at once
  refine once.imp fun {f g} different same => different ?_
  exact (Key.str.inj (Key.same_str_iff.1 same)).symm

theorem keysOnce_of_ofValue {v : Value}
    (once : ∀ entries, v.entries? = some entries → KeysOnce entries) {entries : Entries}
    (stands : ofValue v = .ok entries) : KeysOnce entries := by
  unfold ofValue at stands
  split at stands
  · cases stands
    exact .nil
  · split at stands
    · rename_i held
      rw [← Except.ok.inj stands]
      exact once _ held
    · rename_i items _ _
      cases pairs : ofPairs 0 items with
      | error => rw [pairs] at stands; cases stands
      | ok found =>
        rw [pairs] at stands
        cases stands
        exact keysOnce_collapse found
    · cases stands

end PushDispatch.Entries
