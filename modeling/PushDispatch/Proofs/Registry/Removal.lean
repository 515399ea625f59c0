import PushDispatch.Proofs.Registry.Numbering
import PushDispatch.Proofs.Registry.Runs

/-! Rules taken out of a table. When the registration of a rule is left out of the calls to a
registry, its table comes out without that rule, and the rules behind it move up one number. The
first rule is excepted: without it there may be nothing to freeze. -/
namespace PushDispatch

variable {η : Type}

namespace Table

def renumber (rules : List (Rule η)) : List (Rule η) :=
  rules.mapIdx fun i rule => { rule with index := i }

def without (t : Table η) (q : Nat) : Table η := { t with rules := renumber (t.rules.eraseIdx q) }

@[simp] theorem renumber_concat (rules : List (Rule η)) (rule : Rule η) :
    renumber (rules ++ [rule]) = renumber rules ++ [{ rule with index := rules.length }] := by
  rw [renumber, List.mapIdx_append, List.mapIdx_cons, List.mapIdx_nil, Nat.zero_add]
  rfl

@[simp] theorem length_renumber (rules : List (Rule η)) : (renumber rules).length = rules.length :=
  List.length_mapIdx

variable {t : Table η}

theorem isNumbered_without (t : Table η) (q : Nat) : (t.without q).IsNumbered := by
  intro i rule found
  rw [without, renumber, List.getElem?_mapIdx] at found
  obtain ⟨_, -, rfl⟩ := Option.map_eq_some_iff.1 found
  rfl

theorem IsNumbered.renumber_rules (h : t.IsNumbered) : renumber t.rules = t.rules := by
  apply List.ext_getElem?
  intro i
  rw [renumber, List.getElem?_mapIdx]
  cases found : t.rules[i]? with
  | none => rfl
  | some rule => rw [Option.map_some, ← h i rule found]

@[simp] theorem length_without {q : Nat} (inside : q < t.rules.length) :
    (t.without q).rules.length = t.rules.length - 1 := by
  rw [without, length_renumber, List.length_eraseIdx_of_lt inside]

private theorem isEmpty_of_length_pos (some : 0 < t.rules.length) : t.isEmpty = false := by
  have kept : t.rules.isEmpty = false := by
    rw [List.isEmpty_eq_false_iff]
    exact List.ne_nil_of_length_pos some
  rw [isEmpty, kept, Bool.false_and]

theorem IsNumbered.extend_without (h : t.IsNumbered) (rule : Rule η) :
    (t.extend rule).without t.rules.length = t := by
  unfold without Table.extend
  simp only [List.eraseIdx_append_of_length_le (Nat.le_refl _), Nat.sub_self,
    List.eraseIdx_zero, List.tail_cons, List.append_nil, h.renumber_rules]

private theorem extend_without_of_lt {q : Nat} (inside : q < t.rules.length) (rule : Rule η) :
    (t.extend rule).without q
      = (t.without q).extend { rule with index := (t.rules.length - 1 : Nat) } := by
  unfold without Table.extend
  simp only [List.eraseIdx_append_of_lt_length inside, renumber_concat,
    List.length_eraseIdx_of_lt inside]

end Table

namespace Registry

def without (r : Registry η) (q : Nat) : Registry η :=
  { r with table := r.table.without q, counter := r.counter - 1 }

variable {r : Registry η} {q : Nat}

/-- All that a call can do to a registry: nothing, enter what was offered, or end the offers. -/
inductive Changes (r : Registry η) : Call η → Registry η → Prop where
  | nothing {call} : Changes r call r
  | enters {candidate condition a}
      (brought : (⟨candidate, condition⟩ : Offer η).brings? = some a) :
      Changes r (.register candidate condition) (r.enter a)
  | ends : Changes r .freeze { r with state := .frozen }

theorem perform_changes (r : Registry η) (call : Call η) : Changes r call (r.perform call).1 := by
  cases call with
  | register candidate condition =>
    show Changes r _ (r.offer ⟨candidate, condition⟩)
    cases state : r.state with
    | frozen =>
      rw [offer_of_frozen state]
      exact .nothing
    | opened =>
      rw [offer_of_opened state]
      cases brought : (⟨candidate, condition⟩ : Offer η).brings? with
      | none => exact .nothing
      | some a => exact .enters brought
  | freeze =>
    show Changes r _ r.freeze.registry
    have did := freeze_freezes r
    generalize r.freeze.registry = r', r.freeze.outcome = outcome at did
    cases did with
    | again | empty => exact .nothing
    | ended => exact .ends

theorem IsNumbered.perform (h : r.IsNumbered) (call : Call η) : (r.perform call).1.IsNumbered := by
  have did := perform_changes r call
  generalize (r.perform call).1 = r' at did ⊢
  cases did with
  | nothing => exact h
  | enters => exact h.enter _
  | ends => exact ⟨h.counter, h.table⟩

/-- The second registry has one rule more, and lacks no other when that one is taken out. -/
def AddsRule (r r' : Registry η) : Prop :=
  r'.table.rules.length = r.table.rules.length + 1 ∧ r'.without r.table.rules.length = r

theorem IsNumbered.enter_adds (h : r.IsNumbered) (a : Entry η) :
    (r.enter a).table.rules.length = r.table.rules.length ∨ r.AddsRule (r.enter a) := by
  unfold Registry.enter
  split
  · refine .inr ⟨by simp [Table.extend], ?_⟩
    unfold without
    rw [h.table.extend_without, Nat.add_sub_cancel]
  · split <;> exact .inl rfl

theorem IsNumbered.perform_adds (h : r.IsNumbered) (call : Call η) :
    (r.perform call).1.table.rules.length = r.table.rules.length ∨
      (∃ candidate condition, call = .register candidate condition) ∧
        r.AddsRule (r.perform call).1 := by
  have did := perform_changes r call
  generalize (r.perform call).1 = r' at did ⊢
  cases did with
  | nothing | ends => exact .inl rfl
  | enters => exact (h.enter_adds _).imp_right fun adds => ⟨⟨_, _, rfl⟩, adds⟩

theorem IsNumbered.length_le_perform (h : r.IsNumbered) (call : Call η) :
    r.table.rules.length ≤ (r.perform call).1.table.rules.length := by
  obtain same | ⟨-, more, -⟩ := h.perform_adds call <;> omega

theorem IsNumbered.enter_without (h : r.IsNumbered) (inside : q < r.table.rules.length)
    (a : Entry η) : (r.enter a).without q = (r.without q).enter a := by
  unfold Registry.enter
  by_cases asks : a.isConditional
  · have counter : r.table.rules.length + 1 - 1 = r.table.rules.length - 1 + 1 := by omega
    simp only [asks, if_true, without, Table.extend_without_of_lt inside, h.counter, counter]
  · have same : (r.without q).table.catchAll = r.table.catchAll := rfl
    rw [if_neg asks, if_neg asks, same]
    split <;> rfl

theorem freeze_registry_of_some (some : r.table.isEmpty = false) :
    r.freeze.registry = { r with state := .frozen } := by
  unfold freeze
  cases state : r.state with
  | frozen =>
    rw [if_pos (by decide)]
    cases r
    cases state
    rfl
  | opened => rw [if_neg (by decide), if_neg (by rw [some]; decide)]

/-- A call does the same to a registry that lacks a rule, unless it lacks the first. -/
theorem IsNumbered.perform_without (h : r.IsNumbered) (pos : 0 < q)
    (inside : q < r.table.rules.length) (call : Call η) :
    (r.perform call).1.without q = ((r.without q).perform call).1 := by
  cases call with
  | register candidate condition =>
    show (r.offer ⟨candidate, condition⟩).without q = (r.without q).offer ⟨candidate, condition⟩
    cases state : r.state with
    | frozen => rw [offer_of_frozen state, offer_of_frozen (r := r.without q) state]
    | opened =>
      rw [offer_of_opened state, offer_of_opened (r := r.without q) state]
      cases (⟨candidate, condition⟩ : Offer η).brings? with
      | none => rfl
      | some a => exact h.enter_without inside a
  | freeze =>
    show r.freeze.registry.without q = (r.without q).freeze.registry
    have some : r.table.isEmpty = false := Table.isEmpty_of_length_pos (by omega)
    have left : (r.without q).table.isEmpty = false := by
      apply Table.isEmpty_of_length_pos
      rw [without, Table.length_without inside]
      omega
    rw [freeze_registry_of_some some, freeze_registry_of_some left]
    rfl

theorem IsNumbered.after (h : r.IsNumbered) (calls : List (Call η)) :
    (r.after calls).IsNumbered := by
  induction calls generalizing r with
  | nil => exact h
  | cons call calls ih => exact ih (h.perform call)

theorem IsNumbered.after_without (h : r.IsNumbered) (pos : 0 < q)
    (inside : q < r.table.rules.length) (calls : List (Call η)) :
    (r.after calls).without q = (r.without q).after calls := by
  induction calls generalizing r with
  | nil => rfl
  | cons call calls ih =>
    have longer := h.length_le_perform call
    rw [Registry.after, Registry.after, ← h.perform_without pos inside]
    exact ih (h.perform call) (by omega)

theorem IsNumbered.exists_registration (h : r.IsNumbered) {calls : List (Call η)} (pos : 0 < q)
    (new : r.table.rules.length ≤ q) (inside : q < (r.after calls).table.rules.length) :
    ∃ before candidate condition rest, calls = before ++ .register candidate condition :: rest ∧
      r.after (before ++ rest) = (r.after calls).without q := by
  induction calls generalizing r with
  | nil => exact absurd inside (by simpa [Registry.after] using new)
  | cons call calls ih =>
    by_cases later : (r.perform call).1.table.rules.length ≤ q
    · obtain ⟨before, candidate, condition, rest, split, same⟩ := ih (h.perform call) later inside
      exact ⟨call :: before, candidate, condition, rest, by rw [split, List.cons_append], same⟩
    · -- this call adds the rule, so the registry before it is the one that lacks it
      obtain same | ⟨⟨candidate, condition, rfl⟩, more, taken⟩ := h.perform_adds call
      · omega
      · obtain rfl : q = r.table.rules.length := by omega
        refine ⟨[], candidate, condition, calls, rfl, ?_⟩
        rw [Registry.after, (h.perform _).after_without pos (by omega), taken, List.nil_append]

end Registry
end PushDispatch
