import PushDispatch.Proofs.Registry.History

/-! What an offer to a registry brings to its table, whatever the condition is. An open registry
takes the entry of an offer or nothing, and which of the two does not depend on the offers before,
but for the one place without a condition. The rules are numbered by their places, so that a rule
that is found always has its handler there. -/
namespace PushDispatch

variable {η : Type}

namespace Table

def IsNumbered (t : Table η) : Prop :=
  ∀ (i : Nat) rule, t.rules[i]? = some rule → rule.index = i

theorem handlerAt?_natCast (t : Table η) (i : Nat) :
    t.handlerAt? i = t.rules[i]?.map (·.handler) := by
  have not_neg : ¬ (i : Int) < 0 := by omega
  simp only [handlerAt?, not_neg, if_false, Int.toNat_natCast]

theorem isNumbered_empty : ({} : Table η).IsNumbered := by
  intro i rule h
  simp at h

variable {t : Table η} {e : Envelope}

theorem IsNumbered.extend (h : t.IsNumbered) {rule : Rule η} (last : rule.index = t.rules.length) :
    (t.extend rule).IsNumbered := by
  intro i other found
  unfold Table.extend at found
  rcases Nat.lt_trichotomy i t.rules.length with inside | rfl | beyond
  · rw [List.getElem?_append_left inside] at found
    exact h i other found
  · rw [List.getElem?_concat_length, Option.some.injEq] at found
    rw [← found, last]
  · rw [List.getElem?_eq_none (by simp; omega)] at found
    cases found

theorem IsNumbered.resolve?_of_split (h : t.IsNumbered) {before after : List (Rule η)}
    {rule : Rule η} (split : t.rules = before ++ rule :: after)
    (passed : ∀ other ∈ before, ¬ other.accepts e) (met : rule.accepts e) :
    t.resolve? e = some (before.length : Int) ∧
      t.handlerAt? before.length = some rule.handler := by
  have here : t.rules[before.length]? = some rule := by simp [split]
  have first : t.rules.find? (·.accepts e) = some rule :=
    List.find?_eq_some_iff_append.2 ⟨met, before, after, split, by simpa using passed⟩
  constructor
  · rw [resolve?, first, Option.map_some, h _ _ here]
  · rw [handlerAt?_natCast, here, Option.map_some]

theorem resolve?_eq_none_iff : t.resolve? e = none ↔ ∀ rule ∈ t.rules, ¬ rule.accepts e := by
  rw [resolve?, Option.map_eq_none_iff, List.find?_eq_none]

theorem IsNumbered.exists_handlerAt? (h : t.IsNumbered) {index : Int}
    (found : t.resolve? e = some index) : ∃ handler, t.handlerAt? index = some handler := by
  obtain ⟨rule, first, -⟩ := Option.map_eq_some_iff.1 found
  obtain ⟨met, before, after, split, passed⟩ := List.find?_eq_some_iff_append.1 first
  obtain ⟨resolved, handler⟩ := h.resolve?_of_split split (by simpa using passed) met
  cases found.symm.trans resolved
  exact ⟨rule.handler, handler⟩

end Table

namespace Registry

structure Offer (η : Type) where
  candidate : Candidate η
  condition : Value

structure Entry (η : Type) where
  handler : η
  leaves : List Leaf

def Entry.isConditional (a : Entry η) : Bool := !a.leaves.isEmpty

/-- What an offer brings to an open registry. A condition that is refused brings nothing. -/
def Offer.brings? (o : Offer η) : Option (Entry η) :=
  match o.candidate, Condition.check o.condition with
  | .handler _ handler, .ok entries =>
    if Condition.areNameable entries then some ⟨handler, Condition.leaves entries⟩ else none
  | _, _ => none

def enter (r : Registry η) (a : Entry η) : Registry η :=
  if a.isConditional then
    { r with table := r.table.extend ⟨r.counter, a.leaves, a.handler⟩, counter := r.counter + 1 }
  else if r.table.catchAll.isSome then r
  else { r with table := r.table.withCatchAll a.handler }

def offer (r : Registry η) (o : Offer η) : Registry η :=
  (r.register o.candidate o.condition).registry

theorem addRule_registry (r : Registry η) (label : String) (handler : η) (condition : Entries) :
    (r.addRule label handler condition).registry
      = { r with table := r.table.extend (.compile r.counter condition handler),
                 counter := r.counter + 1 } := by
  unfold addRule
  dsimp only
  split <;> rfl

theorem offer_of_frozen {r : Registry η} (frozen : r.state = .frozen) (o : Offer η) :
    r.offer o = r := by
  unfold offer register
  rw [if_pos frozen]
  rfl

theorem offer_of_opened {r : Registry η} (opened : r.state = .opened) (o : Offer η) :
    r.offer o = (o.brings?.map r.enter).getD r := by
  have open_ : r.state ≠ .frozen := by
    rw [opened]
    decide
  unfold offer register Offer.brings?
  rw [if_neg open_]
  cases o.candidate with
  | other typeName => rfl
  | handler label handler =>
    cases Condition.check o.condition with
    | error cause => rfl
    | ok entries =>
      dsimp only
      split
      · split
        · rename_i bare
          unfold addCatchAll
          cases taken : r.table.catchAll <;> simp [enter, Entry.isConditional, bare, taken, refuse]
        · rename_i asks
          rw [addRule_registry]
          simp [enter, Entry.isConditional, asks, Rule.compile]
      · rfl

theorem state_enter (r : Registry η) (a : Entry η) : (r.enter a).state = r.state := by
  unfold enter
  split
  · rfl
  · split <;> rfl

/-- The counter is the number of the next rule. -/
structure IsNumbered (r : Registry η) : Prop where
  counter : r.counter = r.table.rules.length
  table : r.table.IsNumbered

theorem isNumbered_empty : ({} : Registry η).IsNumbered := ⟨rfl, Table.isNumbered_empty⟩

variable {r : Registry η}

theorem IsNumbered.enter (h : r.IsNumbered) (a : Entry η) : (r.enter a).IsNumbered := by
  unfold Registry.enter
  split
  · constructor
    · simp [Table.extend, h.counter]
    · apply h.table.extend
      rw [h.counter]
  · split
    · exact h
    · exact ⟨h.counter, h.table⟩

theorem IsNumbered.offer (h : r.IsNumbered) (o : Offer η) : (r.offer o).IsNumbered := by
  cases state : r.state with
  | frozen => rwa [offer_of_frozen state]
  | opened =>
    rw [offer_of_opened state]
    cases o.brings? with
    | none => exact h
    | some a => exact h.enter a

end Registry
end PushDispatch
