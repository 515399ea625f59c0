import PushDispatch.Proofs.Condition.Growth
import PushDispatch.Proofs.Dispatch.Order
import PushDispatch.Proofs.Registry.Removal

/-! Matching is monotone. A message that grows keeps every rule that it met, so it never goes to a
later one; and a rule that asks for more than an earlier one is never chosen. Such a rule can be
left out of the registry, and every message still runs the handler that it ran before. -/
namespace PushDispatch

namespace Registry

variable {η : Type} {r : Registry η}

theorem Offer.isAsked_of_brings? {o : Offer η} {a : Entry η} (brought : o.brings? = some a)
    {leaf : Leaf} (mem : leaf ∈ a.leaves) : leaf.IsAsked := by
  unfold Offer.brings? at brought
  split at brought
  · rename_i checked
    split at brought
    · cases brought
      exact Leaf.isAsked_of_mem_leaves checked mem
    · cases brought
  · cases brought

def AsksForValues (r : Registry η) : Prop :=
  ∀ rule ∈ r.table.rules, ∀ leaf ∈ rule.leaves, leaf.IsAsked

theorem AsksForValues.enter (h : r.AsksForValues) {a : Entry η}
    (asked : ∀ leaf ∈ a.leaves, leaf.IsAsked) : (r.enter a).AsksForValues := by
  unfold Registry.enter
  split
  · intro rule mem
    obtain old | new := List.mem_append.1 mem
    · exact h rule old
    · rw [List.mem_singleton.1 new]
      exact asked
  · split
    · exact h
    · exact h

theorem AsksForValues.perform (h : r.AsksForValues) (call : Call η) :
    (r.perform call).1.AsksForValues := by
  have did := perform_changes r call
  generalize (r.perform call).1 = r' at did ⊢
  cases did with
  | nothing => exact h
  | enters brought => exact h.enter fun leaf mem => Offer.isAsked_of_brings? brought mem
  | ends => exact h

theorem AsksForValues.after (h : r.AsksForValues) (calls : List (Call η)) :
    (r.after calls).AsksForValues := by
  induction calls generalizing r with
  | nil => exact h
  | cons call calls ih => exact ih (h.perform call)

end Registry

namespace Table

variable {η : Type} {t : Table η} {e e' : Envelope}

theorem IsNumbered.exists_resolve?_le (h : t.IsNumbered) {k : Nat} {rule : Rule η}
    (here : t.rules[k]? = some rule) (met : rule.accepts e) :
    ∃ j : Nat, t.resolve? e = some (j : Int) ∧ j ≤ k := by
  obtain ⟨inside, there⟩ := List.getElem?_eq_some_iff.1 here
  cases found : t.rules.find? (·.accepts e) with
  | none => exact absurd met (List.find?_eq_none.1 found rule (List.mem_of_getElem? here))
  | some first =>
    obtain ⟨-, j, bound, place, passed⟩ := List.find?_eq_some_iff_getElem.1 found
    have number : first.index = j := h j first (by rw [List.getElem?_eq_getElem bound, place])
    refine ⟨j, by rw [resolve?, found, Option.map_some, number], ?_⟩
    by_contra later
    have unmet := passed k (by omega)
    rw [there, met] at unmet
    cases unmet

theorem IsNumbered.exists_rule (h : t.IsNumbered) {i : Int} (found : t.resolve? e = some i) :
    ∃ (k : Nat) (rule : Rule η), i = k ∧ t.rules[k]? = some rule ∧ rule.accepts e := by
  obtain ⟨rule, first, rfl⟩ := Option.map_eq_some_iff.1 found
  obtain ⟨met, k, bound, place, -⟩ := List.find?_eq_some_iff_getElem.1 first
  have here : t.rules[k]? = some rule := by rw [List.getElem?_eq_getElem bound, place]
  exact ⟨k, rule, h k rule here, here, met⟩

theorem IsNumbered.exists_resolve?_of_isExtendedBy (h : t.IsNumbered)
    (asked : ∀ rule ∈ t.rules, ∀ leaf ∈ rule.leaves, leaf.IsAsked) (grown : e.IsExtendedBy e')
    {i : Int} (found : t.resolve? e = some i) : ∃ j, t.resolve? e' = some j ∧ j ≤ i := by
  obtain ⟨k, rule, rfl, here, met⟩ := h.exists_rule found
  have met := Rule.accepts_of_isExtendedBy (asked rule (List.mem_of_getElem? here)) grown met
  obtain ⟨j, found, le⟩ := h.exists_resolve?_le here met
  exact ⟨j, found, by omega⟩

variable {p q : Nat} {rule rule' : Rule η}

theorem IsNumbered.resolve?_ne (h : t.IsNumbered) (earlier : p < q)
    (here : t.rules[p]? = some rule) (there : t.rules[q]? = some rule')
    (fewer : rule.leaves ⊆ rule'.leaves) : t.resolve? e ≠ some (q : Int) := by
  intro found
  obtain ⟨k, chosen, place, at_k, met⟩ := h.exists_rule found
  obtain rfl : q = k := by omega
  cases there.symm.trans at_k
  obtain ⟨j, found', le⟩ := h.exists_resolve?_le here (Rule.accepts_of_subset fewer met)
  cases found.symm.trans found'
  omega

private theorem find?_eraseIdx (earlier : p < q) (here : t.rules[p]? = some rule)
    (there : t.rules[q]? = some rule') (fewer : rule.leaves ⊆ rule'.leaves) (e : Envelope) :
    (t.rules.eraseIdx q).find? (·.accepts e) = t.rules.find? (·.accepts e) := by
  obtain ⟨inside, there⟩ := List.getElem?_eq_some_iff.1 there
  have split : t.rules = t.rules.take q ++ rule' :: t.rules.drop (q + 1) := by
    rw [← there, List.getElem_cons_drop, List.take_append_drop]
  rw [List.eraseIdx_eq_take_drop_succ, List.find?_append]
  conv_rhs => rw [split, List.find?_append]
  cases found : (t.rules.take q).find? (·.accepts e) with
  | some first => rfl
  | none =>
    have taken : (t.rules.take q)[p]? = some rule := by rwa [List.getElem?_take_of_lt earlier]
    have unmet : ¬ rule.accepts e :=
      List.find?_eq_none.1 found rule (List.mem_of_getElem? taken)
    have unmet' : ¬ rule'.accepts e := fun met => unmet (Rule.accepts_of_subset fewer met)
    simp [unmet']

theorem find?_renumber (rules : List (Rule η)) (e : Envelope) :
    ((renumber rules).find? (·.accepts e)).map (·.handler)
      = (rules.find? (·.accepts e)).map (·.handler) := by
  induction rules using List.reverseRecOn with
  | nil => rfl
  | append_singleton rules rule ih =>
    rw [renumber_concat, List.find?_append, List.find?_append, Option.map_or, Option.map_or, ih]
    congr 1
    have same : Rule.accepts { rule with index := rules.length } e = rule.accepts e := rfl
    rw [List.find?_singleton, List.find?_singleton, same]
    split <;> rfl

end Table

namespace Dispatch
open Registry

variable {ρ : Type} {t : Table (Handler ρ)}

theorem deliver_invocations (h : t.IsNumbered) (e : Envelope) (context : Context ρ) :
    (deliver t e context).invocations
      = (((t.rules.find? (·.accepts e)).map (·.handler)).or t.catchAll).toList.map
          fun handler => ⟨handler, e, context⟩ := by
  cases found : t.rules.find? (·.accepts e) with
  | some rule =>
    obtain ⟨met, before, after, split, passed⟩ := List.find?_eq_some_iff_append.1 found
    obtain ⟨resolved, here⟩ := h.resolve?_of_split split (by simpa using passed) met
    rw [(deliver_of_resolve? resolved here context).1]
    rfl
  | none =>
    have unresolved : t.resolve? e = none := by rw [Table.resolve?, found]; rfl
    unfold deliver
    rw [unresolved]
    cases t.catchAll <;> rfl

theorem invocations_eq_of_find? {t' : Table (Handler ρ)} (h : t.IsNumbered) (h' : t'.IsNumbered)
    (found : ∀ e, (t'.rules.find? (·.accepts e)).map (·.handler)
      = (t.rules.find? (·.accepts e)).map (·.handler))
    (catchAll : t'.catchAll = t.catchAll) (depth : Nat) (raw : Value) (context : Context ρ) :
    (dispatch depth t' raw context).invocations = (dispatch depth t raw context).invocations := by
  unfold dispatch
  cases Envelope.decode depth raw with
  | ok e =>
    show (deliver t' e context).invocations = (deliver t e context).invocations
    rw [deliver_invocations h', deliver_invocations h, found, catchAll]
  | error stop =>
    cases stop with
    | refused cause =>
      show (reject depth t' raw cause context).invocations
        = (reject depth t raw cause context).invocations
      unfold reject
      rw [catchAll]
    | halted => rfl

/-- A message that grows is resolved no later, a rule accepts all that a rule with more leaves
accepts, and a rule behind one with no other leaves than its own is idle: no message is resolved to
it, and the registry without it runs the same handlers. -/
theorem matching_monotone (calls : List (Call (Handler ρ))) :
    let table := (({} : Registry (Handler ρ)).after calls).table
    (∀ e e' : Envelope, e.IsExtendedBy e' → ∀ i, table.resolve? e = some i →
      ∃ j, table.resolve? e' = some j ∧ j ≤ i) ∧
    (∀ rule rule' : Rule (Handler ρ), rule.leaves ⊆ rule'.leaves →
      ∀ e, rule'.accepts e → rule.accepts e) ∧
    ∀ (p q : Nat) (rule rule' : Rule (Handler ρ)), p < q → table.rules[p]? = some rule →
      table.rules[q]? = some rule' → rule.leaves ⊆ rule'.leaves →
      (∀ e, table.resolve? e ≠ some (q : Int)) ∧
      ∃ before candidate condition rest, calls = before ++ .register candidate condition :: rest ∧
        (({} : Registry (Handler ρ)).after (before ++ rest)).table = table.without q ∧
        ∀ depth raw context, (dispatch depth (table.without q) raw context).invocations
          = (dispatch depth table raw context).invocations := by
  intro table
  have numbered := isNumbered_empty.after calls
  have asked : (({} : Registry (Handler ρ)).after calls).AsksForValues :=
    AsksForValues.after (by intro rule mem; cases mem) calls
  refine ⟨fun e e' grown i => numbered.table.exists_resolve?_of_isExtendedBy asked grown,
    fun rule rule' fewer e => Rule.accepts_of_subset fewer, ?_⟩
  intro p q rule rule' earlier here there fewer
  refine ⟨fun e => numbered.table.resolve?_ne earlier here there fewer, ?_⟩
  have inside : q < table.rules.length := (List.getElem?_eq_some_iff.1 there).1
  obtain ⟨before, candidate, condition, rest, split, same⟩ :=
    isNumbered_empty.exists_registration (by omega) (Nat.zero_le q) inside
  refine ⟨before, candidate, condition, rest, split, by rw [same]; rfl, fun depth => ?_⟩
  refine invocations_eq_of_find? numbered.table (Table.isNumbered_without _ q) (fun e => ?_) rfl
    depth
  exact (Table.find?_renumber _ e).trans
    (congrArg _ (Table.find?_eraseIdx earlier here there fewer e))

theorem matching_monotone_three_rules :
    let asking (name : String) (fields : List (String × Value)) : Call (Handler Unit) :=
      .register (.handler name ⟨name, fun _ _ => .ok (.value .null)⟩)
        (.ofFields [("attributes", .ofFields fields)])
    let calls := [asking "typed" [("type", .str "a")], asking "kind" [("kind", .str "b")],
      asking "both" [("kind", .str "b"), ("type", .str "a")], .freeze]
    let table := (({} : Registry (Handler Unit)).after calls).table
    let e : Envelope := ⟨some "s", some "1", none, some [], [(.str "kind", .str "b")]⟩
    let e' : Envelope := { e with attributes := (.str "type", .str "a") :: e.attributes }
    e.IsExtendedBy e' ∧ table.resolve? e = some 1 ∧ (∃ j, table.resolve? e' = some j ∧ j ≤ 1) ∧
      (∀ e, table.resolve? e ≠ some 2) ∧
      ∀ depth raw context, (dispatch depth (table.without 2) raw context).invocations
        = (dispatch depth table raw context).invocations := by
  intro asking calls table e e'
  have grown : e.IsExtendedBy e' := Envelope.isExtendedBy_of_absent (by decide) _
  have resolved : table.resolve? e = some 1 := by decide +kernel
  obtain ⟨later, -, idle⟩ := matching_monotone calls
  have fewer : ([⟨["attributes", "type"], .str "a"⟩] : List Leaf) ⊆
      [⟨["attributes", "kind"], .str "b"⟩, ⟨["attributes", "type"], .str "a"⟩] := by simp
  obtain ⟨unresolved, -, -, -, -, -, -, same⟩ := idle 0 2 _ _ (by decide) rfl rfl fewer
  exact ⟨grown, resolved, later e e' grown 1 resolved, unresolved, same⟩

end Dispatch
end PushDispatch
