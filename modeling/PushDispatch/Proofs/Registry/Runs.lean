import PushDispatch.Proofs.Registry.History

/-! A registry is what its history makes it, after every sequence of calls: the rules are the
accepted conditional registrations at the positions of their order, the catch-all is the one
accepted registration without a condition, and every outcome is determined by what was accepted
before. Once frozen it stays as it is. -/
namespace PushDispatch.Registry

variable {η : Type}

/-- The invariant that every call keeps. -/
structure Follows (r : Registry η) (events : List (Event η)) : Prop where
  state : r.state = .frozen ↔ hasFrozen events
  counter : r.counter = (conditional events).length
  table : r.table = tableOf events
  numbered : (conditional events).map (·.index) = (List.range (conditional events).length).map some
  unnumbered : ∀ a ∈ unconditional events, a.index = none
  single : (unconditional events).length ≤ 1
  rooted : ∀ a ∈ conditional events, ∀ leaf ∈ a.leaves, leaf.IsRooted

theorem accepted_concat (events : List (Event η)) (event : Event η) :
    accepted (events ++ [event]) = accepted events ++ event.registration?.toList := by
  rw [accepted, List.filterMap_append]
  cases h : event.registration? <;> simp [accepted, h]

@[simp] theorem conditional_concat (events : List (Event η)) (event : Event η) :
    conditional (events ++ [event])
      = conditional events ++ event.registration?.toList.filter (·.isConditional) := by
  rw [conditional, accepted_concat, List.filter_append, conditional]

@[simp] theorem unconditional_concat (events : List (Event η)) (event : Event η) :
    unconditional (events ++ [event])
      = unconditional events ++ event.registration?.toList.filter (!·.isConditional) := by
  rw [unconditional, accepted_concat, List.filter_append, unconditional]

@[simp] theorem hasFrozen_concat (events : List (Event η)) (event : Event η) :
    hasFrozen (events ++ [event]) = (hasFrozen events || event.isFreezing) := by
  simp [hasFrozen]

theorem follows_nil : Follows ({} : Registry η) [] := by
  constructor <;> simp [hasFrozen, conditional, unconditional, accepted, tableOf]

namespace Follows

variable {r : Registry η} {events : List (Event η)}

theorem not_hasFrozen (h : Follows r events) (state : r.state = .opened) :
    hasFrozen events = false := by
  rw [Bool.eq_false_iff]
  intro frozen
  rw [h.state.2 frozen] at state
  cases state

theorem catchAll_eq_none (h : Follows r events) :
    r.table.catchAll = none ↔ unconditional events = [] := by
  rw [h.table, tableOf, Option.map_eq_none_iff, List.head?_eq_none_iff]

theorem idle (h : Follows r events) {r' : Registry η} {event : Event η}
    (nobody : event.registration? = none) (counter : r'.counter = r.counter)
    (table : r'.table = r.table)
    (state : r'.state = .frozen ↔ r.state = .frozen ∨ event.isFreezing) :
    Follows r' (events ++ [event]) := by
  have conditional_eq : conditional (events ++ [event]) = conditional events := by
    simp [nobody]
  have unconditional_eq : unconditional (events ++ [event]) = unconditional events := by
    simp [nobody]
  constructor
  · rw [state, h.state, hasFrozen_concat, Bool.or_eq_true]
  · rw [counter, conditional_eq, h.counter]
  · rw [table, tableOf, conditional_eq, unconditional_eq, h.table, tableOf]
  · rw [conditional_eq, h.numbered]
  · rw [unconditional_eq]
    exact h.unnumbered
  · rw [unconditional_eq]
    exact h.single
  · rw [conditional_eq]
    exact h.rooted

theorem refused (h : Follows r events) (candidate : Candidate η) (condition : Value)
    (cause : RegistrationError) :
    Follows r (events ++ [.register candidate condition (.error cause)]) := by
  refine h.idle ?_ rfl rfl ?_
  · cases candidate <;> rfl
  · simp [Event.isFreezing]

theorem addCatchAll (h : Follows r events) {label : String} {handler : η} {condition : Value}
    {entries : Entries} (checked : Condition.check condition = .ok entries)
    (bare : Condition.leaves entries = []) (free : r.table.catchAll = none) :
    Follows { r with table := r.table.withCatchAll handler }
      (events ++ [.register (.handler label handler) condition (.ok none)]) := by
  have alone := h.catchAll_eq_none.1 free
  have entries_eq := (Condition.entries_of_check checked).1
  have registered : (Event.register (.handler label handler) condition (.ok none)).registration?
      = some (⟨handler, [], none⟩ : Registration η) := by
    simp [Event.registration?, entries_eq, bare]
  have conditional_eq : conditional
      (events ++ [.register (.handler label handler) condition (.ok none)])
      = conditional events := by
    simp [registered, Registration.isConditional]
  have unconditional_eq : unconditional
      (events ++ [.register (.handler label handler) condition (.ok none)])
      = [⟨handler, [], none⟩] := by
    simp [registered, Registration.isConditional, alone]
  constructor
  · simpa [Event.isFreezing] using h.state
  · rw [conditional_eq, h.counter]
  · rw [tableOf, conditional_eq, unconditional_eq, h.table]
    rfl
  · rw [conditional_eq, h.numbered]
  · simp [unconditional_eq]
  · simp [unconditional_eq]
  · rw [conditional_eq]
    exact h.rooted

theorem addRule (h : Follows r events) {label : String} {handler : η} {condition : Value}
    {entries : Entries} (checked : Condition.check condition = .ok entries)
    (asks : Condition.leaves entries ≠ []) :
    Follows { r with table := r.table.extend (.compile r.counter entries handler),
                     counter := r.counter + 1 }
      (events ++ [.register (.handler label handler) condition (.ok (some r.counter))]) := by
  have entries_eq := (Condition.entries_of_check checked).1
  have registered : (Event.register (.handler label handler) condition
      (.ok (some r.counter))).registration?
      = some (⟨handler, Condition.leaves entries, some r.counter⟩ : Registration η) := by
    simp [Event.registration?, entries_eq]
  have conditional_eq : conditional
      (events ++ [.register (.handler label handler) condition (.ok (some r.counter))])
      = conditional events ++ [⟨handler, Condition.leaves entries, some r.counter⟩] := by
    simp [registered, Registration.isConditional, asks]
  have unconditional_eq : unconditional
      (events ++ [.register (.handler label handler) condition (.ok (some r.counter))])
      = unconditional events := by
    simp [registered, Registration.isConditional, asks]
  constructor
  · simpa [Event.isFreezing] using h.state
  · rw [conditional_eq, List.length_append, ← h.counter, List.length_singleton]
  · rw [tableOf, conditional_eq, unconditional_eq, List.mapIdx_concat, ← h.counter, h.table]
    rfl
  · rw [conditional_eq, List.map_append, h.numbered, List.length_append, List.length_singleton,
      List.range_succ, List.map_append, ← h.counter]
    rfl
  · rw [unconditional_eq]
    exact h.unnumbered
  · rw [unconditional_eq]
    exact h.single
  · rw [conditional_eq]
    intro a ha leaf hl
    rcases List.mem_append.1 ha with ha | ha
    · exact h.rooted a ha leaf hl
    · obtain rfl := List.mem_singleton.1 ha
      exact Condition.isRooted_of_mem_leaves checked hl

theorem registers (h : Follows r events) {candidate : Candidate η} {condition : Value}
    {r' : Registry η} {outcome : Except RegistrationError (Option Nat)}
    (did : Registers r candidate condition r' outcome) :
    Follows r' (events ++ [.register candidate condition outcome]) := by
  cases did with
  | catchAll _ checked bare free => exact h.addCatchAll checked bare free
  | rule _ checked asks => exact h.addRule checked asks
  | frozen | notCallable | rejected | duplicate => exact h.refused _ _ _

theorem freezes (h : Follows r events) {r' : Registry η} {outcome : Except FreezeError (Table η)}
    (did : Freezes r r' outcome) : Follows r' (events ++ [.freeze outcome]) := by
  cases did with
  | again state => exact h.idle rfl rfl rfl (by simp [state])
  | empty => exact h.idle rfl rfl rfl (by simp [Event.isFreezing])
  | ended => exact h.idle rfl rfl rfl (by simp [Event.isFreezing])

theorem perform (h : Follows r events) {call : Call η} (hw : call.IsWritable) :
    Follows (r.perform call).1 (events ++ [(r.perform call).2]) := by
  cases call with
  | register candidate condition => exact h.registers (register_registers r candidate hw)
  | freeze => exact h.freezes (freeze_freezes r)

theorem run (h : Follows r events) {calls : List (Call η)} (hw : ∀ call ∈ calls, call.IsWritable) :
    Follows (r.after calls) (events ++ r.history calls) := by
  induction calls generalizing r events with
  | nil =>
    rw [history, List.append_nil]
    exact h
  | cons call calls ih =>
    have step := h.perform (hw call List.mem_cons_self)
    have rest := ih step fun c hc => hw c (List.mem_cons_of_mem call hc)
    rwa [List.append_assoc, List.singleton_append] at rest

theorem getElem?_rules (h : Follows r events) (i : Nat) :
    r.table.rules[i]? = (conditional events)[i]?.map fun a => ⟨i, a.leaves, a.handler⟩ := by
  rw [h.table, tableOf, List.getElem?_mapIdx]

theorem leaves_of_mem_rules (h : Follows r events) {rule : Rule η} (hr : rule ∈ r.table.rules) :
    rule.leaves ≠ [] ∧ ∀ leaf ∈ rule.leaves, leaf.IsRooted := by
  rw [h.table, tableOf, List.mem_mapIdx] at hr
  obtain ⟨i, hi, rfl⟩ := hr
  have ha := List.getElem_mem hi
  refine ⟨?_, h.rooted _ ha⟩
  simpa [Registration.isConditional] using (List.mem_filter.1 ha).2

theorem toList_catchAll (h : Follows r events) :
    r.table.catchAll.toList = (unconditional events).map (·.handler) := by
  have single := h.single
  rw [h.table, tableOf]
  match unconditional events, single with
  | [], _ => rfl
  | [_], _ => rfl

theorem outcome_of_registers (h : Follows r events) {candidate : Candidate η} {condition : Value}
    {r' : Registry η} {outcome : Except RegistrationError (Option Nat)}
    (did : Registers r candidate condition r' outcome) :
    outcome = registerOutcome events candidate condition := by
  unfold registerOutcome
  cases did with
  | frozen state => rw [if_pos (h.state.1 state)]
  | notCallable state => simp [h.not_hasFrozen state]
  | rejected state checked _ => simp [h.not_hasFrozen state, checked]
  | duplicate state checked bare taken =>
    have someone : unconditional events ≠ [] := by
      rw [Ne, ← h.catchAll_eq_none]
      exact Option.isSome_iff_ne_none.1 taken
    simp [h.not_hasFrozen state, checked, bare, someone]
  | catchAll state checked bare free =>
    simp [h.not_hasFrozen state, checked, bare, h.catchAll_eq_none.1 free]
  | rule state checked asks => simp [h.not_hasFrozen state, checked, asks, h.counter]

theorem isEmpty_iff (h : Follows r events) : r.table.isEmpty ↔ accepted events = [] := by
  have split : accepted events = [] ↔ conditional events = [] ∧ unconditional events = [] := by
    constructor
    · intro none
      simp [conditional, unconditional, none]
    · rintro ⟨noRule, noCatchAll⟩
      rw [List.eq_nil_iff_forall_not_mem]
      intro a ha
      have isConditional := List.filter_eq_nil_iff.1 noRule a ha
      exact List.filter_eq_nil_iff.1 noCatchAll a ha (by simpa using isConditional)
  rw [split, Table.isEmpty, Bool.and_eq_true, Option.isNone_iff_eq_none, h.catchAll_eq_none,
    h.table]
  simp [tableOf]

theorem outcome_of_freezes (h : Follows r events) {r' : Registry η}
    {outcome : Except FreezeError (Table η)} (did : Freezes r r' outcome) :
    outcome = freezeOutcome events := by
  unfold freezeOutcome
  cases did with
  | again state => simp [h.state.1 state, h.table]
  | empty state none => simp [h.not_hasFrozen state, h.isEmpty_iff.1 none]
  | ended state some =>
    have someone : accepted events ≠ [] := by
      rw [Ne, ← h.isEmpty_iff, some]
      decide
    simp [someone, h.table]

end Follows

theorem perform_of_frozen {r : Registry η} (state : r.state = .frozen) (call : Call η) :
    (r.perform call).1 = r := by
  cases call with
  | register candidate condition => simp [perform, register, state, refuse]
  | freeze => simp [perform, freeze, state, RegistryState.canBecome]

theorem after_of_frozen {r : Registry η} (state : r.state = .frozen) (calls : List (Call η)) :
    r.after calls = r := by
  induction calls with
  | nil => rfl
  | cons call calls ih => rw [after, perform_of_frozen state, ih]

/-- After any calls, refused ones among them, the registry and its next answers are those that the
history of the calls prescribes. -/
theorem run_eq_history (calls : List (Call η)) (writable : ∀ call ∈ calls, call.IsWritable) :
    let r := ({} : Registry η).after calls
    let events := ({} : Registry η).history calls
    (r.counter = r.table.rules.length ∧ r.counter = (conditional events).length) ∧
    (∀ i : Nat, r.table.rules[i]? =
      (conditional events)[i]?.map fun a => ⟨i, a.leaves, a.handler⟩) ∧
    (∀ rule ∈ r.table.rules, rule.leaves ≠ [] ∧ ∀ leaf ∈ rule.leaves, leaf.IsRooted) ∧
    r.table.catchAll.toList = (unconditional events).map (·.handler) ∧
    (r.state = .frozen ↔ hasFrozen events) ∧
    (r.state = .frozen → ∀ more, r.after more = r) ∧
    (∀ candidate condition, condition.isWritable →
      (r.register candidate condition).outcome = registerOutcome events candidate condition ∧
      (r.register candidate condition).outcome ≠ .error (.condition .unwritable)) ∧
    r.freeze.outcome = freezeOutcome events := by
  intro r events
  have h : Follows r events := follows_nil.run writable
  have counted : r.counter = r.table.rules.length := by
    rw [h.counter, h.table, tableOf, List.length_mapIdx]
  refine ⟨⟨counted, h.counter⟩, h.getElem?_rules, fun _ => h.leaves_of_mem_rules,
    h.toList_catchAll, h.state, after_of_frozen, ?_, h.outcome_of_freezes (freeze_freezes r)⟩
  intro candidate condition hw
  have did := register_registers r candidate hw
  exact ⟨h.outcome_of_registers did, did.ne_unwritable⟩

theorem run_eq_history_five_calls :
    let typed := Value.ofFields [("attributes", .ofFields [("type", .str "a")])]
    let calls : List (Call Nat) := [.register (.handler "first" 1) typed,
      .register (.other "int") typed, .register (.handler "rest" 2) .null,
      .register (.handler "late" 3) (.dict []), .freeze]
    let r := ({} : Registry Nat).after calls
    (∀ call ∈ calls, call.IsWritable) ∧ r.counter = 1 ∧ r.table.catchAll.toList = [2] ∧
      r.state = .frozen := by
  intro typed calls r
  have writable : ∀ call ∈ calls, call.IsWritable := by
    simp [calls, typed, Call.IsWritable, Value.isWritable, Value.ofFields, Entries.ofFields,
      Value.entriesWritable, Key.isWritable]
  obtain ⟨⟨-, counter⟩, -, -, catchAll, state, -⟩ := run_eq_history calls writable
  refine ⟨writable, ?_, ?_, ?_⟩
  · rw [counter]
    decide +kernel
  · rw [catchAll]
    decide +kernel
  · rw [state]
    decide +kernel

end PushDispatch.Registry
