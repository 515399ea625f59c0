import PushDispatch.Proofs.Registry.Numbering
import PushDispatch.Proofs.Registry.Runs

/-! A registration that fails leaves the registry as it was, as long as every value that its
condition asks for can be written: then nothing can fail once the table has changed. Failed
registrations may be left out of a run, and the history of a run still tells the registry. -/
namespace PushDispatch

/-- Every value that the condition asks for can be written. Its keys may be of any size. -/
def Condition.IsAnnounceable (condition : Value) : Prop :=
  ∀ entries, check condition = .ok entries → ∀ leaf ∈ leaves entries, leaf.value.isWritable

theorem Condition.isAnnounceable_of_check {condition : Value} {entries : Entries}
    (checked : check condition = .ok entries)
    (announced : ∀ leaf ∈ leaves entries, leaf.value.isWritable) : IsAnnounceable condition := by
  intro entries' checked'
  cases checked.symm.trans checked'
  exact announced

namespace Registry

variable {η : Type} {r : Registry η} {candidate : Candidate η} {condition : Value}
  {cause : RegistrationError}

theorem addCatchAll_of_error {label : String} {handler : η}
    (failed : (r.addCatchAll label handler).outcome = .error cause) :
    (r.addCatchAll label handler).registry = r := by
  unfold addCatchAll at failed ⊢
  split at failed
  · rfl
  · cases failed

theorem addRule_outcome (r : Registry η) (label : String) (handler : η) (entries : Entries) :
    (r.addRule label handler entries).outcome
      = if (Condition.leaves entries).all (·.value.isWritable) then .ok (some r.counter)
        else .error .unwritable := by
  unfold addRule
  dsimp only [Rule.compile]
  cases (Condition.leaves entries).all (·.value.isWritable) <;> rfl

theorem register_eq_addRule {label : String} {handler : η} {entries : Entries}
    (opened : r.state = .opened) (checked : Condition.check condition = .ok entries)
    (nameable : Condition.areNameable entries) (asks : (Condition.leaves entries).isEmpty = false) :
    r.register (.handler label handler) condition = r.addRule label handler entries := by
  unfold register
  simp [opened, checked, nameable, asks]

theorem register_of_error (announceable : Condition.IsAnnounceable condition)
    (failed : (r.register candidate condition).outcome = .error cause) :
    (r.register candidate condition).registry = r := by
  unfold register at failed ⊢
  split
  · rfl
  · rename_i open_
    rw [if_neg open_] at failed
    split
    · rfl
    · dsimp only at failed
      split
      · rfl
      · rename_i entries checked
        simp only [checked] at failed
        split
        · rename_i nameable
          rw [if_pos nameable] at failed
          split
          · rename_i bare
            rw [if_pos bare] at failed
            exact addCatchAll_of_error failed
          · rename_i asks
            have announced := List.all_eq_true.2 (announceable entries checked)
            rw [if_neg asks, addRule_outcome, if_pos announced] at failed
            cases failed
        · rfl

theorem registers_of_addCatchAll {label : String} {handler : η} {entries : Entries}
    {index : Option Nat} (opened : r.state = .opened)
    (checked : Condition.check condition = .ok entries) (bare : Condition.leaves entries = [])
    (taken : (r.addCatchAll label handler).outcome = .ok index) :
    Registers r (.handler label handler) condition (r.addCatchAll label handler).registry
      (.ok index) := by
  unfold addCatchAll at taken ⊢
  split at taken
  · cases taken
  · rename_i free
    cases taken
    exact .catchAll opened checked bare free

theorem registers_of_addRule {label : String} {handler : η} {entries : Entries}
    {index : Option Nat} (opened : r.state = .opened)
    (checked : Condition.check condition = .ok entries) (asks : Condition.leaves entries ≠ [])
    (taken : (r.addRule label handler entries).outcome = .ok index) :
    Registers r (.handler label handler) condition (r.addRule label handler entries).registry
      (.ok index) := by
  rw [addRule_outcome] at taken
  split at taken
  · cases taken
    rw [addRule_registry]
    exact .rule opened checked asks
  · cases taken

theorem registers_of_ok {index : Option Nat}
    (taken : (r.register candidate condition).outcome = .ok index) :
    Registers r candidate condition (r.register candidate condition).registry (.ok index) := by
  unfold register at taken ⊢
  cases state : r.state with
  | frozen =>
    rw [if_pos state] at taken
    cases taken
  | opened =>
    have open_ : RegistryState.opened ≠ .frozen := by decide
    simp only [state, if_neg open_] at taken ⊢
    cases candidate with
    | other typeName => cases taken
    | handler label handler =>
      cases checked : Condition.check condition with
      | error cause =>
        simp only [checked] at taken
        cases taken
      | ok entries =>
        simp only [checked] at taken ⊢
        split
        · rename_i nameable
          rw [if_pos nameable] at taken
          split
          · rename_i bare
            rw [if_pos bare] at taken
            exact registers_of_addCatchAll state checked (List.isEmpty_iff.1 bare) taken
          · rename_i asks
            rw [if_neg asks] at taken
            exact registers_of_addRule state checked (by simpa using asks) taken
        · rename_i unnameable
          rw [if_neg unnameable] at taken
          cases taken

theorem register_outcome_of_free (label : String) (handler : η) {entries : Entries}
    (opened : r.state = .opened) (free : r.table.catchAll = none)
    (checked : Condition.check condition = .ok entries) (nameable : Condition.areNameable entries)
    (announced : ∀ leaf ∈ Condition.leaves entries, leaf.value.isWritable) :
    (r.register (.handler label handler) condition).outcome
      = .ok (if (Condition.leaves entries).isEmpty then none else some r.counter) := by
  cases bare : (Condition.leaves entries).isEmpty with
  | true =>
    unfold register addCatchAll
    simp [opened, checked, nameable, bare, free]
  | false =>
    rw [register_eq_addRule opened checked nameable bare, addRule_outcome,
      if_pos (List.all_eq_true.2 announced)]
    rfl

theorem Follows.register_of_announceable {events : List (Event η)} (h : Follows r events)
    (announceable : Condition.IsAnnounceable condition) :
    Follows (r.register candidate condition).registry
      (events ++ [.register candidate condition (r.register candidate condition).outcome]) := by
  cases outcome : (r.register candidate condition).outcome with
  | error cause =>
    rw [register_of_error announceable outcome]
    exact h.refused candidate condition cause
  | ok index => exact h.registers (registers_of_ok outcome)

def Call.IsAnnounceable : Call η → Prop
  | .register _ condition => Condition.IsAnnounceable condition
  | .freeze => True

def Event.isFailure : Event η → Bool
  | .register _ _ (.error _) => true
  | _ => false

/-- The calls of a run but for the registrations that fail in it. -/
def effective (r : Registry η) : List (Call η) → List (Call η)
  | [] => []
  | call :: calls =>
    let rest := (r.perform call).1.effective calls
    if (r.perform call).2.isFailure then rest else call :: rest

theorem perform_of_isFailure {call : Call η} (announceable : call.IsAnnounceable)
    (failure : (r.perform call).2.isFailure) : (r.perform call).1 = r := by
  cases call with
  | freeze => cases failure
  | register candidate condition =>
    unfold perform Event.isFailure at failure
    dsimp only at failure
    split at failure
    · rename_i failed
      injection failed with _ _ failed
      exact register_of_error announceable failed
    · cases failure

theorem after_effective {calls : List (Call η)}
    (announceable : ∀ call ∈ calls, call.IsAnnounceable) :
    r.after (r.effective calls) = r.after calls := by
  induction calls generalizing r with
  | nil => rfl
  | cons call calls ih =>
    have rest := ih (r := (r.perform call).1) fun c hc => announceable c (List.mem_cons_of_mem _ hc)
    unfold effective
    dsimp only
    split
    · rename_i failure
      have same := perform_of_isFailure (announceable call List.mem_cons_self) failure
      rw [same] at rest ⊢
      rw [rest, after, same]
    · rw [after, after, rest]

/-- Whatever the registry has been through, a registration that fails changes nothing in it, and a
run comes to the same without its failed registrations. -/
theorem failed_register_changes_nothing (r : Registry η) :
    (∀ candidate condition cause, Condition.IsAnnounceable condition →
      (r.register candidate condition).outcome = .error cause →
      (r.register candidate condition).registry = r) ∧
    ∀ calls : List (Call η), (∀ call ∈ calls, call.IsAnnounceable) →
      r.after (r.effective calls) = r.after calls :=
  ⟨fun _ _ _ => register_of_error, fun _ => after_effective⟩

theorem not_isWritable_pow_maxDigits :
    Numeral.isWritable (Nat.pow 10 Numeral.maxDigits : Nat) = false := by
  unfold Numeral.isWritable
  rw [Int.natAbs_natCast]
  exact decide_eq_false (Nat.lt_irrefl _)

theorem failed_register_changes_nothing_long_key :
    let long := Key.int (Nat.pow 10 Numeral.maxDigits : Nat)
    let condition := Value.ofFields [("data", .dict [(.str "a", .null), (long, .null)])]
    let r : Registry Nat := ({} : Registry Nat).after [.register (.handler "rest" 1) .null]
    Condition.IsAnnounceable condition ∧
      (r.register (.handler "h" 2) condition).outcome = .error .unwritable ∧
      (r.register (.handler "h" 2) condition).registry = r ∧
      r.after [.freeze] = r.after [.register (.handler "h" 2) condition, .freeze] := by
  have long := not_isWritable_pow_maxDigits
  generalize ((Nat.pow 10 Numeral.maxDigits : Nat) : Int) = n at long ⊢
  intro key condition r
  have checked : Condition.check condition
      = .ok [(.str "data", .dict [(.str "a", .null), (key, .null)])] := rfl
  have announceable : Condition.IsAnnounceable condition :=
    Condition.isAnnounceable_of_check checked (List.all_eq_true.1 rfl)
  have unnameable : Condition.areNameable
      [(.str "data", .dict [(.str "a", .null), (key, .null)])] = false := by
    show (true && (true && (Numeral.isWritable n && true && true)) && true) = false
    rw [long]
    rfl
  have failed : (r.register (.handler "h" 2) condition).outcome = .error .unwritable := by
    have opened : r.state ≠ .frozen := by decide
    unfold register
    rw [if_neg opened]
    simp only [checked, unnameable]
    rfl
  obtain ⟨step, run⟩ := failed_register_changes_nothing r
  have kept := step _ _ _ announceable failed
  have rest : r.effective [.register (.handler "h" 2) condition, .freeze] = [.freeze] := by
    simp [effective, perform, failed, kept, Event.isFailure]
  have same := run [.register (.handler "h" 2) condition, .freeze] (by
    simp [Call.IsAnnounceable, announceable])
  rw [rest] at same
  exact ⟨announceable, failed, kept, same⟩

theorem register_of_long {n : Int} (long : Numeral.isWritable n = false) (label : String)
    (handler : η) :
    let condition := Value.ofFields [("data", .ofFields [("n", .int n)])]
    let step := ({} : Registry η).register (.handler label handler) condition
    step.outcome = .error .unwritable ∧ step.registry
      = { counter := 1, table := { rules := [⟨0, [⟨["data", "n"], .int n⟩], handler⟩] } } := by
  intro condition step
  have added : step = ({} : Registry η).addRule label handler
      [(.str "data", .ofFields [("n", .int n)])] := register_eq_addRule rfl rfl rfl rfl
  have unannounced : (Condition.leaves [(.str "data", .ofFields [("n", .int n)])]).all
      (·.value.isWritable) = false := by
    show (Numeral.isWritable n && true) = false
    rw [long, Bool.false_and]
  rw [added, addRule_registry, addRule_outcome, unannounced]
  exact ⟨rfl, rfl⟩

/-- A value of too many digits is found out when the table has changed: the registration fails, and
its rule stays. -/
theorem failed_register_keeps_rule :
    let long := Value.int (Nat.pow 10 Numeral.maxDigits : Nat)
    let condition := Value.ofFields [("data", .ofFields [("n", long)])]
    let step := ({} : Registry Nat).register (.handler "h" 1) condition
    step.outcome = .error .unwritable ∧ step.registry.counter = 1 ∧
      step.registry.table.rules.length = 1 := by
  have long := not_isWritable_pow_maxDigits
  generalize ((Nat.pow 10 Numeral.maxDigits : Nat) : Int) = n at long ⊢
  intro value condition step
  obtain ⟨failed, kept⟩ := register_of_long long "h" 1
  rw [show step.registry = _ from kept]
  exact ⟨failed, rfl, rfl⟩

end Registry
end PushDispatch
