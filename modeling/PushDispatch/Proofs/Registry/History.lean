import PushDispatch.Proofs.Condition.Leaves
import PushDispatch.Registry

/-! Runs of a registry, call after call, and the history that a run leaves: every call with its
outcome. Who was registered, and in which order, is read off the history alone, without a look at
the table. -/
namespace PushDispatch

variable {η : Type}

namespace Registry

inductive Call (η : Type) where
  | register (candidate : Candidate η) (condition : Value)
  | freeze

def Call.IsWritable : Call η → Prop
  | .register _ condition => condition.isWritable
  | .freeze => True

inductive Event (η : Type) where
  | register (candidate : Candidate η) (condition : Value)
      (outcome : Except RegistrationError (Option Nat))
  | freeze (outcome : Except FreezeError (Table η))

def perform (r : Registry η) : Call η → Registry η × Event η
  | .register candidate condition =>
    let step := r.register candidate condition
    (step.registry, .register candidate condition step.outcome)
  | .freeze =>
    let step := r.freeze
    (step.registry, .freeze step.outcome)

def after (r : Registry η) : List (Call η) → Registry η
  | [] => r
  | call :: calls => (r.perform call).1.after calls

def history (r : Registry η) : List (Call η) → List (Event η)
  | [] => []
  | call :: calls => (r.perform call).2 :: (r.perform call).1.history calls

structure Registration (η : Type) where
  handler : η
  leaves : List Leaf
  index : Option Nat

def Registration.isConditional (a : Registration η) : Bool := !a.leaves.isEmpty

namespace Event

def registration? : Event η → Option (Registration η)
  | .register (.handler _ handler) condition (.ok index) =>
    some ⟨handler, Condition.leaves (condition.entries?.getD []), index⟩
  | _ => none

def isFreezing : Event η → Bool
  | .freeze (.ok _) => true
  | _ => false

end Event

def accepted (events : List (Event η)) : List (Registration η) :=
  events.filterMap Event.registration?

def conditional (events : List (Event η)) : List (Registration η) :=
  (accepted events).filter (·.isConditional)

def unconditional (events : List (Event η)) : List (Registration η) :=
  (accepted events).filter (!·.isConditional)

def hasFrozen (events : List (Event η)) : Bool := events.any Event.isFreezing

def tableOf (events : List (Event η)) : Table η where
  rules := (conditional events).mapIdx fun i a => ⟨i, a.leaves, a.handler⟩
  catchAll := (unconditional events).head?.map (·.handler)

/-- The answer that a registration deserves after what has happened. -/
def registerOutcome (events : List (Event η)) (candidate : Candidate η) (condition : Value) :
    Except RegistrationError (Option Nat) :=
  if hasFrozen events then .error .frozen
  else
    match candidate with
    | .other typeName => .error (.notCallable typeName)
    | .handler _ _ =>
      match Condition.check condition with
      | .error cause => .error (.condition cause)
      | .ok entries =>
        if Condition.leaves entries ≠ [] then .ok (some (conditional events).length)
        else if unconditional events ≠ [] then .error .duplicateCatchAll
        else .ok none

def freezeOutcome (events : List (Event η)) : Except FreezeError (Table η) :=
  if hasFrozen events = false ∧ accepted events = [] then .error .noHandlers
  else .ok (tableOf events)

/-- All that a registration can come to when its condition can be written, by the registry before
it: the registry after it and the outcome. -/
inductive Registers (r : Registry η) : Candidate η → Value → Registry η →
    Except RegistrationError (Option Nat) → Prop where
  | frozen {candidate condition} (state : r.state = .frozen) :
      Registers r candidate condition r (.error .frozen)
  | notCallable {typeName condition} (state : r.state = .opened) :
      Registers r (.other typeName) condition r (.error (.notCallable typeName))
  | rejected {label handler condition cause} (state : r.state = .opened)
      (checked : Condition.check condition = .error cause) (cause_ne : cause ≠ .unwritable) :
      Registers r (.handler label handler) condition r (.error (.condition cause))
  | duplicate {label handler condition entries} (state : r.state = .opened)
      (checked : Condition.check condition = .ok entries) (bare : Condition.leaves entries = [])
      (taken : r.table.catchAll.isSome) :
      Registers r (.handler label handler) condition r (.error .duplicateCatchAll)
  | catchAll {label handler condition entries} (state : r.state = .opened)
      (checked : Condition.check condition = .ok entries) (bare : Condition.leaves entries = [])
      (free : r.table.catchAll = none) :
      Registers r (.handler label handler) condition
        { r with table := r.table.withCatchAll handler } (.ok none)
  | rule {label handler condition entries} (state : r.state = .opened)
      (checked : Condition.check condition = .ok entries) (asks : Condition.leaves entries ≠ []) :
      Registers r (.handler label handler) condition
        { r with table := r.table.extend (.compile r.counter entries handler),
                 counter := r.counter + 1 } (.ok (some r.counter))

theorem register_registers (r : Registry η) (candidate : Candidate η) {condition : Value}
    (hw : condition.isWritable) :
    Registers r candidate condition (r.register candidate condition).registry
      (r.register candidate condition).outcome := by
  unfold register
  split
  · rename_i state
    exact .frozen state
  · rename_i state
    have opened : r.state = .opened := by
      cases h : r.state with
      | opened => rfl
      | frozen => exact absurd h state
    split
    · exact .notCallable opened
    · split
      · rename_i checked
        exact .rejected opened checked (Condition.ne_unwritable_of_check hw checked)
      · rename_i label handler _ entries checked
        have writable := Condition.entriesWritable_of_check hw checked
        rw [if_pos (Condition.areNameable_of_entriesWritable entries writable)]
        split
        · rename_i bare
          unfold addCatchAll
          split
          · rename_i taken
            exact .duplicate opened checked (List.isEmpty_iff.1 bare) (by rw [taken]; rfl)
          · rename_i free
            exact .catchAll opened checked (List.isEmpty_iff.1 bare) free
        · rename_i asks
          have announced : (Condition.leaves entries).all (·.value.isWritable) :=
            List.all_eq_true.2 fun leaf hl =>
              Condition.isWritable_of_mem_leavesBelow [] entries writable hl
          unfold addRule
          simp only [Rule.compile, announced, if_pos]
          exact .rule opened checked (by simpa using asks)

theorem Registers.ne_unwritable {r r' : Registry η} {candidate : Candidate η} {condition : Value}
    {outcome : Except RegistrationError (Option Nat)}
    (did : Registers r candidate condition r' outcome) :
    outcome ≠ .error (.condition .unwritable) := by
  cases did with
  | rejected _ _ cause_ne =>
    intro same
    exact cause_ne (RegistrationError.condition.inj (Except.error.inj same))
  | _ => nofun

inductive Freezes (r : Registry η) : Registry η → Except FreezeError (Table η) → Prop where
  | again (state : r.state = .frozen) : Freezes r r (.ok r.table)
  | empty (state : r.state = .opened) (none : r.table.isEmpty) : Freezes r r (.error .noHandlers)
  | ended (state : r.state = .opened) (some : r.table.isEmpty = false) :
      Freezes r { r with state := .frozen } (.ok r.table)

theorem freeze_freezes (r : Registry η) : Freezes r r.freeze.registry r.freeze.outcome := by
  unfold freeze
  cases state : r.state with
  | frozen => exact .again state
  | opened =>
    rw [if_neg (by decide)]
    split
    · rename_i none
      exact .empty state none
    · rename_i some
      exact .ended state (by simpa using some)

end Registry
end PushDispatch
