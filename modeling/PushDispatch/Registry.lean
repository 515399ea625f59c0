import PushDispatch.Log.Record
import PushDispatch.Table

/-!
The registry collects handlers until it is frozen. Every operation answers with the registry as it
stands afterwards, the outcome, and what it says to the log.
-/

namespace PushDispatch

variable {η : Type}

inductive RegistryState where
  | opened
  | frozen
  deriving DecidableEq, Repr

namespace RegistryState

def name : RegistryState → String
  | .opened => "open"
  | .frozen => "frozen"

def all : List RegistryState := [.opened, .frozen]

def ofValue? (v : Value) : Option RegistryState :=
  v.str?.bind fun s => all.find? (·.name == s)

def canBecome (source target : RegistryState) : Bool := source == .opened && target == .frozen

end RegistryState

/-- What is offered for registration: a handler with its label in the log, or another value. -/
inductive Candidate (η : Type) where
  | handler (label : String) (handler : η)
  | other (typeName : String)

inductive RegistrationError where
  | frozen
  | notCallable (typeName : String)
  | condition (cause : Condition.Error)
  | duplicateCatchAll
  /-- The log line would have to write an integer of too many digits. -/
  | unwritable
  deriving Repr

def RegistrationError.message : RegistrationError → String
  | .frozen => "handlers cannot be added once the registry is frozen"
  | .notCallable typeName => "Invalid options: handler must be callable, got " ++ typeName
  | .condition cause => cause.message
  | .duplicateCatchAll => "A catch all handler has already been added"
  | .unwritable => Numeral.Error.tooLargeToWrite.message

inductive FreezeError where
  | noHandlers
  deriving DecidableEq, Repr

def FreezeError.message : FreezeError → String
  | .noHandlers => "No handlers added, unable to start"

structure Registry (η : Type) where
  state : RegistryState := .opened
  counter : Nat := 0
  table : Table η := {}

structure Registry.Step (η ε α : Type) where
  registry : Registry η
  outcome : Except ε α
  log : List LogRecord := []

namespace Registry

def logger : String := "subpar.registry"

def refuse {ε α : Type} (r : Registry η) (cause : ε) : Step η ε α := ⟨r, .error cause, []⟩

def announcement (label : String) (index : Nat) (leaves : List Leaf) : String :=
  s!"registered handler {label} at index {index} when "
    ++ String.ofList (Layout.separated (leaves.map Leaf.display))

def addCatchAll (r : Registry η) (label : String) (handler : η) :
    Step η RegistrationError (Option Nat) :=
  match r.table.catchAll with
  | some _ => r.refuse .duplicateCatchAll
  | none =>
    { registry := { r with table := r.table.withCatchAll handler }
      outcome := .ok none
      log := [⟨Level.info, logger, "registered catch-all handler " ++ label⟩] }

/--
A handler with a condition gets the next index. The rule is in place before it is announced, and
stays when the announcement fails.
-/
def addRule (r : Registry η) (label : String) (handler : η) (condition : Entries) :
    Step η RegistrationError (Option Nat) :=
  let index := r.counter
  let rule := Rule.compile index condition handler
  let registry := { r with table := r.table.extend rule, counter := index + 1 }
  if rule.leaves.all (·.value.isWritable) then
    { registry
      outcome := .ok (some index)
      log := [⟨Level.info, logger, announcement label index rule.leaves⟩] }
  else registry.refuse .unwritable

/-- Adds a handler and answers with its index, or with none for the catch-all. -/
def register (r : Registry η) (candidate : Candidate η) (condition : Value) :
    Step η RegistrationError (Option Nat) :=
  if r.state = .frozen then r.refuse .frozen
  else
    match candidate with
    | .other typeName => r.refuse (.notCallable typeName)
    | .handler label handler =>
      match Condition.check condition with
      | .error cause => r.refuse (.condition cause)
      | .ok entries =>
        if Condition.areNameable entries then
          if (Condition.leaves entries).isEmpty then r.addCatchAll label handler
          else r.addRule label handler entries
        else r.refuse .unwritable

/-- Ends the registration and hands out the table; a second time it hands out the same. -/
def freeze (r : Registry η) : Step η FreezeError (Table η) :=
  if r.state.canBecome .frozen = false then ⟨r, .ok r.table, []⟩
  else if r.table.isEmpty then r.refuse .noHandlers
  else
    { registry := { r with state := .frozen }
      outcome := .ok r.table
      log := [⟨Level.debug, logger, s!"registry frozen with {r.table.size} conditional handler(s), "
        ++ "catch-all=" ++ String.ofList (Layout.boolText r.table.catchAll.isSome)⟩] }

end Registry
end PushDispatch
