import PushDispatch.Condition.Match

/-!
The table that dispatch reads: rules in the order of their registration, and the handler that takes
what no rule matches. A table never changes; adding to it gives another.
-/

namespace PushDispatch

variable {η : Type}

structure Rule (η : Type) where
  index : Int
  leaves : List Leaf
  handler : η

structure Table (η : Type) where
  rules : List (Rule η) := []
  catchAll : Option η := none

inductive PositionError where
  | outOfRange
  /-- The position does not fit 64 bits. -/
  | tooLarge
  | notPosition (typeName : String)
  deriving DecidableEq, Repr

def PositionError.message : PositionError → String
  | .outOfRange => "tuple index out of range"
  | .tooLarge => "cannot fit 'int' into an index-sized integer"
  | .notPosition typeName => s!"tuple indices must be integers or slices, not {typeName}"

namespace Rule

def compile (index : Int) (condition : Entries) (handler : η) : Rule η :=
  ⟨index, Condition.leaves condition, handler⟩

def build (index : Int) (condition : Entries) (handler : η) : Except Numeral.Error (Rule η) :=
  if Condition.areNameable condition then .ok (compile index condition handler)
  else .error .tooLargeToWrite

def accepts (r : Rule η) (e : Envelope) : Bool := r.leaves.all (·.holds e.subject)

end Rule

namespace Table

def size (t : Table η) : Nat := t.rules.length

def extend (t : Table η) (r : Rule η) : Table η := { t with rules := t.rules ++ [r] }

def withCatchAll (t : Table η) (handler : η) : Table η := { t with catchAll := some handler }

def isEmpty (t : Table η) : Bool := t.rules.isEmpty && t.catchAll.isNone

def resolve? (t : Table η) (e : Envelope) : Option Int :=
  (t.rules.find? (·.accepts e)).map (·.index)

/-- The handler at a position. A negative position counts from the end. -/
def handlerAt? (t : Table η) (position : Int) : Option η :=
  let p := if position < 0 then position + t.size else position
  if p < 0 then none else t.rules[p.toNat]?.map (·.handler)

def handlerOf (t : Table η) (position : Value) : Except PositionError η :=
  let find (p : Int) : Except PositionError η :=
    match t.handlerAt? p with
    | some handler => .ok handler
    | none => .error .outOfRange
  match position with
  | .bool b => find b.toNat
  | .int n =>
    if -0x8000000000000000 ≤ n ∧ n < 0x8000000000000000 then find n else .error .tooLarge
  | v => .error (.notPosition v.typeName)

end Table
end PushDispatch
