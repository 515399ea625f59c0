import PushDispatch.Value.Basic

/-!
Values that may stand for a mapping: a mapping of either kind, or a sequence of pairs, each a key
and its value. A value that is void stands for the empty mapping.
-/

namespace PushDispatch

inductive MappingError where
  | notIterable (typeName : String)
  | notSequence (index : Nat)
  | notPair (index length : Nat)
  | changeableKey (typeName : String)
  deriving DecidableEq, Repr

def MappingError.message : MappingError → String
  | .notIterable typeName => s!"'{typeName}' object is not iterable"
  | .notSequence index =>
    s!"cannot convert dictionary update sequence element #{index} to a sequence"
  | .notPair index length =>
    s!"dictionary update sequence element #{index} has length {length}; 2 is required"
  | .changeableKey typeName => s!"unhashable type: '{typeName}'"

namespace Key

mutual

/-- The key that a value is. What can change is no key, nor is a tuple that holds it. -/
def ofValue : Value → Except MappingError Key
  | .null => .ok .null
  | .bool b => .ok (.bool b)
  | .int n => .ok (.int n)
  | .float d => .ok (.float d)
  | .str s => .ok (.str s)
  | .tuple items => (ofValues items).map .tuple
  | .thunk _ => .ok .thunk
  | v => .error (.changeableKey v.typeName)

def ofValues : List Value → Except MappingError (List Key)
  | [] => .ok []
  | v :: vs => do return (← ofValue v) :: (← ofValues vs)

end

end Key

namespace Value

def isVoid : Value → Bool
  | .null => true
  | .bool b => !b
  | .int n => n == 0
  | .float d => d.extent == .finite 0
  | .str s => s == ""
  | .list items => items.isEmpty
  | .tuple items => items.isEmpty
  | .dict entries => entries.isEmpty
  | .proxy _ entries => entries.isEmpty
  | .thunk _ => false
  | .message .. => false
  | .envelope .. => false

def members? : Value → Option (List Value)
  | .list items => some items
  | .tuple items => some items
  | .str s => some (s.toList.map fun c => .str (String.ofList [c]))
  | .dict entries => some (entries.map (·.1.toValue))
  | .proxy _ entries => some (entries.map (·.1.toValue))
  | .envelope subscription id time data attributes =>
    some [.tuple [.str "subscription", ofText? subscription],
      .tuple [.str "message", .message id time data attributes]]
  | _ => none

end Value

namespace Entries

def entryAt (index : Nat) (v : Value) : Except MappingError (Key × Value) :=
  match v.members? with
  | none => .error (.notSequence index)
  | some [k, x] => (Key.ofValue k).map fun key => (key, x)
  | some items => .error (.notPair index items.length)

def ofPairs (index : Nat) : List Value → Except MappingError Entries
  | [] => .ok []
  | v :: rest => do return (← entryAt index v) :: (← ofPairs (index + 1) rest)

/-- The mapping that a value stands for; of two pairs with one key the later counts. -/
def ofValue (v : Value) : Except MappingError Entries :=
  if v.isVoid then .ok []
  else
    match v.entries?, v.members? with
    | some entries, _ => .ok entries
    | none, some items => (ofPairs 0 items).map collapse
    | none, none => .error (.notIterable v.typeName)

def merge (xs ys : Entries) : Entries := ys.foldl (fun acc e => insert acc e.1 e.2) xs

end Entries
end PushDispatch
